/-
# The two views of a body

The body of a response can be looked at as a text, which never fails, and as a JSON value.  The two
are independent: the text puts a replacement for what is no character, and the reader of values
looks at bytes.  But a body with a value holds nothing to be replaced, so its text is the body, and
the value is that of the text.

* `scan_eq_text`: a body that its text spells has a character of the text for each stretch of bytes;
* `views_agree`: what the two views of a body have to do with each other.
-/
import Mathlib
import MeshNode.Http.Message
import MeshNode.Proofs.Json.Textual

namespace MeshNode.Response

open Utf8

/-- A body is well-formed if its text spells it, with a character for each stretch of bytes. -/
theorem scan_eq_text {r : Response} (h : encode r.text = r.body) :
    scan r.body = r.text.toList.map some := by
  calc scan r.body = scan (encodeChars r.text.toList) := by rw [← encode, h]
    _ = r.text.toList.map some := scan_encodeChars _

/-- **The two views of a body agree.**  A body with a JSON value is well-formed UTF-8; its text is
what was sent, a character for each stretch of bytes and none of them a replacement; and the value
is that of the text.  Whatever the body is, its text is the text of its own bytes, and these are the
body if and only if the body is well-formed. -/
theorem views_agree (r : Response) :
    (∀ v, r.json = .ok v →
      IsText r.body ∧ encode r.text = r.body ∧ scan r.body = r.text.toList.map some ∧
        Json.ofBytes (encode r.text) = .ok v) ∧
    ({ r with body := encode r.text } : Response).text = r.text ∧
    (encode r.text = r.body ↔ IsText r.body) := by
  refine ⟨fun v hv => ?_, decodeLossy_encode r.text, encode_decodeLossy_iff⟩
  have htext : IsText r.body := Json.isText_of_ofBytes hv
  have hbytes : encode r.text = r.body := encode_decodeLossy_iff.mpr htext
  refine ⟨htext, hbytes, scan_eq_text hbytes, ?_⟩
  rw [hbytes]
  exact hv

/-- A key in an escape, and a string with characters of two and of four bytes, the latter once as it
is and once as a pair of escapes. -/
theorem views_agree_escaped :
    let r : Response :=
      { status := .ok, body := encode " \x7b\"\\u00e9\": \"é😀\\ud83d\\ude00\\n\"\x7d\r\n" }
    r.json = .ok (.obj [("é", .str "é😀😀\n")]) ∧
    r.text = " \x7b\"\\u00e9\": \"é😀\\ud83d\\ude00\\n\"\x7d\r\n" ∧
    Json.ofBytes (encode r.text) = .ok (.obj [("é", .str "é😀😀\n")]) := by
  intro r
  have hjson : r.json = .ok (.obj [("é", .str "é😀😀\n")]) := by
    unfold r
    cbv
  obtain ⟨-, -, -, hvalue⟩ := (views_agree r).1 _ hjson
  exact ⟨hjson, decodeLossy_encode _, hvalue⟩

end MeshNode.Response
