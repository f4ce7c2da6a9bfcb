/-
# Envelopes: all of the text and nothing else

A message can be damaged on its way without being changed: it is cut off, or something follows it.
Neither is taken for a message.  Cut anywhere, even inside a character, an escape, a number or a
word, the reader of envelopes asks for more; and behind the closing brace nothing may stand but
white space.

* `member_takenWhole` and `fromObject_unfinished`: the one member, and the object around it;
* `not_ofBytes_of_front`: no message that is cut is taken, whatever its payload is;
* `ofBytes_cut_extended`: both kinds of damage;
* `ofBytes_cut_extended_marked`: a payload that is refused as it is, and for another reason when it
  is cut.
-/
import MeshNode.Proofs.Envelope.Shape
import MeshNode.Proofs.Json.Form
import MeshNode.Proofs.Json.Truncation
import MeshNode.Transport.Payload

namespace MeshNode.Envelope

open Json Token

variable {v : Json} {x p : Bytes}

/-! ## 1. Cut off -/

theorem member_takenWhole (hf : v.floatFree = true) (hm : v.rawFree = true)
    (hd : v.depth ≤ payloadDepth) : TakenWhole (member dataField none) (colon :: v.write) :=
  ((value_takenWhole v hf hm payloadDepth hd).memberValue).map some

/-- The inside of an envelope, cut anywhere. -/
theorem fromObject_unfinished (hf : v.floatFree = true) (hm : v.rawFree = true)
    (hd : v.depth ≤ payloadDepth) :
    Unfinished fromObject (separated [memberText dataField v.write] ++ [closeBrace]) := by
  intro limit p hp hne hl
  obtain ⟨rounds, rfl⟩ : ∃ rounds, limit = rounds + 1 := ⟨limit - 1, by omega⟩
  have htext : separated [memberText dataField v.write] ++ [closeBrace]
      = quote ::
          (Literal.inner dataField.toList ++ quote :: (colon :: v.write ++ [closeBrace])) := by
    rw [← memberText_append]
    simp [separated]
  rw [htext] at hp hne
  have hmore : members member none (rounds + 1) p = .error .endOfText := by
    refine membersFrom_cut (member_takenWhole hf hm hd) (List.cons_ne_nil _ _)
      (delimited_closeBrace []) (nextKey_first_cut hp hne hl) fun held q hq hqne _ => ?_
    rcases prefix_singleton hq with rfl | rfl
    · exact membersFrom_nil member _ rounds false held
    · exact absurd rfl hqne
  rw [fromObject, hmore]

theorem reader_unfinished (hf : v.floatFree = true) (hm : v.rawFree = true)
    (hd : v.depth ≤ payloadDepth) : Unfinished reader (write ⟨v⟩) := by
  rw [write_eq]
  refine (fromObject_unfinished hf hm hd).opened (fun _ => rfl) fun limit p _ hmore => ?_
  rw [reader, record, skipSpaces_cons (by decide)]
  exact hmore

/-- **A message that is cut is never taken**: what is taken begins and ends with its object, and the
object of the message is as long as the message. -/
theorem not_ofBytes_of_front (hf : v.floatFree = true) (hp : p <+: write ⟨v⟩)
    (hne : p ≠ write ⟨v⟩) (e : Envelope) : ofBytes p ≠ .ok e := by
  intro h
  let m := Member.written dataField v.write
  have hwhole : write ⟨v⟩ = openBrace :: (separated ([m].map Member.text) ++ closeBrace :: []) := by
    simp [write_eq, m, Member.written_text]
  obtain ⟨r, hr⟩ := hp
  -- there is no white space in front of the message, so there is none in front of what is left
  have hfront : ∀ {ws s : Bytes} {b : UInt8}, Blank ws → p = ws ++ b :: s →
      p = b :: s ∧ b = openBrace := by
    intro ws s b hws hp
    rw [hp, hwhole] at hr
    cases ws with
    | nil => exact ⟨hp, (List.cons.inj hr).1⟩
    | cons w ws =>
      have hw := hws w List.mem_cons_self
      rw [(List.cons.inj hr).1] at hw
      exact absurd hw (by decide)
  rcases shape_of_ofBytes h with ⟨ws, ws', members, hws, -, hvalues, -, hp⟩ |
    ⟨ws, ws', item, hws, -, -, hp⟩
  · obtain ⟨hp, -⟩ := hfront hws hp
    have hlonger := skip_object hvalues (ws' ++ r) (Nat.lt_succ_self _)
    have hitself := @skip_object ((write ⟨v⟩).length + 1) [m]
      (fun _ hm => by rw [List.mem_singleton.mp hm]; exact valueText_write v hf) []
      (by rw [← hwhole]; exact Nat.lt_succ_self _)
    have hsplit : openBrace :: (separated (members.map Member.text) ++ closeBrace :: (ws' ++ r))
        = write ⟨v⟩ := by
      rw [← hr, hp]
      simp
    rw [hsplit] at hlonger
    rw [← hwhole, hlonger] at hitself
    have hnothing : ws' ++ r = [] := (Prod.mk.inj (Except.ok.inj hitself)).2
    rw [(List.append_eq_nil_iff.mp hnothing).2, List.append_nil] at hr
    exact hne hr
  · exact absurd (hfront hws hp).2 (by decide)

/-! ## 2. Something behind it -/

/-- White space is told by its four bytes. -/
theorem blank_iff_mem : Blank x ↔ ∀ b ∈ x, b ∈ [0x20, 0x09, 0x0A, 0x0D] := by
  simp [Blank, isSpace, or_assoc]

/-! ## 3. Both -/

/-- **A message is taken as a whole or not at all.**  Of the bytes that are sent for a payload
without doubles that opens at most 126 containers no beginning is taken, and with something behind
them they are taken only when it is white space.  With white space behind them, or nothing, they give
the envelope of this payload just when no object in it begins with the mark; and then the reader asks
for more wherever they are cut. -/
theorem ofBytes_cut_extended (v : Document) (hf : v.value.floatFree = true)
    (hd : v.value.depth ≤ 126) :
    (Payload.json v).wrapped.write = .ok (write ⟨v⟩) ∧
    (∀ p, p <+: write ⟨v⟩ → p ≠ write ⟨v⟩ → (∀ e, ofBytes p ≠ .ok e) ∧
      (v.value.rawFree = true → ofBytes p = .error .endOfText)) ∧
    ∀ x, ((∃ e, ofBytes (write ⟨v⟩ ++ x) = .ok e) → ∀ b ∈ x, b ∈ [0x20, 0x09, 0x0A, 0x0D]) ∧
      (ofBytes (write ⟨v⟩ ++ x) = .ok ⟨v⟩ ↔
        v.value.rawFree = true ∧ ∀ b ∈ x, b ∈ [0x20, 0x09, 0x0A, 0x0D]) := by
  refine ⟨rfl, fun p hp hne => ⟨not_ofBytes_of_front hf hp hne, fun hm => ?cut⟩, fun x => ?extended⟩
  case cut =>
    have hmore := reader_unfinished hf hm hd hp hne (Nat.lt_succ_self p.length)
    rw [ofBytes, fromBytes, hmore]
  case extended =>
    have hwhole : reread payloadDepth v.value = .ok v.value ↔ v.value.rawFree = true :=
      (reread_eq_ok_iff v hf payloadDepth).trans (and_iff_right hd)
    rw [ofBytes_write_append hf, ← blank_iff_mem, ← skipSpaces_eq_nil_iff, ← hwhole]
    by_cases hx : skipSpaces x = []
    · simp only [if_pos hx]
      refine ⟨fun _ => hx, ?_⟩
      cases reread payloadDepth v.value with
      | error e => exact iff_of_false (by rintro ⟨_, ⟨⟩⟩) (by rintro ⟨⟨⟩, -⟩)
      | ok w => simp [Except.bind, hx]
    · simp only [if_neg hx]
      have hrefused : ∀ e : Envelope, (reread payloadDepth v.value).bind
          (fun _ => (.error .malformed : Except Error Envelope)) ≠ .ok e := by
        intro e
        cases reread payloadDepth v.value <;> rintro ⟨⟩
      exact ⟨fun h => absurd h (not_exists.mpr hrefused),
        iff_of_false (hrefused _) fun h => hx h.2⟩

/-- A message cut inside a number, inside a character of two bytes and inside an escape, and with a
line feed or a second closing brace behind it. -/
theorem ofBytes_cut_extended_nested :
    let v : Document := ⟨.obj [("a", .arr [.int (-10), .str "é\n"]), ("b", .null)], by decide⟩
    let w := Envelope.write ⟨v⟩
    (v.value.floatFree = true ∧ v.value.depth ≤ 126 ∧ v.value.rawFree = true) ∧
      (ofBytes (w.take 16) = .error .endOfText ∧ ofBytes (w.take 20) = .error .endOfText ∧
        ofBytes (w.take 22) = .error .endOfText) ∧
      ofBytes (w ++ [0x0A]) = .ok ⟨v⟩ ∧ ¬ ∃ e, ofBytes (w ++ [closeBrace]) = .ok e := by
  intro v w
  have hf : v.value.floatFree = true := by decide
  have hd : v.value.depth ≤ 126 := by decide
  have hm : v.value.rawFree = true := by decide
  have hlength : w.length = 36 := by decide
  obtain ⟨-, hcut, hextended⟩ := ofBytes_cut_extended v hf hd
  have hshort : ∀ n, n < 36 → ofBytes (w.take n) = .error .endOfText := fun n hn => by
    refine (hcut _ (List.take_prefix n w) fun h => ?_).2 hm
    have htake := congrArg List.length h
    rw [List.length_take, hlength] at htake
    omega
  refine ⟨⟨hf, hd, hm⟩, ⟨hshort 16 (by omega), hshort 20 (by omega), hshort 22 (by omega)⟩, ?_, ?_⟩
  · exact (hextended [0x0A]).2.mpr ⟨hm, by simp⟩
  · exact fun h => absurd ((hextended [closeBrace]).1 h closeBrace (by simp)) (by decide)

/-- A message that is not taken as it is, and not with white space behind it either; and cut behind
its number it is refused for that number, where the reader has not seen the end yet. -/
theorem ofBytes_cut_extended_marked :
    let v : Document := ⟨.obj [(rawMark, .int 5), ("a", .int 0)], by decide⟩
    let w := Envelope.write ⟨v⟩
    (v.value.floatFree = true ∧ v.value.depth ≤ 126) ∧
      ((∀ b ∈ ([0x20] : Bytes), b ∈ [0x20, 0x09, 0x0A, 0x0D]) ∧ ofBytes (w ++ [0x20]) ≠ .ok ⟨v⟩) ∧
      w.take 44 <+: w ∧ w.take 44 ≠ w ∧ ofBytes (w.take 44) ≠ .error .endOfText := by
  intro v w
  have hf : v.value.floatFree = true := by decide
  have hcut : ((ofBytes (w.take 44)).map fun _ => "").mapError Error.category = .error "data" := by
    decide +kernel
  refine ⟨⟨hf, by decide⟩, ⟨by simp, ?_⟩, List.take_prefix 44 w, by decide +kernel, ?_⟩
  · rw [ofBytes_write_append hf, reread_marked_int]
    exact nofun
  · intro h
    rw [h] at hcut
    exact absurd hcut (by decide)

end MeshNode.Envelope
