/-
# Operations on aliases

What an operation on an alias sends, and what it makes of what comes back.  All four of them are
one: they differ in the method, in the arguments that the body holds, and in what they read from a
response.  So each is held against the same description, with its own values.

* `Told`: what is made of a response, `HoldsAlias`: what the body with an alias is;
* `CarriedOut` and `Conforms`: an operation behind a URL that was read, and behind any text;
* `perform_conforms`: the one argument for all of them;
* `operations_conform`: the four operations.
-/
import Mathlib
import MeshNode.Proofs.Alias.Body
import MeshNode.Proofs.Transport.Call
import MeshNode.Proofs.Url.Behind

namespace MeshNode.AliasClient

open Json

/-! ## 1. What an operation should do -/

/-- What is made of a response `r`: only one with a code from 200 to 299 is read, and each way to
fail says what came back. -/
structure Told {α : Type} (operation : AliasOperation) (reader : Reader α) (r : Response)
    (result : Except AliasError α) : Prop where
  rejected : result = .error (.status operation r.status r.text) ↔
    ¬ (200 ≤ r.status.code ∧ r.status.code < 300)
  unread : (∃ cause, result = .error (.decode operation cause)) ↔
    (200 ≤ r.status.code ∧ r.status.code < 300) ∧ ∀ a, fromBytes reader r.body ≠ .ok a
  read : ∀ a, result = .ok a ↔
    (200 ≤ r.status.code ∧ r.status.code < 300) ∧ fromBytes reader r.body = .ok a

/-- A body with an alias, its target, and whether to carry the operation out.  A member of any name
may be found in the annotations of an alias, so a reader of values is only promised what it reads if
they do not begin with the mark. -/
def HoldsAlias (target : String) (value : Alias) (dry : Bool) (body : Bytes) : Prop :=
  Holds [("alias", fun t => fromBytes Alias.reader t = .ok value), ("target", StringText target),
    ("dry", (· = write (.bool dry)))] body ∧
  (value.toJson.rawFree = true → ∃ w, fromBytes Alias.reader w.write = .ok value ∧
    Json.ofBytes body = .ok (.obj [("alias", w), ("dry", .bool dry), ("target", .str target)]))

/-- What is known of the request that an operation begins with, and of what comes of it.  User name
and password of the target become a header. -/
structure CarriedOut {α : Type} (c : AliasClient) (sidecar : Sidecar) (url scope : String)
    (operation : AliasOperation) (method : Method) (arguments : Bytes → Prop) (reader : Reader α)
    (attempt : Attempt AliasError α) (target : Url) (request : Request) : Prop where
  asked : request.method = method
  addressed : request.url.withoutUserInfo = target.withoutUserInfo
  anonymous : target.hasUserInfo = false → request.url = target
  inScope : request.headers.values "scope" = [Utf8.encode scope]
  filled : arguments request.body
  first : attempt.requests.head?
    = if Http.isUri request.url.text = true ∧ sidecar [request] ≠ .refused then some request
      else none
  answered : ∀ r, (c.transport.chainFrom sidecar request).1 = .ok r →
    Told operation reader r attempt.result
  failed : ∀ e, (c.transport.chainFrom sidecar request).1 = .error e →
    attempt.result = .error (.transport operation (.ofExchange url e))

/-- What an operation does with a client for the API at `url`.  It sends nothing in a scope that is
no value of a header, nor to a text that is no URL. -/
structure Conforms {α : Type} (c : AliasClient) (sidecar : Sidecar) (url scope : String)
    (operation : AliasOperation) (name : String) (method : Method) (arguments : Bytes → Prop)
    (reader : Reader α) (attempt : Attempt AliasError α) : Prop where
  named : operation.text = name
  refused : Http.isFieldValue (Utf8.encode scope) = false →
    attempt.result = .error (.invalidScope scope) ∧ attempt.requests = []
  carriedOut : Http.isFieldValue (Utf8.encode scope) = true →
    ∀ target, Url.parse? url = .ok target → ∃ request,
      CarriedOut c sidecar url scope operation method arguments reader attempt target request
  unsent : Http.isFieldValue (Utf8.encode scope) = true → ∀ e, Url.parse? url = .error e →
    attempt.result = .error (.transport operation (.invalidUrl url e.message)) ∧
      attempt.requests = []

/-! ## 2. The URL -/

variable {c : AliasClient} {trimmed : String} {n : Nat}

/-- A text without the slashes at its end. -/
theorem trimSlashes_eq {s : String} (hs : s.toList = trimmed.toList ++ List.replicate n '/')
    (hend : trimmed.toList.getLast? ≠ some '/') : trimSlashes s = trimmed := by
  have hslashes : ∀ c ∈ List.replicate n '/', (c == '/') = true := fun c hc =>
    beq_iff_eq.mpr (List.eq_of_mem_replicate hc)
  have hkept : ∀ c ∈ trimmed.toList.reverse.head?, (c == '/') = false := by
    intro c hc
    rw [List.head?_reverse] at hc
    exact beq_eq_false_iff_ne.mpr fun heq => hend (heq ▸ hc)
  rw [trimSlashes, hs, List.reverse_append, List.reverse_replicate,
    (Text.span_run hslashes hkept).2, List.reverse_reverse, String.ofList_toList]

theorem normalSegment_alias : Url.NormalSegment "alias".toList where
  unreserved := by simp [Url.Percent.Unreserved, Url.Percent.path, Url.Percent.fragment,
    Url.Percent.controls]
  noSlash := by simp [Url.isSlash]
  notDot := by decide
  notDoubleDot := by decide

theorem alias_toList (trimmed : String) :
    (trimmed ++ "/alias").toList = trimmed.toList ++ '/' :: "alias".toList := by
  rw [String.toList_append]
  rfl

/-! ## 3. One operation -/

variable {α : Type} {sidecar : Sidecar} {operation : AliasOperation} {scope : String} {body : Json}
  {reader : Reader α}

theorem decode_told (operation : AliasOperation) (reader : Reader α) (r : Response) :
    Told operation reader r (decode operation reader r) := by
  have hsuccess : r.isSuccess = true ↔ 200 ≤ r.status.code ∧ r.status.code < 300 := by
    simp [Response.isSuccess, Status.isSuccess]
  rw [decode]
  by_cases h : r.isSuccess = true
  · have hcode := hsuccess.mp h
    rw [if_pos h]
    cases hread : fromBytes reader r.body with
    | error e =>
      constructor
      · exact iff_of_false (by rintro ⟨⟩) (by simp [hcode])
      · exact iff_of_true ⟨e, rfl⟩ ⟨hcode, by simp [hread]⟩
      · exact fun a => iff_of_false (by rintro ⟨⟩) (by simp [hread])
    | ok a =>
      constructor
      · exact iff_of_false (by rintro ⟨⟩) (by simp [hcode])
      · exact iff_of_false (by rintro ⟨cause, ⟨⟩⟩) fun h => h.2 a hread
      · simp [hread, hcode, Except.mapError]
  · have hcode : ¬ (200 ≤ r.status.code ∧ r.status.code < 300) := fun hc => h (hsuccess.mpr hc)
    rw [if_neg h]
    constructor
    · exact iff_of_true rfl hcode
    · exact iff_of_false (by rintro ⟨cause, ⟨⟩⟩) fun h => hcode h.1
    · exact fun a => iff_of_false (by rintro ⟨⟩) fun h => hcode h.1

/-- In a scope that is no value of a header nothing is sent. -/
theorem perform_refused (h : Http.isFieldValue (Utf8.encode scope) = false) :
    c.perform sidecar operation scope body reader = { result := .error (.invalidScope scope) } := by
  rw [perform, if_neg (by simp [h])]

/-- The request that an operation begins with. -/
def first (c : AliasClient) (operation : AliasOperation) (scope : String) (body : Json)
    (target : Url) : Request :=
  c.transport.compose operation.method target (some body.write) [(scopeHeader, Utf8.encode scope)]

/-- **An operation is a chain**, and its last response is decoded. -/
theorem perform_eq (sidecar : Sidecar) (operation : AliasOperation) (body : Json)
    (reader : Reader α) {target : Url} (hscope : Http.isFieldValue (Utf8.encode scope) = true)
    (htarget : Url.parse? c.url = .ok target) :
    let chain := c.transport.chainFrom sidecar (c.first operation scope body target)
    (c.perform sidecar operation scope body reader).result
        = ((chain.1.mapError (.ofExchange c.url)).mapError (.transport operation)).bind
          (decode operation reader) ∧
      (c.perform sidecar operation scope body reader).exchanges = chain.2 := by
  have hbody : (some (Payload.json body)).mapM Payload.write = .ok (some body.write) := rfl
  rw [perform, if_pos hscope, Transport.send_eq htarget hbody]
  exact ⟨rfl, rfl⟩

/-- **What is known of the first request**, and of what comes of it. -/
theorem perform_carriedOut (sidecar : Sidecar) (reader : Reader α) {arguments : Bytes → Prop}
    {target : Url} (hscope : Http.isFieldValue (Utf8.encode scope) = true)
    (htarget : Url.parse? c.url = .ok target)
    (hspoken : target.scheme = "http" ∨ target.scheme = "https")
    (harguments : arguments body.write) :
    CarriedOut c sidecar c.url scope operation operation.method arguments reader
      (c.perform sidecar operation scope body reader) target
      (c.first operation scope body target) := by
  obtain ⟨hresult, hexchanges⟩ := perform_eq sidecar operation body reader hscope htarget
  constructor
  · rfl
  · exact Transport.compose_url_keeps Url.withoutUserInfo rfl
  · exact fun hnone => Transport.compose_url_anonymous hnone
  · exact Transport.compose_header (by decide)
  · exact harguments
  · have hscheme : (c.first operation scope body target).url.scheme = "http" ∨
        (c.first operation scope body target).url.scheme = "https" := by
      rwa [first, Transport.compose_url_keeps Url.scheme rfl]
    simp only [Attempt.requests, hexchanges, List.head?_map, Transport.chainFrom_head?,
      ← Transport.arrives_iff hscheme]
    split <;> rfl
  · intro r hr
    rw [hresult, hr]
    exact decode_told operation reader r
  · intro e he
    rw [hresult, he]
    rfl

/-- **Every operation conforms**, if it has the method and the arguments of its description. -/
theorem perform_conforms {name : String} {method : Method} {arguments : Bytes → Prop} {u : Url}
    (hbase : c.baseUrl.toList = trimmed.toList ++ List.replicate n '/')
    (hend : trimmed.toList.getLast? ≠ some '/') (hread : Url.parse? c.baseUrl = .ok u)
    (hspoken : u.scheme = "http" ∨ u.scheme = "https") (hname : operation.text = name)
    (hmethod : operation.method = method) (harguments : arguments body.write) :
    Conforms c sidecar (trimmed ++ "/alias") scope operation name method arguments reader
      (c.perform sidecar operation scope body reader) := by
  have hurl : c.url = trimmed ++ "/alias" := by rw [url, trimSlashes_eq hbase hend]
  constructor
  · exact hname
  · intro hscope
    rw [perform_refused hscope]
    exact ⟨rfl, rfl⟩
  · intro hscope target htarget
    have hsame : target.scheme = u.scheme :=
      Url.scheme_behind hbase (alias_toList trimmed) hread normalSegment_alias htarget
    rw [← hurl] at htarget ⊢
    rw [← hmethod]
    exact ⟨_, perform_carriedOut sidecar reader hscope htarget (hsame ▸ hspoken) harguments⟩
  · intro hscope e he
    rw [perform, if_pos hscope, Transport.send, hurl, he]
    exact ⟨rfl, rfl⟩

/-! ## 4. All operations -/

theorem holdsAlias_aliasBody (target : String) (value : Alias) (dry : Bool) :
    HoldsAlias target value dry (aliasBody value target dry).write :=
  ⟨holds_aliasBody value target dry,
    fun hmark => ⟨_, Alias.fromBytes_arranged value, ofBytes_aliasBody hmark target dry⟩⟩

/-- **The operations on aliases.**  For every base URL that requests can be sent to, with any
number of slashes at its end: each operation asks by its method, at the URL that the base with
`/alias` behind it spells, in the scope it was given and no other, with its arguments and nothing
beside them, and tells the answer for what it is.  That URL is the base URL with `alias` at the end
of its path, unless white space stands at the end of the base. -/
theorem operations_conform {c : AliasClient} {u : Url}
    (hbase : c.baseUrl.toList = trimmed.toList ++ List.replicate n '/')
    (hend : trimmed.toList.getLast? ≠ some '/') (hread : Url.parse? c.baseUrl = .ok u)
    (hspoken : u.scheme = "http" ∨ u.scheme = "https") (hquery : u.query = none)
    (hfragment : u.fragment = none) (sidecar : Sidecar) (scope : String) :
    ((∀ ch ∈ c.baseUrl.toList.getLast?, 0x20 < ch.toNat) → ∃ front,
      Url.parse? (trimmed ++ "/alias") = .ok { u with path := .segments (front ++ ["alias"]) }) ∧
    (∀ key, Conforms c sidecar (trimmed ++ "/alias") scope .get "Get" .get
      (fun body => Json.ofBytes body = .ok (.obj [("key", .str key)])) Alias.reader
      (c.get sidecar scope key)) ∧
    (∀ target value dry, Conforms c sidecar (trimmed ++ "/alias") scope .create "Create" .post
      (HoldsAlias target value dry) Changelog.reader (c.create sidecar scope target value dry)) ∧
    (∀ target value dry, Conforms c sidecar (trimmed ++ "/alias") scope .update "Update" .put
      (HoldsAlias target value dry) Changelog.reader (c.update sidecar scope target value dry)) ∧
    (∀ key dry, Conforms c sidecar (trimmed ++ "/alias") scope .delete "Delete" .delete
      (fun body => Json.ofBytes body = .ok (.obj [("dry", .bool dry), ("key", .str key)]))
      Changelog.reader (c.delete sidecar scope key dry)) := by
  have hweb : Url.isWeb u.scheme = true := Url.isWeb_of_spoken hspoken
  refine ⟨?_, ?_, ?_, ?_, ?_⟩
  · exact Url.parse_behind hbase (alias_toList trimmed) hread normalSegment_alias hweb hquery
      hfragment
  · intro key
    exact perform_conforms hbase hend hread hspoken rfl rfl (ofBytes_keyBody key)
  · intro target value dry
    exact perform_conforms hbase hend hread hspoken rfl rfl (holdsAlias_aliasBody target value dry)
  · intro target value dry
    exact perform_conforms hbase hend hread hspoken rfl rfl (holdsAlias_aliasBody target value dry)
  · intro key dry
    exact perform_conforms hbase hend hread hspoken rfl rfl (ofBytes_deletionBody key dry)

/-- An update behind a base URL with slashes at its end, by a transport with a scope of its own. -/
theorem update_rejected :
    let c : AliasClient := ⟨"HTTP://h:80/v1//", ⟨none, [("scope", Utf8.encode "other")]⟩⟩
    let value : Alias := ⟨⟨"a", "p", "", ⟨[("k", "v")], by decide⟩⟩, "r"⟩
    let update := c.update (fun _ => .complete ⟨⟨409⟩, [], Utf8.encode "taken"⟩) "é.b" "t" value true
    update.result = .error (.status .update ⟨409⟩ "taken") ∧
      ∃ request, update.requests.head? = some request ∧ request.method = .put ∧
        request.headers.values "scope" = [Utf8.encode "é.b"] := by
  intro c value update
  let u : Url := { scheme := "http", host := some (.name "h"), path := .segments ["v1", "", ""] }
  let target : Url := { u with path := .segments ["v1", "alias"] }
  have hread : Url.parse? c.baseUrl = .ok u := by
    unfold c u
    cbv
  have htarget : Url.parse? ("HTTP://h:80/v1" ++ "/alias") = .ok target := by
    unfold target u
    cbv
  obtain ⟨-, -, -, hupdate, -⟩ := @operations_conform "HTTP://h:80/v1" 2 c u (by decide)
    (by decide) hread (.inl rfl) rfl rfl
    (fun _ => .complete ⟨⟨409⟩, [], Utf8.encode "taken"⟩) "é.b"
  obtain ⟨request, hdone⟩ := (hupdate "t" value true).carriedOut (by decide) target htarget
  have hsent : Http.isUri request.url.text = true := by
    rw [hdone.anonymous rfl]
    decide +kernel
  have hanswer : (c.transport.chainFrom (fun _ => .complete ⟨⟨409⟩, [], Utf8.encode "taken"⟩)
      request).1 = .ok ⟨⟨409⟩, [], Utf8.encode "taken"⟩ := by
    refine ((Transport.chainFrom_verbatim rfl ?_).mpr ⟨?_, rfl⟩).2
    · rw [hdone.asked]
      decide
    · exact (Request.obstacle?_eq_none (.inl (by rw [hdone.anonymous rfl]))).mpr hsent
  have hrejected := (hdone.answered _ hanswer).rejected.mpr (by decide)
  have hfirst := hdone.first
  rw [if_pos ⟨hsent, by rintro ⟨⟩⟩] at hfirst
  refine ⟨?_, request, hfirst, hdone.asked, hdone.inScope⟩
  rw [hrejected]
  rfl

end MeshNode.AliasClient
