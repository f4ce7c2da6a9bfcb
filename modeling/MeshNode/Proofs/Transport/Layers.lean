/-
# The layers of a request's headers

The headers of a request come in layers.  Those that the caller brings stand as they are, however
many values a name has.  The declaration of a JSON body is put behind them.  The transport has
headers of its own, of which the one that was set last under a name is the only one, and fills in
the names that have no value by then.

Names may be spelled in upper or lower case, and are the same name then.

* `valuesGiven`: the values that fields give a name, in whatever case it is spelled;
* `values_withFields`: a transport that was given fields one after another;
* `Carries` is what the first request of a call carries, and `layers_carried` that it does;
* `declared_once_iff`: a body is declared once, and as JSON, unless the caller declares it too;
  `declared_twice` is a body with two types.
-/
import MeshNode.Proofs.Transport.Call

namespace MeshNode

/-! ## 1. Fields as they are spelled -/

/-- A field as it is given: its name in any case, and its value. -/
abbrev Field := String × Bytes

/-- A name as headers hold it. -/
def canonical (name : String) : String := String.ofList (name.toList.map Char.toLower)

/-- The headers that fields make. -/
def Headers.ofFields (fields : List Field) : Headers := fields.map fun f => (canonical f.1, f.2)

/-- The values that fields give a name, in their order. -/
def valuesGiven (fields : List Field) (name : String) : List Bytes :=
  (fields.filter fun f => canonical f.1 == canonical name).map Prod.snd

theorem values_ofFields (fields : List Field) (name : String) :
    (Headers.ofFields fields).values (canonical name) = valuesGiven fields name := by
  simp only [Headers.ofFields, Headers.values, valuesGiven, List.filter_map, List.map_map]
  rfl

theorem valuesGiven_cons (f : Field) (fields : List Field) (name : String) :
    valuesGiven (f :: fields) name
      = if canonical f.1 = canonical name then f.2 :: valuesGiven fields name
        else valuesGiven fields name := by
  by_cases hname : canonical f.1 = canonical name
  · simp [valuesGiven, hname]
  · simp [valuesGiven, hname]

namespace Transport

/-- The transport that is given fields one after another. -/
def withFields (t : Transport) (fields : List Field) : Transport :=
  fields.foldl (fun t f => t.withHeader (canonical f.1) f.2) t

/-- One more field is the only value of its name, and leaves the others. -/
theorem values_withHeader (t : Transport) (f : Field) (name : String) :
    (t.withHeader (canonical f.1) f.2).headers.values (canonical name)
      = if canonical f.1 = canonical name then [f.2] else t.headers.values (canonical name) := by
  rw [withHeader, Headers.values_set]
  by_cases hname : canonical f.1 = canonical name
  · rw [if_pos hname.symm, if_pos hname]
  · rw [if_neg (Ne.symm hname), if_neg hname]

/-- **The last field of a name** is the only value of it. -/
theorem values_withFields (t : Transport) (fields : List Field) (name : String) :
    (t.withFields fields).headers.values (canonical name)
      = match (valuesGiven fields name).getLast? with
        | some value => [value]
        | none => t.headers.values (canonical name) := by
  induction fields generalizing t with
  | nil => rfl
  | cons f fields ih =>
    have hstep : t.withFields (f :: fields)
        = (t.withHeader (canonical f.1) f.2).withFields fields := rfl
    rw [hstep, ih, values_withHeader, valuesGiven_cons]
    by_cases hname : canonical f.1 = canonical name
    · rw [if_pos hname, if_pos hname, List.getLast?_cons]
      cases (valuesGiven fields name).getLast? with
      | none => rfl
      | some value => rfl
    · rw [if_neg hname, if_neg hname]

/-! ## 2. What a request carries -/

/-- The names that are left to whoever puts the request on the wire. -/
def wireNames : List String := ["host", "content-length", "transfer-encoding", "connection"]

/-- A name that is neither the declaration of a body nor left to the wire. -/
def Free (name : String) : Prop := canonical name ≠ contentType ∧ canonical name ∉ wireNames

instance (name : String) : Decidable (Free name) := inferInstanceAs (Decidable (_ ∧ _))

/-- **What the first request of a call carries**, given the fields that the transport was given one
after another, those that the caller brings, and the body. -/
structure Carries (given brought : List Field) (body : Option Json) (request : Request) :
    Prop where
  /-- What the caller brings of a name is all there is of it. -/
  caller : ∀ name, Free name → valuesGiven brought name ≠ [] →
    request.headers.values (canonical name) = valuesGiven brought name
  /-- Of any other name there is what the transport was given last. -/
  transport : ∀ name value, Free name → valuesGiven brought name = [] →
    (valuesGiven given name).getLast? = some value →
    request.headers.values (canonical name) = [value]
  /-- Of a name that nobody gave there is nothing; a client may say what it accepts. -/
  nobody : ∀ name, Free name → canonical name ≠ "accept" → valuesGiven brought name = [] →
    valuesGiven given name = [] → request.headers.values (canonical name) = []
  /-- A body is sent as its compact text. -/
  written : ∀ value, body = some value → request.body = value.write
  /-- Without a body nothing is sent, and nothing is declared beyond what was given. -/
  empty : body = none → request.body = [] ∧
    request.headers.values contentType
      = if valuesGiven brought contentType = [] then
          (valuesGiven given contentType).getLast?.toList
        else valuesGiven brought contentType

variable {target : Url} {body : Option Json} {method : Method}

theorem headersOfUrl_anonymous (h : target.hasUserInfo = false) : headersOfUrl target = [] := by
  simp [headersOfUrl, Url.credentials?, h]

/-- Where a URL brings no headers, the request has those of the caller and the declaration. -/
theorem ownValues_of_url {bytes : Option Bytes} {headers : Headers} {name : String}
    (h : (headersOfUrl target).values name = []) :
    ownValues target bytes headers name
      = headers.values name ++ (declaration bytes).values name := by
  rw [ownValues, h]
  by_cases hhas : headers.has name = true
  · rw [if_pos hhas]
  · rw [Bool.not_eq_true] at hhas
    rw [if_neg (by simp [hhas]), (Headers.has_eq_false_iff headers name).mp hhas]

/-- **What is not declared** comes from the caller, or else from the transport. -/
theorem values_of_undeclared (h : target.hasUserInfo = false) (method : Method)
    {bytes : Option Bytes} {name : String}
    (hdeclared : (declaration bytes).values (canonical name) = []) (timeout : Option Nat)
    (given brought : List Field) :
    ((withFields { timeout } given).compose method target bytes
        (Headers.ofFields brought)).headers.values (canonical name)
      = if valuesGiven brought name = [] then (valuesGiven given name).getLast?.toList
        else valuesGiven brought name := by
  have hurl : (headersOfUrl target).values (canonical name) = [] := by
    rw [headersOfUrl_anonymous h]
    rfl
  have hown : ownValues target bytes (Headers.ofFields brought) (canonical name)
      = valuesGiven brought name := by
    rw [ownValues_of_url hurl, hdeclared, List.append_nil, values_ofFields]
  have hpreset : (withFields { timeout } given).headers.values (canonical name)
      = (valuesGiven given name).getLast?.toList := by
    rw [values_withFields]
    cases (valuesGiven given name).getLast? with
    | none => rfl
    | some value => rfl
  rw [compose_values, hown, hpreset]

theorem write_json (body : Option Json) :
    (body.map Payload.json).mapM Payload.write = .ok (body.map Json.write) := by
  cases body with
  | none => rfl
  | some value => rfl

/-- The composed request carries what it should. -/
theorem carries_compose (h : target.hasUserInfo = false) (timeout : Option Nat)
    (given brought : List Field) :
    Carries given brought body ((withFields { timeout } given).compose method target
      (body.map Json.write) (Headers.ofFields brought)) where
  caller := by
    intro name hfree hbrought
    rw [values_of_undeclared h method (declaration_values hfree.1), if_neg hbrought]
  transport := by
    intro name value hfree hnone hlast
    rw [values_of_undeclared h method (declaration_values hfree.1), if_pos hnone, hlast]
    rfl
  nobody := by
    intro name hfree _ hnone hgiven
    rw [values_of_undeclared h method (declaration_values hfree.1), if_pos hnone, hgiven]
    rfl
  written := by
    rintro value rfl
    rfl
  empty := by
    rintro rfl
    have hcanonical : canonical contentType = contentType := by decide
    have hnone : (declaration none).values (canonical contentType) = [] := rfl
    have hvalues := values_of_undeclared h method hnone timeout given brought
    rw [hcanonical] at hvalues
    exact ⟨rfl, hvalues⟩

/-- **The first request of a call** by http or https is the one it begins with, if its URL can stand
in the line of a request and the sidecar does not refuse it. -/
theorem send_head?_spoken {url : String} (hread : Url.parse? url = .ok target)
    (hspoken : target.scheme = "http" ∨ target.scheme = "https") (t : Transport) (method : Method)
    (body : Option Json) (headers : Headers) :
    let request := t.compose method target (body.map Json.write) headers
    t.first? method url (body.map .json) headers = some request ∧
      ∀ sidecar, (t.send sidecar method url (body.map .json) headers).requests.head?
        = if Http.isUri request.url.text = true ∧ sidecar [request] ≠ .refused then some request
          else none := by
  intro request
  have hscheme : request.url.scheme = "http" ∨ request.url.scheme = "https" := by
    rwa [compose_url_keeps Url.scheme rfl]
  have hfirst : t.first? method url (body.map .json) headers = some request := by
    rw [first?, hread, write_json]
  refine ⟨hfirst, fun sidecar => ?_⟩
  simp only [send_head?, hfirst, Option.filter_some, arrives_iff hscheme]

/-- **The layers of a call.**  For every transport that was given fields one after another, every
URL of http or https without user name and password, every method, body and fields of the caller,
there is the request that the call begins with.  It goes to the URL by the method, carries what it
should, and arrives first, if the URL can stand in the line of a request and the sidecar does not
refuse it.  The calls that are named for a method are calls by that method. -/
theorem layers_carried {url : String} (hread : Url.parse? url = .ok target)
    (hspoken : target.scheme = "http" ∨ target.scheme = "https")
    (hanonymous : target.hasUserInfo = false) (timeout : Option Nat) (given brought : List Field)
    (method : Method) (body : Option Json) :
    let t := withFields { timeout } given
    let headers := Headers.ofFields brought
    (∃ request, t.first? method url (body.map .json) headers = some request ∧
      request.method = method ∧ request.url = target ∧ Carries given brought body request ∧
      ∀ sidecar, (t.send sidecar method url (body.map .json) headers).requests.head?
        = if Http.isUri request.url.text = true ∧ sidecar [request] ≠ .refused then some request
          else none) ∧
    ∀ sidecar payload,
      t.get sidecar url payload headers = t.send sidecar .get url (some payload) headers ∧
      t.post sidecar url payload headers = t.send sidecar .post url (some payload) headers ∧
      t.put sidecar url payload headers = t.send sidecar .put url (some payload) headers ∧
      t.delete sidecar url payload headers = t.send sidecar .delete url (some payload) headers := by
  intro t headers
  obtain ⟨hfirst, hhead⟩ := send_head?_spoken hread hspoken t method body headers
  refine ⟨⟨_, hfirst, rfl, compose_url_anonymous hanonymous,
    carries_compose hanonymous timeout given brought, hhead⟩,
    fun sidecar payload => ⟨rfl, rfl, rfl, rfl⟩⟩

/-- A caller with two values of a name that the transport was given as well, in another case. -/
theorem layers_carried_scoped :
    let url := "http://localhost:3047/alias?x=1"
    let given : List Field := [("Scope", [0x31]), ("X-Key", [0x32]), ("x-key", [0x33])]
    let brought : List Field := [("SCOPE", [0x34]), ("b", [0x35]), ("scope", [0x36])]
    let t := withFields { timeout := some 5 } given
    let target : Url :=
      { scheme := "http", host := some (.name "localhost"), port := some 3047
        path := .segments ["alias"], query := some "x=1" }
    Url.parse? url = .ok target ∧ ∃ request,
      (t.send (fun _ => .silent) .get url (some (.json (.int 7))) (Headers.ofFields brought)
        ).requests.head? = some request ∧
      request.headers.values "scope" = [[0x34], [0x36]] ∧
      request.headers.values "x-key" = [[0x33]] ∧ request.headers.values "y" = [] ∧
      request.body = Utf8.encode "7" := by
  intro url given brought t target
  have hread : Url.parse? url = .ok target := eq_ok_of_toOption (by decide +kernel)
  obtain ⟨⟨request, -, -, hurl, hcarries, hhead⟩, -⟩ := layers_carried hread (.inl rfl) rfl (some 5)
    given brought .get (some (.int 7))
  have harrives := hhead fun _ => .silent
  rw [hurl, if_pos ⟨by decide +kernel, by decide⟩] at harrives
  refine ⟨hread, request, harrives, ?_, ?_, ?_, hcarries.written (.int 7) rfl⟩
  · exact hcarries.caller "scope" (by decide) (by decide)
  · exact hcarries.transport "x-key" [0x33] (by decide) (by decide) (by decide)
  · exact hcarries.nobody "y" (by decide) (by decide) (by decide) (by decide)

/-! ## 3. How a body is declared -/

/-- The type of a JSON body. -/
def jsonType : Bytes := Utf8.encode "application/json"

/-- A URL declares no type. -/
theorem headersOfUrl_contentType (target : Url) :
    (headersOfUrl target).values contentType = [] := by
  rw [headersOfUrl]
  cases target.credentials? with
  | none => rfl
  | some credentials => rfl

/-- **How often a body is declared.**  For every transport, every URL of http or https, every
method, body and fields of the caller: the first request has the types that the caller gives, and
behind them that of JSON.  So the body is declared once, and as JSON, exactly if the caller
gives it no type, whatever the transport's own headers are. -/
theorem declared_once_iff {url : String} (hread : Url.parse? url = .ok target)
    (hspoken : target.scheme = "http" ∨ target.scheme = "https") (t : Transport)
    (brought : List Field) (method : Method) (value : Json) :
    let headers := Headers.ofFields brought
    ∃ request, t.first? method url (some (.json value)) headers = some request ∧
      (∀ sidecar, (t.send sidecar method url (some (.json value)) headers).requests.head?
        = if Http.isUri request.url.text = true ∧ sidecar [request] ≠ .refused then some request
          else none) ∧
      request.body = value.write ∧
      request.headers.values contentType = valuesGiven brought contentType ++ [jsonType] ∧
      (request.headers.values contentType = [jsonType] ↔ valuesGiven brought contentType = []) := by
  intro headers
  obtain ⟨hfirst, hhead⟩ := send_head?_spoken hread hspoken t method (some value) headers
  have hcanonical : canonical contentType = contentType := by decide
  have hcaller : headers.values contentType = valuesGiven brought contentType := by
    have hvalues := values_ofFields brought contentType
    rwa [hcanonical] at hvalues
  have hown : ownValues target (some value.write) headers contentType
      = valuesGiven brought contentType ++ [jsonType] := by
    rw [ownValues_of_url (headersOfUrl_contentType target), hcaller]
    rfl
  have htypes : (t.compose method target (some value.write) headers).headers.values contentType
      = valuesGiven brought contentType ++ [jsonType] := by
    rw [compose_values, hown, if_neg (by simp)]
  refine ⟨_, hfirst, hhead, rfl, htypes, ?_⟩
  rw [Option.map_some, htypes]
  simp

/-- A transport with a type of its own, and a URL with a user name: the body is declared once. -/
theorem declared_once_anyway :
    let url := "https://user@localhost/x"
    let t : Transport := { headers := [(contentType, [0x31]), (contentType, [0x32])] }
    let target : Url :=
      { scheme := "https", username := "user", host := some (.name "localhost")
        path := .segments ["x"] }
    Url.parse? url = .ok target ∧ ∃ request,
      t.first? .delete url (some (.json .null)) (Headers.ofFields [("Accept", [0x33])])
        = some request ∧
      request.headers.values contentType = [jsonType] := by
  intro url t target
  have hread : Url.parse? url = .ok target := eq_ok_of_toOption (by decide +kernel)
  obtain ⟨request, hfirst, -, -, -, honce⟩ :=
    declared_once_iff hread (.inr rfl) t [("Accept", [0x33])] .delete .null
  exact ⟨hread, request, hfirst, honce.mpr (by decide)⟩

/-- **A body with two types**: that of the caller and that of JSON. -/
theorem declared_twice :
    let sent := Transport.send {} (fun _ => .silent) .post "http://localhost:3047/orders"
      (some (.json (.int 1))) (Headers.ofFields [("Content-Type", Utf8.encode "text/plain")])
    sent.requests.map (fun request => (request.headers.values contentType, request.body))
      = [([Utf8.encode "text/plain", jsonType], Utf8.encode "1")] := by
  decide +kernel

end Transport
end MeshNode
