/-
# The alias client

Talks to the alias API of the controller.  Every call names its scope in a header, and a call
that would change something can be made dry, so that the controller tells the changes without
making them.

* `get`, `create`, `update`, `delete` are the calls;
* `decode` is what a call makes of a response;
* `AliasError` is what can go wrong.
-/
import MeshNode.Alias.Basic
import MeshNode.Transport.Basic

namespace MeshNode

/-- What is done with an alias. -/
inductive AliasOperation
  | get
  | create
  | update
  | delete
  deriving DecidableEq, Repr

namespace AliasOperation

/-- The name of an operation in messages. -/
def text : AliasOperation → String
  | .get => "Get"
  | .create => "Create"
  | .update => "Update"
  | .delete => "Delete"

/-- The method of an operation. -/
def method : AliasOperation → Method
  | .get => .get
  | .create => .post
  | .update => .put
  | .delete => .delete

end AliasOperation

/-- Why an operation failed. -/
inductive AliasError
  | transport (operation : AliasOperation) (cause : TransportError)
  | status (operation : AliasOperation) (answer : Status) (body : String)
  | decode (operation : AliasOperation) (cause : Json.Error)
  | invalidScope (scope : String)

namespace AliasError

/-- The text of an error. -/
def message : AliasError → String
  | .transport operation cause =>
    "Error while sending a " ++ operation.text ++ " Alias request: " ++ cause.message
  | .status operation answer body =>
    operation.text ++ " Alias request rejected with HTTP " ++ answer.text ++ ": " ++ body
  | .decode operation cause =>
    "Failed to decode " ++ operation.text ++ " Alias response: " ++ cause.message
  | .invalidScope scope => "Invalid scope '" ++ scope ++ "'"

/-- The operation that failed, if it was begun. -/
def operation? : AliasError → Option AliasOperation
  | .transport operation _ | .status operation _ _ | .decode operation _ => some operation
  | .invalidScope _ => none

end AliasError

/-- A client for the controller at a URL. -/
structure AliasClient where
  baseUrl : String
  transport : Transport := {}
  deriving DecidableEq, Repr

namespace AliasClient

/-! ## 1. What is sent -/

/-- The header that names a scope. -/
def scopeHeader : String := "scope"

/-- A text without slashes at its end. -/
def trimSlashes (s : String) : String :=
  String.ofList (s.toList.reverse.dropWhile (· == '/')).reverse

/-- The URL of the alias API. -/
def url (c : AliasClient) : String := trimSlashes c.baseUrl ++ "/alias"

/-- The body of a query for an alias. -/
def keyBody (key : String) : Json := .obj [("key", .str key)]

/-- The body of a deletion. -/
def deletionBody (key : String) (dry : Bool) : Json := .obj [("key", .str key), ("dry", .bool dry)]

/-- The body of a creation or an update. -/
def aliasBody (value : Alias) (target : String) (dry : Bool) : Json :=
  .obj [("alias", value.toJson), ("target", .str target), ("dry", .bool dry)]

/-! ## 2. What comes back -/

/-- What an operation makes of a response: only a success is read. -/
def decode {α : Type} (operation : AliasOperation) (reader : Json.Reader α) (r : Response) :
    Except AliasError α :=
  if r.isSuccess then (Json.fromBytes reader r.body).mapError (.decode operation)
  else .error (.status operation r.status r.text)

/-- Carries out an operation in a scope. -/
def perform {α : Type} (c : AliasClient) (sidecar : Sidecar) (operation : AliasOperation)
    (scope : String) (body : Json) (reader : Json.Reader α) : Attempt AliasError α :=
  if Http.isFieldValue (Utf8.encode scope) then
    let sent := c.transport.send sidecar operation.method c.url (some (.json body))
      [(scopeHeader, Utf8.encode scope)]
    { result := (sent.result.mapError (.transport operation)).bind (decode operation reader)
      exchanges := sent.exchanges
      logs := sent.logs }
  else { result := .error (.invalidScope scope) }

/-! ## 3. The operations -/

/-- The alias under a key. -/
def get (c : AliasClient) (sidecar : Sidecar) (scope key : String) : Attempt AliasError Alias :=
  c.perform sidecar .get scope (keyBody key) Alias.reader

/-- Creates an alias that points to a target. -/
def create (c : AliasClient) (sidecar : Sidecar) (scope target : String) (value : Alias)
    (dry : Bool) : Attempt AliasError Changelog :=
  c.perform sidecar .create scope (aliasBody value target dry) Changelog.reader

/-- Replaces an alias by one that points to a target. -/
def update (c : AliasClient) (sidecar : Sidecar) (scope target : String) (value : Alias)
    (dry : Bool) : Attempt AliasError Changelog :=
  c.perform sidecar .update scope (aliasBody value target dry) Changelog.reader

/-- Deletes the alias under a key. -/
def delete (c : AliasClient) (sidecar : Sidecar) (scope key : String) (dry : Bool) :
    Attempt AliasError Changelog :=
  c.perform sidecar .delete scope (deletionBody key dry) Changelog.reader

end AliasClient
end MeshNode
