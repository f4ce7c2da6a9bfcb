/-
# URL errors

Why a text is no URL.
-/

namespace MeshNode.Url

/-- Why a text is no URL. -/
inductive Error
  | relativeWithoutBase
  | emptyHost
  | invalidPort
  | invalidIPv6
  | invalidIPv4
  | invalidDomain
  | invalidDomainCharacter
  deriving DecidableEq, Repr

/-- The text of an error. -/
def Error.message : Error → String
  | .relativeWithoutBase => "relative URL without a base"
  | .emptyHost => "empty host"
  | .invalidPort => "invalid port number"
  | .invalidIPv6 => "invalid IPv6 address"
  | .invalidIPv4 => "invalid IPv4 address"
  | .invalidDomain => "invalid international domain name"
  | .invalidDomainCharacter => "invalid domain character"

end MeshNode.Url
