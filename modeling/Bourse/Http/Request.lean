import Bourse.Http.Uri
/-!
# Requests

A request has a method, a target, header fields and a body. `Request.build` assembles one
from its parts and refuses, in this order, a method that is not a token, a target that does
not read (`Uri.parse`), a header name that is not a token, and a header value holding a
control character other than tab. Header names are case-insensitive and kept in lowercase;
a lookup finds the first field of a name.
-/

namespace Bourse

namespace Http

/-- Whether a character may appear in a token (a method or a header name). -/
def tokenChar (c : Char) : Bool := c.isAlphanum || "!#$%&'*+-.^_`|~".contains c

/-- Whether a text is a token. -/
def isToken (s : String) : Bool := !s.isEmpty && s.toList.all tokenChar

/-- Whether a text may be a header value: no control characters but tab. -/
def validValue (s : String) : Bool :=
  s.toList.all fun c => c = '\t' ∨ (c.toNat ≥ 32 ∧ c.toNat ≠ 127)

/-- A request. -/
structure Request where
  method : String
  uri : Uri
  headers : List (String × String)
  body : String
  deriving DecidableEq, Repr

/-- Why a request could not be assembled. -/
inductive BuildError where
  | method
  | uri (e : UriError)
  | headerName
  | headerValue
  deriving DecidableEq, Repr

/-- The message of a refusal. -/
def BuildError.message : BuildError → String
  | .method => "invalid HTTP method"
  | .uri e => e.message
  | .headerName => "invalid HTTP header name"
  | .headerValue => "failed to parse header value"

/-- Checks header fields in order; names are lowered. -/
def checkHeaders : List (String × String) → Except BuildError (List (String × String))
  | [] => .ok []
  | (name, value) :: rest =>
    if !isToken name then .error .headerName
    else if !validValue value then .error .headerValue
    else do return (name.toLower, value) :: (← checkHeaders rest)

/-- Assembles a request from its parts. -/
def Request.build (method target : String) (headers : List (String × String)) (body : String) :
    Except BuildError Request := do
  if !isToken method then throw .method
  let uri ← (Uri.parse target).mapError .uri
  let headers ← checkHeaders headers
  return { method, uri, headers, body }

/-- The first value of a header. -/
def Request.header? (r : Request) (name : String) : Option String :=
  (r.headers.find? (·.1 == name)).map (·.2)

end Http

end Bourse
