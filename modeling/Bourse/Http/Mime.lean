import Bourse.Http.Request
/-!
# Media types

A media type is `type/subtype` followed by parameters `; name=value`, where type, subtype,
names and unquoted values are tokens and a value may also be a quoted string. Blanks are
allowed only at the start of a parameter and after a quoted value. Within the subtype, the
last `+` that is not its first character starts a suffix (`application/problem+json` has
the suffix `json`). Names compare without regard to case.

`isJson` accepts the media types of JSON bodies: type `application` with subtype `json` or
suffix `json`.
-/

namespace Bourse

namespace Http

/-- Where parameter reading stands. -/
inductive ParamState where
  | nameStart
  | name
  | valueStart
  | value
  | quotedStart
  | quoted
  | afterQuote
  deriving DecidableEq, Repr

/-- Whether a character may appear in a quoted parameter value. -/
def quotedChar (c : Char) : Bool := c.toNat > 31 && c.toNat != 127

/-- Reads parameters; tells whether they are well formed. -/
def paramsValid : ParamState → List Char → Bool
  | s, [] => s != .name && s != .quotedStart && s != .quoted
  | .nameStart, c :: rest =>
    if c = ' ' then paramsValid .nameStart rest
    else if tokenChar c then paramsValid .name rest
    else false
  | .name, c :: rest =>
    if tokenChar c then paramsValid .name rest
    else if c = '=' then paramsValid .valueStart rest
    else false
  | .valueStart, c :: rest =>
    if c = '"' then paramsValid .quotedStart rest
    else if tokenChar c then paramsValid .value rest
    else false
  | .value, c :: rest =>
    if tokenChar c then paramsValid .value rest
    else if c = ';' then paramsValid .nameStart rest
    else false
  | .quotedStart, c :: rest => if quotedChar c then paramsValid .quoted rest else false
  | .quoted, c :: rest =>
    if c = '"' then paramsValid .afterQuote rest
    else if quotedChar c then paramsValid .quoted rest
    else false
  | .afterQuote, c :: rest =>
    if c = ';' then paramsValid .nameStart rest
    else if c = ' ' then paramsValid .afterQuote rest
    else false

/-- Reads a subtype from its second character on: the characters read, the suffix when a
`+` was seen, and whether the rest (parameters) is well formed. -/
def subtypeRest :
    List Char → List Char → Option (List Char) → Option (List Char × Option (List Char))
  | [], sub, suffix => some (sub, suffix)
  | c :: rest, sub, suffix =>
    if c = '+' then subtypeRest rest (sub ++ [c]) (some [])
    else if c = ';' then
      if paramsValid .nameStart rest then some (sub, suffix) else none
    else if tokenChar c then subtypeRest rest (sub ++ [c]) (suffix.map (· ++ [c]))
    else none

/-- The type, subtype (up to a suffix) and suffix of a media type, in lowercase. -/
def mediaType (text : String) : Option (String × String × Option String) := do
  let cs := text.toList.map Char.toLower
  let i ← cs.findIdx? (fun c => !tokenChar c)
  if i = 0 ∨ cs[i]? ≠ some '/' then none
  let top := cs.take i
  let after := cs.drop (i + 1)
  let (sub, suffix) ← match after with
    | [] => some ([], none)
    | c :: rest =>
      if tokenChar c then subtypeRest rest [c] none else none
  let base := match suffix with
    | some s => sub.take (sub.length - s.length - 1)
    | none => sub
  return (String.ofList top, String.ofList base, suffix.map String.ofList)

/-- Whether a media type is that of a JSON body. -/
def isJson (text : String) : Bool :=
  match mediaType text with
  | some (top, sub, suffix) => top == "application" && (sub == "json" || suffix == some "json")
  | none => false

end Http

end Bourse
