/-!
# Request targets

A request target is read from its text the way HTTP clients and servers commonly accept it:

* `/path?query#fragment` (origin form) and `*`;
* `scheme://authority/path?query` (absolute form);
* a bare `authority` (authority form), which has the empty path.

The path admits every printable ASCII character except space, `<`, `>` and backquote; a `?`
starts the query, which admits the same characters except `"` and with `?` and backquote
added. Both admit every character beyond ASCII, and neither admits DEL. A `#` ends the
target. Every refusal names its reason: `empty string`, `uri too long`, `invalid uri character`,
`invalid authority`, `invalid format` or `scheme too long`.
-/

namespace Bourse

namespace Http

/-- A request target: the path used for routing and the query, when there is one. -/
structure Uri where
  path : String
  query : Option String
  deriving DecidableEq, Repr

/-- Why a target text was refused. -/
inductive UriError where
  | empty
  | tooLong
  | invalidChar
  | invalidAuthority
  | invalidFormat
  | schemeTooLong
  deriving DecidableEq, Repr

/-- The message of a refusal. -/
def UriError.message : UriError → String
  | .empty => "empty string"
  | .tooLong => "uri too long"
  | .invalidChar => "invalid uri character"
  | .invalidAuthority => "invalid authority"
  | .invalidFormat => "invalid format"
  | .schemeTooLong => "scheme too long"

/-- Whether a character may stand unescaped in a path. -/
def pathChar (c : Char) : Bool :=
  let n := c.toNat
  n == 0x21 || (0x24 ≤ n && n ≤ 0x3B) || n == 0x3D || (0x40 ≤ n && n ≤ 0x5F) ||
    (0x61 ≤ n && n ≤ 0x7A) || n == 0x7C || n == 0x7E || n ≥ 0x80 || c == '"' || c == '{' ||
    c == '}'

/-- Whether a character may stand unescaped in a query. -/
def queryChar (c : Char) : Bool :=
  let n := c.toNat
  n == 0x21 || (0x24 ≤ n && n ≤ 0x3B) || n == 0x3D || (0x3F ≤ n && n ≤ 0x7E) || n ≥ 0x80

/-- Reads the query part, up to a fragment. -/
def readQuery : List Char → Except UriError (List Char)
  | [] => .ok []
  | '#' :: _ => .ok []
  | c :: rest =>
    if queryChar c then (readQuery rest).map (c :: ·) else .error .invalidChar

/-- Reads a path and query text: the path and the query, when there is one. -/
def readPathQuery : List Char → Except UriError (List Char × Option (List Char))
  | [] => .ok ([], none)
  | '?' :: rest => do return ([], some (← readQuery rest))
  | '#' :: _ => .ok ([], none)
  | c :: rest =>
    if pathChar c then do
      let (p, q) ← readPathQuery rest
      return (c :: p, q)
    else .error .invalidChar

/-- The target of a path and query text; an empty path reads as `/` after a scheme. -/
def pathQuery (cs : List Char) (absolute : Bool) : Except UriError Uri := do
  let (p, q) ← readPathQuery cs
  let path := if p.isEmpty && absolute then "/" else String.ofList p
  return { path, query := q.map String.ofList }

/-- Whether a character is allowed in an authority (`%` aside). -/
def authorityChar (c : Char) : Bool :=
  c.isAlphanum || "-._~!$&'()*+,;=:/?#[]@".contains c

/-- The state of reading an authority: colons since the host began, brackets seen, whether a
`%` is pending, and the position of the last `@`. -/
structure AuthorityScan where
  colons : Nat := 0
  opened : Bool := false
  closed : Bool := false
  percent : Bool := false
  atSign : Option Nat := none

/-- Scans an authority from position `i`; returns where it ends. -/
def scanAuthority (s : AuthorityScan) (i : Nat) : List Char → Except UriError (Nat × AuthorityScan)
  | [] => .ok (i, s)
  | c :: rest =>
    if c = '/' ∨ c = '?' ∨ c = '#' then .ok (i, s)
    else if c = ':' then
      if s.colons ≥ 8 then .error .invalidAuthority
      else scanAuthority { s with colons := s.colons + 1 } (i + 1) rest
    else if c = '[' then
      if s.percent || s.opened then .error .invalidAuthority
      else scanAuthority { s with opened := true } (i + 1) rest
    else if c = ']' then
      if !s.opened || s.closed then .error .invalidAuthority
      else scanAuthority { s with closed := true, colons := 0, percent := false } (i + 1) rest
    else if c = '@' then
      scanAuthority { s with atSign := some i, colons := 0, percent := false } (i + 1) rest
    else if c = '%' then scanAuthority { s with percent := true } (i + 1) rest
    else if authorityChar c then scanAuthority s (i + 1) rest
    else .error .invalidChar

/-- The length of the authority at the start of a text. -/
def authorityEnd (cs : List Char) : Except UriError Nat := do
  let (stop, s) ← scanAuthority {} 0 cs
  if s.opened != s.closed then .error .invalidAuthority
  else if s.colons > 1 then .error .invalidAuthority
  else if stop > 0 && s.atSign = some (stop - 1) then .error .invalidAuthority
  else if s.percent then .error .invalidAuthority
  else .ok stop

/-- Whether a character may appear in a scheme name: ASCII letters and digits, `+`, `-`, `.`
and `~`, in any position. -/
def schemeChar (c : Char) : Bool := c.isAlphanum || c = '+' || c = '-' || c = '.' || c = '~'

/-- The length of a scheme name followed by `://`, when the text starts with one. -/
def schemeEnd (cs : List Char) : Except UriError (Option Nat) :=
  let lower := cs.map Char.toLower
  if lower.take 7 = "http://".toList then .ok (some 4)
  else if lower.take 8 = "https://".toList then .ok (some 5)
  else if cs.length ≤ 3 then .ok none
  else
    match cs.findIdx? (fun c => !schemeChar c) with
    | some i =>
      if cs[i]? = some ':' ∧ (cs.drop (i + 1)).take 2 = ['/', '/'] then
        if i > 64 then .error .schemeTooLong else .ok (some i)
      else .ok none
    | none => .ok none

/-- Reads a request target. -/
def Uri.parse (text : String) : Except UriError Uri := do
  let cs := text.toList
  if text.utf8ByteSize > 65534 then throw .tooLong
  match cs with
  | [] => throw .empty
  | ['/'] => return { path := "/", query := none }
  | ['*'] => return { path := "*", query := none }
  | [_] =>
    let stop ← authorityEnd cs
    if stop != 1 then throw .invalidChar
    return { path := "", query := none }
  | '/' :: _ => pathQuery cs false
  | _ =>
    match ← schemeEnd cs with
    | none =>
      let stop ← authorityEnd cs
      if stop != cs.length then throw .invalidFormat
      return { path := "", query := none }
    | some n =>
      let rest := cs.drop (n + 3)
      if rest.isEmpty then throw .empty
      let stop ← authorityEnd rest
      if stop = 0 then throw .invalidFormat
      pathQuery (rest.drop stop) true

end Http

end Bourse
