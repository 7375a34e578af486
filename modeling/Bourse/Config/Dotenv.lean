import Bourse.Text.Blank
import Bourse.Text.Unicode
/-!
# Environment files

An environment file sets variables, one `NAME=value` per line:

* blank lines and lines starting with `#` are skipped, and `export NAME=value` is
  `NAME=value`;
* names start with an ASCII letter or `_` and go on with ASCII letters, digits, `_` and `.`;
* unquoted values end at a blank, after which only blanks and a `#` comment may follow;
  `\` escapes the next character;
* single quotes keep their text as it is, double quotes allow the escapes `\\`, `\'`,
  `\"`, `\$`, `\ ` and `\n`, and a quoted value may span lines;
* where a line ends is found before the value is read, and there a `\` hides the next
  character in either kind of quotes: `'a\'` leaves its quote open and the value goes on
  with the next line;
* `$NAME` and `${NAME}` outside single quotes stand for the variable's value: the
  environment's, else the value an earlier line gave it, else nothing. A bare `$NAME`
  goes on over Unicode letters and numbers, so `$A$B` is `A`'s value then `B`'s; inside
  braces every character up to `}` belongs to the name.

Loading applies the lines in order and stops at the first line that does not read; the
lines before it stay applied. A variable that is already set is never replaced.
-/

namespace Bourse

namespace Config

/-- Variables and their values; the first binding of a name counts. -/
abbrev Environment := List (String × String)

/-- The value of a variable. -/
def Environment.get? (env : Environment) (name : String) : Option String :=
  (env.find? (·.1 == name)).map (·.2)

/-- Sets a variable unless it is set. -/
def Environment.setIfAbsent (env : Environment) (name value : String) : Environment :=
  if (env.get? name).isSome then env else env ++ [(name, value)]

/-- Removes a variable. -/
def Environment.unset (env : Environment) (name : String) : Environment :=
  env.filter (·.1 != name)

/-- Sets a variable, replacing the value it had. -/
def Environment.set (env : Environment) (name value : String) : Environment :=
  env.unset name ++ [(name, value)]

/-- Where the reading of a line's end stands: whether the line goes on after a newline. -/
inductive LineState where
  | complete
  | escape
  | strongOpen
  | strongOpenEscape
  | weakOpen
  | weakOpenEscape
  | whiteSpace
  | comment
  deriving DecidableEq, Repr

/-- The state after one more character. -/
def LineState.step : LineState → Char → LineState
  | .whiteSpace, c =>
    if c = '\\' then .escape else if c = '"' then .weakOpen
    else if c = '\'' then .strongOpen else .complete
  | .escape, _ => .complete
  | .complete, c =>
    if isBlank c ∧ c ≠ '\n' ∧ c ≠ '\r' then .whiteSpace
    else if c = '\\' then .escape else if c = '"' then .weakOpen
    else if c = '\'' then .strongOpen else .complete
  | .weakOpen, c => if c = '\\' then .weakOpenEscape else if c = '"' then .complete else .weakOpen
  | .weakOpenEscape, _ => .weakOpen
  | .strongOpen, c =>
    if c = '\\' then .strongOpenEscape else if c = '\'' then .complete else .strongOpen
  | .strongOpenEscape, _ => .strongOpen
  | .comment, _ => .comment

/-- The state at the end of a piece of text, or `comment` with the index of a `#` that
follows a blank. -/
def LineState.run : LineState → List Char → Nat → LineState × Nat
  | s, [], i => (s, i)
  | .whiteSpace, '#' :: _, i => (.comment, i)
  | s, c :: rest, i => LineState.run (s.step c) rest (i + 1)

/-- Splits text into physical lines, each with its newline. -/
def physicalLines (cs : List Char) : List (List Char) :=
  let (done, cur) := cs.foldl (fun (done, cur) c =>
    if c = '\n' then (done ++ [cur ++ [c]], []) else (done, cur ++ [c])) ([], [])
  if cur.isEmpty then done else done ++ [cur]

/-- A line without its newline (and a carriage return before it). -/
def stripNewline (cs : List Char) : List Char :=
  match cs.reverse with
  | '\n' :: '\r' :: rest => rest.reverse
  | '\n' :: rest => rest.reverse
  | _ => cs

/-- The next logical line from physical lines: a line whose quotes or escape are open goes
on with the next physical line. Fails when the text ends inside one. -/
def nextLine (buf : List Char) (state : LineState) :
    List (List Char) → Option (Except Unit (List Char) × List (List Char))
  | [] => if state = .complete then none else some (.error (), [])
  | chunk :: more =>
    let whole := buf ++ chunk
    if (whole.dropWhile isBlank).head? = some '#' then some (.ok [], more)
    else
      match state.run chunk 0 with
      | (.complete, _) => some (.ok (stripNewline whole), more)
      | (.comment, i) => some (.ok (buf ++ chunk.take i), more)
      | (s, _) => nextLine whole s more

/-- The logical lines of a text, up to and including the first that fails. -/
def logicalLines : Nat → List (List Char) → List (Except Unit (List Char))
  | 0, _ => []
  | fuel + 1, phys =>
    match nextLine [] .complete phys with
    | none => []
    | some (.error (), _) => [.error ()]
    | some (.ok line, more) => .ok line :: logicalLines fuel more

/-- Values earlier lines gave, the latest first; `none` for an empty one. -/
abbrev Given := List (String × Option String)

/-- How a `$` reference is being read. -/
inductive Reference where
  | none
  | bare
  | braced
  deriving DecidableEq, Repr

/-- Whether a character continues a bare reference name: the Unicode letters and numbers. -/
def referenceChar (c : Char) : Bool := isUnicodeAlphanumeric c

/-- The value a reference stands for. -/
def resolve (env : Environment) (given : Given) (name : List Char) : List Char :=
  let n := String.ofList name
  match env.get? n with
  | some v => v.toList
  | none => (((given.find? (·.1 == n)).map (·.2)).getD none |>.getD "").toList

/-- The state of reading a value. -/
structure ValueScan where
  strong : Bool := false
  weak : Bool := false
  escaped : Bool := false
  expectingEnd : Bool := false
  out : List Char := []
  reference : Reference := .none
  name : List Char := []

/-- Reads a value's characters. -/
def scanValue (env : Environment) (given : Given) (s : ValueScan) :
    List Char → Except Unit ValueScan
  | [] => .ok s
  | c :: rest =>
    if s.expectingEnd then
      if c = ' ' ∨ c = '\t' then scanValue env given s rest
      else if c = '#' then .ok s
      else .error ()
    else if s.escaped then
      if c = '\\' ∨ c = '\'' ∨ c = '"' ∨ c = '$' ∨ c = ' ' then
        scanValue env given { s with out := s.out ++ [c], escaped := false } rest
      else if c = 'n' then
        scanValue env given { s with out := s.out ++ ['\n'], escaped := false } rest
      else .error ()
    else if s.strong then
      if c = '\'' then scanValue env given { s with strong := false } rest
      else scanValue env given { s with out := s.out ++ [c] } rest
    else if s.reference != .none then
      if referenceChar c then scanValue env given { s with name := s.name ++ [c] } rest
      else if s.reference = .bare then
        if c = '{' ∧ s.name.isEmpty then scanValue env given { s with reference := .braced } rest
        else
          let out := s.out ++ resolve env given s.name
          if c = '$' then scanValue env given { s with out, name := [], reference := .bare } rest
          else scanValue env given { s with out := out ++ [c], name := [], reference := .none } rest
      else if c = '}' then
        scanValue env given
          { s with out := s.out ++ resolve env given s.name, name := [], reference := .none } rest
      else scanValue env given { s with name := s.name ++ [c] } rest
    else if c = '$' then scanValue env given { s with reference := .bare } rest
    else if s.weak then
      if c = '"' then scanValue env given { s with weak := false } rest
      else if c = '\\' then scanValue env given { s with escaped := true } rest
      else scanValue env given { s with out := s.out ++ [c] } rest
    else if c = '\'' then scanValue env given { s with strong := true } rest
    else if c = '"' then scanValue env given { s with weak := true } rest
    else if c = '\\' then scanValue env given { s with escaped := true } rest
    else if c = ' ' ∨ c = '\t' then scanValue env given { s with expectingEnd := true } rest
    else scanValue env given { s with out := s.out ++ [c] } rest

/-- Reads a value. -/
def readValue (env : Environment) (given : Given) (cs : List Char) : Except Unit String := do
  let s ← scanValue env given {} cs
  if s.reference = .braced || s.strong || s.weak then throw ()
  return String.ofList (s.out ++ resolve env given s.name)

/-- Reads a name at the start of a text. -/
def readName (cs : List Char) : Except Unit (String × List Char) :=
  match cs with
  | c :: _ =>
    if c.isAlpha || c = '_' then
      let name := cs.takeWhile fun d => d.isAlphanum || d = '_' || d = '.'
      .ok (String.ofList name, cs.drop name.length)
    else .error ()
  | [] => .error ()

/-- Reads one line: `none` for a line that sets nothing. -/
def readLine (env : Environment) (given : Given) (line : List Char) :
    Except Unit (Option (String × String)) := do
  let cs := ((line.reverse.dropWhile isBlank).reverse).dropWhile isBlank
  if cs.isEmpty || cs.head? = some '#' then return none
  let (name, rest) ← readName cs
  let rest := rest.dropWhile isBlank
  let (name, rest) ← match name, rest with
    | "export", '=' :: more => pure (name, more)
    | "export", _ =>
      let (name, rest) ← readName rest
      match rest.dropWhile isBlank with
      | '=' :: more => pure (name, more)
      | _ => throw ()
    | _, '=' :: more => pure (name, more)
    | _, _ => throw ()
  let rest := rest.dropWhile isBlank
  if rest.isEmpty || rest.head? = some '#' then return some (name, "")
  return some (name, ← readValue env given rest)

/-- Applies lines in order, stopping at the first that does not read. -/
def applyLines (env : Environment) (given : Given) :
    List (Except Unit (List Char)) → Environment
  | [] => env
  | .error () :: _ => env
  | .ok line :: rest =>
    match readLine env given line with
    | .error () => env
    | .ok none => applyLines env given rest
    | .ok (some (k, v)) =>
      let given' := (k, if v.isEmpty then none else some v) :: given
      applyLines (env.setIfAbsent k v) given' rest

/-- The environment after loading an environment file's text. -/
def loadDotenv (env : Environment) (text : String) : Environment :=
  let cs := match text.toList with
    | '\uFEFF' :: rest => rest
    | cs => cs
  let phys := physicalLines cs
  applyLines env [] (logicalLines (phys.length + 1) phys)

end Config

end Bourse
