import Bourse.Json.Fault
/-!
# Reading position

A cursor walks JSON text one character at a time and knows where it stands: the line and
the bytes read on it. Readers look one byte ahead before deciding, and the two kinds of
reader differ in how such a look counts:

* a stream reader (reading a file) has taken the byte off its stream, so the byte counts as
  read for every fault it reports;
* a slice reader (reading text held in memory) counts it only for faults that it reports
  about the byte it looked at.

A character beyond ASCII advances the column by its UTF-8 length. Faults found on the
first byte of such a character count that byte alone.

`Scan` is the reading monad: faults do not roll the cursor back, so a reader can still
finish a bracket after a fault before it reports where it stands.
-/

namespace Bourse

namespace Json

/-- How a reader counts a byte it looked at. -/
inductive Reading where
  | stream
  | slice
  deriving DecidableEq, Repr

/-- Where a reader stands in its text. -/
structure Cursor where
  rest : List Char
  line : Nat
  column : Nat
  /-- Whether the first character of `rest` has been looked at. -/
  ahead : Bool
  reading : Reading
  /-- The number of characters in `rest`, which bounds every loop over it. -/
  left : Nat
  deriving Repr

namespace Cursor

/-- A cursor at the start of a text. -/
def start (reading : Reading) (text : String) : Cursor :=
  { rest := text.toList, line := 1, column := 0, ahead := false, reading,
    left := text.length }

/-- Where the reader stands once one byte more is read. -/
def oneAhead (c : Cursor) : Pos :=
  match c.rest with
  | '\n' :: _ => ⟨c.line + 1, 0⟩
  | _ :: _ => ⟨c.line, c.column + 1⟩
  | [] => ⟨c.line, c.column⟩

/-- The position reported for faults about what has been read. -/
def here (c : Cursor) : Pos :=
  match c.reading with
  | .stream => if c.ahead then c.oneAhead else ⟨c.line, c.column⟩
  | .slice => ⟨c.line, c.column⟩

/-- The position reported for faults about the byte looked at. -/
def hereAhead (c : Cursor) : Pos :=
  match c.reading with
  | .stream => c.here
  | .slice => c.oneAhead

/-- The cursor past its first character. -/
def advance (c : Cursor) : Cursor :=
  match c.rest with
  | [] => { c with ahead := false }
  | ch :: rest =>
    if ch = '\n' then
      { c with rest, line := c.line + 1, column := 0, ahead := false, left := c.left - 1 }
    else { c with rest, column := c.column + ch.utf8Size, ahead := false, left := c.left - 1 }

end Cursor

/-- The reading monad: a fault keeps the cursor where it was raised. -/
abbrev Scan := ExceptT Error (StateM Cursor)

namespace Scan

/-- The next character, without reading it. -/
def head : Scan (Option Char) := do return (← get).rest.head?

/-- Looks at the next character; it now counts as looked at. -/
def peek : Scan (Option Char) := do
  let c ← get
  match c.rest with
  | [] => return none
  | ch :: _ =>
    set { c with ahead := true }
    return some ch

/-- Looks at the next character, reading the end of text as NUL. -/
def peekOrNull : Scan Char := do return (← peek).getD '\x00'

/-- Reads the next character. -/
def advance : Scan Unit := modify Cursor.advance

/-- Reads and returns the next character. -/
def next : Scan (Option Char) := do
  let h ← head
  advance
  return h

/-- Fails with a fault at the position of what has been read. -/
def fail (f : Fault) : Scan α := do throw { fault := f, pos := some (← get).here }

/-- Fails with a fault at the position of the byte looked at. -/
def failAhead (f : Fault) : Scan α := do throw { fault := f, pos := some (← get).hereAhead }

/-- Fails once the first byte of the next character has been read. -/
def failPast (f : Fault) : Scan α := do throw { fault := f, pos := some (← get).oneAhead }

/-- The error a data fault becomes at the reader's position. -/
def positioned (f : Fault) : Scan Error := do return { fault := f, pos := some (← get).here }

/-- Gives an unpositioned error the reader's current position. -/
def fixPosition (e : Error) : Scan Error := do
  match e.pos with
  | some _ => return e
  | none => return { e with pos := some (← get).here }

/-- Runs a step and returns its outcome, keeping the cursor it left either way. -/
def attempt (m : Scan α) : Scan (Except Error α) := do
  try
    let a ← m
    return .ok a
  catch e =>
    return .error e

/-- Skips blanks (space, line feed, tab, carriage return) and looks at what follows. -/
def skipBlanks (fuel : Nat) : Scan (Option Char) := do
  match fuel with
  | 0 => peek
  | fuel + 1 =>
    match ← peek with
    | some ' ' | some '\n' | some '\t' | some '\r' =>
      advance
      skipBlanks fuel
    | other => return other

/-- Skips blanks and looks at what follows. -/
def blanks : Scan (Option Char) := do skipBlanks ((← get).left + 1)

/-- A bound on the steps any loop over the rest of the text can take. -/
def budget : Scan Nat := do return (← get).left + 1

end Scan

end Json

end Bourse
