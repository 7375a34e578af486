import Bourse.Decimal.Layout
/-!
# JSON values

A JSON number is kept in the class its text reads into: an unsigned 64-bit integer, a
negative integer that fits 64 signed bits, or a binary64 word for everything else (a
fraction, an exponent, `-0`, or an integer beyond 64 bits). Objects are lists of members.
A reader that builds values (`Bourse.Json.Parse`) keeps their keys sorted and distinct, the
last of equal keys winning.

Writing follows one format: strings escape the quote, the backslash and the control
characters (`\b \f \n \r \t` by name, the rest as `\u00xx`), and leave everything else as
is; floats are written by `Json.floatLayout`; `Value.compact` writes no blanks and
`Value.pretty` indents by two spaces.
-/

namespace Bourse

namespace Json

/-- The class a JSON number reads into. -/
inductive Number where
  | unsigned (n : UInt64)
  | negative (n : Int)
  | float (w : Binary64)
  deriving DecidableEq, Repr, Inhabited

/-- A JSON value. -/
inductive Value where
  | null
  | bool (b : Bool)
  | number (n : Number)
  | string (s : String)
  | array (items : List Value)
  | object (members : List (String × Value))
  deriving Repr, Inhabited

/-- Floats are written with their shortest digits, positionally when the decimal point
falls after at most 16 digits and less than five places before the first one, with `.0` on
integral values, and otherwise as `d.ddde+x` or `d.ddde-x`. -/
def floatLayout : Layout :=
  { lowPoint := -5, highPoint := 16, integralMark := ".0", exponentMark := "e",
    plusSign := true }

/-- The text of a float as values and messages write it. -/
def floatText (w : Binary64) : String := floatLayout.render w

/-- The text of a number. Infinite floats cannot arise from reading and are written `null`. -/
def Number.text : Number → String
  | .unsigned n => toString n.toNat
  | .negative n => toString n
  | .float w => if w.isFinite then floatText w else "null"

/-- A lowercase hexadecimal digit. -/
def hexDigit (n : Nat) : Char :=
  if n < 10 then Char.ofNat (48 + n) else Char.ofNat (87 + n)

/-- The escaped form of one character inside a string. -/
def escapeChar (c : Char) : List Char :=
  if c = '"' then ['\\', '"']
  else if c = '\\' then ['\\', '\\']
  else if c = '\n' then ['\\', 'n']
  else if c = '\r' then ['\\', 'r']
  else if c = '\t' then ['\\', 't']
  else if c.toNat = 8 then ['\\', 'b']
  else if c.toNat = 12 then ['\\', 'f']
  else if c.toNat < 32 then
    ['\\', 'u', '0', '0', hexDigit (c.toNat / 16), hexDigit (c.toNat % 16)]
  else [c]

/-- A string as JSON text, quotes included. -/
def quote (s : String) : String :=
  String.ofList ('"' :: (s.toList.flatMap escapeChar ++ ['"']))

/-- Text without blanks. -/
def Value.compact : Value → String
  | .null => "null"
  | .bool true => "true"
  | .bool false => "false"
  | .number n => n.text
  | .string s => quote s
  | .array items => "[" ++ ",".intercalate (items.attach.map fun ⟨v, _⟩ => v.compact) ++ "]"
  | .object members =>
    "\x7b" ++ ",".intercalate (members.attach.map fun ⟨(k, v), _⟩ => quote k ++ ":" ++ v.compact)
      ++ "\x7d"
termination_by v => sizeOf v
decreasing_by
  all_goals simp_wf
  · have := List.sizeOf_lt_of_mem ‹_ ∈ items›; omega
  · have := List.sizeOf_lt_of_mem ‹_ ∈ members›; simp at this; omega

/-- Text indented by two spaces per level, members on lines of their own. -/
def Value.prettyAt (indent : String) : Value → String
  | .array [] => "[]"
  | .object [] => "\x7b\x7d"
  | .array items =>
    let inner := indent ++ "  "
    "[\n" ++ ",\n".intercalate (items.attach.map fun ⟨v, _⟩ => inner ++ v.prettyAt inner) ++
      "\n" ++ indent ++ "]"
  | .object members =>
    let inner := indent ++ "  "
    "\x7b\n" ++ ",\n".intercalate (members.attach.map fun ⟨(k, v), _⟩ =>
      inner ++ quote k ++ ": " ++ v.prettyAt inner) ++ "\n" ++ indent ++ "\x7d"
  | v => v.compact
termination_by v => sizeOf v
decreasing_by
  all_goals simp_wf
  · have := List.sizeOf_lt_of_mem ‹_ ∈ items›; omega
  · have := List.sizeOf_lt_of_mem ‹_ ∈ members›; simp at this; omega

/-- Pretty text of a value. -/
def Value.pretty (v : Value) : String := v.prettyAt ""

/-- A natural number that fits 64 bits, as a JSON number. -/
def Value.nat (n : Nat) : Value := .number (.unsigned n.toUInt64)

/-- A word as a JSON number. -/
def Value.word (n : UInt64) : Value := .number (.unsigned n)

/-- An optional word, `null` when absent. -/
def Value.wordOr (n : Option UInt64) : Value :=
  match n with
  | some n => .word n
  | none => .null

/-- The member of an object with a key, the last one when several share it. -/
def Value.field? (v : Value) (key : String) : Option Value :=
  match v with
  | .object members => (members.reverse.find? (·.1 == key)).map (·.2)
  | _ => none

end Json

end Bourse
