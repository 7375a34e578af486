import Bourse.Json.Value
import Bourse.Text.Unicode
/-!
# Reading faults

Why reading JSON text into a value or a typed shape failed, and the message of each fault.
Faults of the text itself (syntax, early end of input) carry a position; faults raised while
matching a value against a shape (a wrong type, a missing field, …) are data faults and get
the reader's position only when the reader reports them.

A position is a 1-based line and the number of bytes read on that line.
-/

namespace Bourse

namespace Json

/-- What a reader found where it expected something else. -/
inductive Unexpected where
  | unit
  | bool (b : Bool)
  | unsigned (n : Nat)
  | signed (n : Int)
  | float (w : Binary64)
  | str (s : String)
  | seq
  | map
  deriving DecidableEq, Repr

/-- A number as the unexpected thing it is, when a number was not expected. -/
def Number.unexpected : Number → Unexpected
  | .unsigned n => .unsigned n.toNat
  | .negative n => .signed n
  | .float w => .float w

/-- What a value is, when it is not what was expected. -/
def Value.unexpected : Value → Unexpected
  | .null => .unit
  | .bool b => .bool b
  | .number n => n.unexpected
  | .string s => .str s
  | .array _ => .seq
  | .object _ => .map

/-- The escaped form of a character in a quoted message string. -/
def debugEscape (c : Char) : List Char :=
  if c = '"' then ['\\', '"']
  else if c = '\\' then ['\\', '\\']
  else if c = '\n' then ['\\', 'n']
  else if c = '\r' then ['\\', 'r']
  else if c = '\t' then ['\\', 't']
  else if c.toNat = 0 then ['\\', '0']
  else if showsEscaped c then ['\\', 'u', '{'] ++ Nat.toDigits 16 c.toNat ++ ['}']
  else [c]

/-- The words for what was found. -/
def Unexpected.text : Unexpected → String
  | .unit => "null"
  | .bool b => "boolean `" ++ (if b then "true" else "false") ++ "`"
  | .unsigned n => "integer `" ++ toString n ++ "`"
  | .signed n => "integer `" ++ toString n ++ "`"
  | .float w => "floating point `" ++ floatText w ++ "`"
  | .str s => "string \"" ++ String.ofList (s.toList.flatMap debugEscape) ++ "\""
  | .seq => "sequence"
  | .map => "map"

/-- Names in backquotes: `a`, `a` or `b`, or one of `a`, `b`, `c`. -/
def oneOf (names : List String) : String :=
  let q := fun (n : String) => "`" ++ n ++ "`"
  match names with
  | [] => "nothing"
  | [a] => q a
  | [a, b] => q a ++ " or " ++ q b
  | _ => "one of " ++ ", ".intercalate (names.map q)

/-- Why reading failed. -/
inductive Fault where
  | eofList
  | eofObject
  | eofString
  | eofValue
  | expectedColon
  | expectedListCommaOrEnd
  | expectedObjectCommaOrEnd
  | expectedIdent
  | expectedValue
  | invalidEscape
  | invalidNumber
  | numberOutOfRange
  | invalidCodePoint
  | controlCharacter
  | keyMustBeString
  | expectedNumericKey
  | expectedQuote
  | loneLeadingSurrogate
  | trailingComma
  | trailingCharacters
  | unexpectedEndOfHexEscape
  | recursionLimit
  | invalidType (found : Unexpected) (expected : String)
  | invalidValue (found : Unexpected) (expected : String)
  | invalidLength (n : Nat) (expected : String)
  | unknownVariant (name : String) (expected : List String)
  | missingField (name : String)
  | duplicateField (name : String)
  | io (text : String)
  deriving DecidableEq, Repr

namespace Fault

/-- The message of a fault, without position. -/
def text : Fault → String
  | eofList => "EOF while parsing a list"
  | eofObject => "EOF while parsing an object"
  | eofString => "EOF while parsing a string"
  | eofValue => "EOF while parsing a value"
  | expectedColon => "expected `:`"
  | expectedListCommaOrEnd => "expected `,` or `]`"
  | expectedObjectCommaOrEnd => "expected `,` or `\x7d`"
  | expectedIdent => "expected ident"
  | expectedValue => "expected value"
  | invalidEscape => "invalid escape"
  | invalidNumber => "invalid number"
  | numberOutOfRange => "number out of range"
  | invalidCodePoint => "invalid unicode code point"
  | controlCharacter => "control character (\\u0000-\\u001F) found while parsing a string"
  | keyMustBeString => "key must be a string"
  | expectedNumericKey => "invalid value: expected key to be a number in quotes"
  | expectedQuote => "expected `\"`"
  | loneLeadingSurrogate => "lone leading surrogate in hex escape"
  | trailingComma => "trailing comma"
  | trailingCharacters => "trailing characters"
  | unexpectedEndOfHexEscape => "unexpected end of hex escape"
  | recursionLimit => "recursion limit exceeded"
  | invalidType found expected => "invalid type: " ++ found.text ++ ", expected " ++ expected
  | invalidValue found expected => "invalid value: " ++ found.text ++ ", expected " ++ expected
  | invalidLength n expected => "invalid length " ++ toString n ++ ", expected " ++ expected
  | unknownVariant name [] => "unknown variant `" ++ name ++ "`, there are no variants"
  | unknownVariant name expected => "unknown variant `" ++ name ++ "`, expected " ++ oneOf expected
  | missingField name => "missing field `" ++ name ++ "`"
  | duplicateField name => "duplicate field `" ++ name ++ "`"
  | io t => t

/-- Data faults: the text was well formed but did not fit the shape asked for. -/
def isData : Fault → Bool
  | invalidType .. | invalidValue .. | invalidLength .. | unknownVariant .. | missingField ..
  | duplicateField .. => true
  | _ => false

end Fault

/-- A position in a text: the line (from 1) and the bytes read on that line. -/
structure Pos where
  line : Nat
  column : Nat
  deriving DecidableEq, Repr

/-- A step on the way from a whole value to the part that failed. -/
inductive Segment where
  | index (i : Nat)
  | key (k : String)
  | variant (v : String)
  deriving DecidableEq, Repr

/-- A reading failure: its fault, where the reader stood if known, and the path into the
value being read (kept only by readers that track it). -/
structure Error where
  fault : Fault
  pos : Option Pos := none
  path : List Segment := []
  deriving DecidableEq, Repr

/-- A path as dotted text: keys joined by dots, indices in brackets. -/
def pathText (path : List Segment) : String :=
  let rec go (first : Bool) : List Segment → String
    | [] => ""
    | .index i :: rest => "[" ++ toString i ++ "]" ++ go false rest
    | .key k :: rest => (if first then "" else ".") ++ k ++ go false rest
    | .variant v :: rest => (if first then "" else ".") ++ v ++ go false rest
  go true path

namespace Error

/-- The message with its position, as `… at line L column C`. -/
def text (e : Error) : String :=
  match e.pos with
  | none => e.fault.text
  | some p => e.fault.text ++ " at line " ++ toString p.line ++ " column " ++ toString p.column

/-- The message prefixed by the path into the value, when the path is not empty. -/
def textWithPath (e : Error) : String :=
  if e.path.isEmpty then e.text else pathText e.path ++ ": " ++ e.text

end Error

end Json

end Bourse
