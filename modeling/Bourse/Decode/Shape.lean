import Bourse.Json.Fault
/-!
# Shapes of decoded data

A shape describes what a reader expects: an unsigned 64-bit word, an unsigned 16-bit port,
a string, an optional value, a list, a map from prices (words written as decimal strings)
to values, a record with named fields, or a tag (one of a fixed list of names). Decoding
text or a value against a shape yields a `Datum` of that shape.

A record is read either from an object, by field name in any order (unknown names are
skipped, a name given twice is a fault, a missing field is a fault unless it is optional),
or from a list of exactly its fields in declaration order. A tag is read from its name as
a string, or from an object with the name as its only key and `null` as its value.
-/

namespace Bourse

namespace Decode

/-- What a reader expects. -/
inductive Shape where
  | word
  | port
  | text
  | optional (s : Shape)
  | many (s : Shape)
  | byPrice (s : Shape)
  | record (name : String) (fields : List (String × Shape))
  | tag (name : String) (names : List String)
  deriving Repr, Inhabited

/-- Data read against a shape. -/
inductive Datum where
  | word (n : UInt64)
  | text (s : String)
  | none
  | some (d : Datum)
  | many (items : List Datum)
  | byPrice (entries : List (UInt64 × Datum))
  | record (fields : List Datum)
  | tag (index : Nat)
  deriving Repr, Inhabited

namespace Shape

/-- How a fault names what was expected. -/
def expecting : Shape → String
  | word => "u64"
  | port => "u16"
  | text => "a string"
  | optional _ => "option"
  | many _ => "a sequence"
  | byPrice _ => "a map"
  | record name _ => "struct " ++ name
  | tag name _ => "enum " ++ name

/-- How a fault names a record read from a list that is too short. -/
def recordLength (name : String) (n : Nat) : String :=
  "struct " ++ name ++ " with " ++ toString n ++ (if n = 1 then " element" else " elements")

/-- Whether a missing field of this shape reads as absent. -/
def isOptional : Shape → Bool
  | optional _ => true
  | _ => false

end Shape

/-- Puts a price entry into entries sorted by price, replacing an entry with that price. -/
def insertEntry (k : UInt64) (d : Datum) : List (UInt64 × Datum) → List (UInt64 × Datum)
  | [] => [(k, d)]
  | (k', d') :: rest =>
    if k < k' then (k, d) :: (k', d') :: rest
    else if k = k' then (k, d) :: rest
    else (k', d') :: insertEntry k d rest

/-- The index of a name in a list of names. -/
def indexOf (names : List String) (n : String) : Option Nat := names.findIdx? (· == n)

end Decode

end Bourse
