import Bourse.Text.Utf8
/-!
# Percent-encoded text

`percentDecode` replaces each `%` followed by two hex digits by the byte they write; any
other `%` stays. A path segment decodes to text only when the decoded bytes are UTF-8.

A query is a list of `name=value` pairs separated by `&` (`formPairs`): empty pieces are
skipped, a piece without `=` has the empty value, `+` stands for a space, and names and
values are percent-decoded with ill-formed UTF-8 replaced.
-/

namespace Bourse

namespace Http

/-- The value of a hex digit byte. -/
def hexByte (b : UInt8) : Option Nat :=
  if 48 ≤ b ∧ b ≤ 57 then some (b.toNat - 48)
  else if 97 ≤ b ∧ b ≤ 102 then some (b.toNat - 87)
  else if 65 ≤ b ∧ b ≤ 70 then some (b.toNat - 55)
  else none

/-- Decodes `%` escapes in bytes. -/
def percentDecode : List UInt8 → List UInt8
  | [] => []
  | [b] => [b]
  | [b, c] => [b, c]
  | b :: h :: l :: more =>
    if b = 37 then
      match hexByte h, hexByte l with
      | some x, some y => (x * 16 + y).toUInt8 :: percentDecode more
      | _, _ => b :: percentDecode (h :: l :: more)
    else b :: percentDecode (h :: l :: more)
termination_by bs => bs.length

/-- A path segment with its escapes decoded, when the result is UTF-8. -/
def decodeSegment (s : String) : Option String :=
  String.fromUTF8? (ByteArray.mk (percentDecode s.toUTF8.toList).toArray)

/-- Splits bytes at every occurrence of a byte. -/
def splitBytes (sep : UInt8) (bs : List UInt8) : List (List UInt8) :=
  bs.splitOn sep

/-- Decodes a form name or value: `+` is a space, escapes are decoded, and ill-formed UTF-8
is replaced. -/
def formDecode (bs : List UInt8) : String :=
  decodeLossy (percentDecode (bs.map fun b => if b = 43 then 32 else b))

/-- The name and value pairs of a query. -/
def formPairs (query : String) : List (String × String) :=
  (splitBytes 38 query.toUTF8.toList).filterMap fun piece =>
    if piece.isEmpty then none
    else
      match piece.idxOf? 61 with
      | some i => some (formDecode (piece.take i), formDecode (piece.drop (i + 1)))
      | none => some (formDecode piece, "")

end Http

end Bourse
