/-!
# Unsigned decimal integers in text

`readUnsigned bound s` reads `s` as an unsigned integer below `bound`: an optional `+` and
then at least one ASCII digit, nothing else (no blanks, no sign `-`). The refusals come in
reading order: an empty text, then the first character that is not a digit, unless the value
already passed the bound at an earlier digit.
-/

namespace Bourse

/-- Why a text is not an unsigned integer of a width. -/
inductive IntError where
  | empty
  | invalidDigit
  | tooLarge
  deriving DecidableEq, Repr

/-- The message of a refusal. -/
def IntError.message : IntError → String
  | .empty => "cannot parse integer from empty string"
  | .invalidDigit => "invalid digit found in string"
  | .tooLarge => "number too large to fit in target type"

/-- Reads decimal digits onto an accumulated value, refusing values reaching `bound`. -/
def accumulateDigits (bound : Nat) : List Char → Nat → Except IntError Nat
  | [], acc => .ok acc
  | c :: rest, acc =>
    if '0' ≤ c ∧ c ≤ '9' then
      let acc' := acc * 10 + (c.toNat - '0'.toNat)
      if acc' < bound then accumulateDigits bound rest acc' else .error .tooLarge
    else .error .invalidDigit

/-- Reads an unsigned integer below `bound`. -/
def readUnsigned (bound : Nat) (s : String) : Except IntError Nat :=
  match s.toList with
  | [] => .error .empty
  | ['+'] => .error .invalidDigit
  | '+' :: rest => accumulateDigits bound rest 0
  | cs => accumulateDigits bound cs 0

/-- Reads a 64-bit unsigned integer. -/
def readWord (s : String) : Except IntError UInt64 :=
  (readUnsigned (Nat.pow 2 64) s).map Nat.toUInt64

/-- Reads a 16-bit unsigned integer. -/
def readPort (s : String) : Except IntError Nat := readUnsigned (Nat.pow 2 16) s

end Bourse
