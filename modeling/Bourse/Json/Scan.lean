import Bourse.Json.Cursor
/-!
# Lexemes of JSON text

The pieces every JSON reader shares: the literals `null`, `true` and `false`, numbers,
strings with their escapes, and skipping a whole value without building it.

Numbers read into the class of their text (see `Json.Number`). An integer stays unsigned
while it fits 64 bits; past that its further digits only raise a decimal exponent. A number
with a fraction or exponent becomes the float `f · 10 ^ x` computed as the word nearest to
the significand `f`, then multiplied or divided once by the word nearest to `10 ^ |x|`
(exponents beyond 308 first divide by `1e308`). A negative integer is signed when its
magnitude is at most `2 ^ 63`, and a float otherwise; `-0` is the float negative zero.

Strings must not hold raw control characters; `\uXXXX` escapes of surrogates must pair.
-/

namespace Bourse

namespace Json

namespace Scan

/-- Whether a character is an ASCII decimal digit. -/
def isDigit (c : Char) : Bool := '0' ≤ c && c ≤ '9'

/-- The value of an ASCII decimal digit. -/
def digitValue (c : Char) : Nat := c.toNat - 48

/-- Reads the rest of a literal whose first letter was read. -/
def literal : List Char → Scan Unit
  | [] => return
  | ch :: rest => do
    match ← head with
    | none => fail .eofValue
    | some c =>
      if c = ch then
        advance
        literal rest
      else failPast .expectedIdent

/-- The largest unsigned 64-bit value. -/
def wordMax : Nat := Nat.pow 2 64 - 1

/-- The largest signed 32-bit value. -/
def int32Max : Int := Int.pow 2 31 - 1

/-- Clamps to the signed 32-bit range. -/
def clamp32 (x : Int) : Int := max (-(Int.pow 2 31)) (min int32Max x)

/-- The word for `significand · 10 ^ exponent`, as numbers read it: the significand rounded
once, then scaled by one rounded power of ten. Fails when the result overflows. -/
def floatOf (significand : Nat) (exponent : Int) : Option Binary64 := do
  let f ← Binary64.ofNat significand
  scaleDown f exponent ((-exponent).toNat / 308 + 2)
where
  /-- Applies the power of ten, dividing by `1e308` first while it is out of range. -/
  scaleDown (f : Binary64) (exponent : Int) : Nat → Option Binary64
    | 0 => some f
    | fuel + 1 =>
      if exponent.natAbs ≤ 308 then
        if 0 ≤ exponent then do Binary64.mulMagnitude f (← Binary64.pow10 exponent.toNat)
        else do Binary64.divMagnitude f (← Binary64.pow10 exponent.natAbs)
      else if f.isZero then some f
      else if 0 ≤ exponent then none
      else do
        let g ← Binary64.divMagnitude f (← Binary64.pow10 308)
        scaleDown g (exponent + 308) fuel

/-- The float for a sign, significand and decimal exponent, or a range fault. -/
def floatFrom (positive : Bool) (significand : Nat) (exponent : Int) : Scan Number := do
  match floatOf significand exponent with
  | none => fail .numberOutOfRange
  | some w => return .float (if positive then w else w.negate)

/-- Skips decimal digits. -/
def skipDigits : Nat → Scan Unit
  | 0 => return
  | fuel + 1 => do
    if isDigit (← peekOrNull) then
      advance
      skipDigits fuel
    else return

/-- Reads exponent digits after the first one; fails or gives zero on overflow. -/
def exponentDigits (positive : Bool) (significand : Nat) (startExp : Int) (positiveExp : Bool)
    (exp : Int) : Nat → Scan Number
  | 0 => floatFrom positive significand (if positiveExp then startExp + exp else startExp - exp)
  | fuel + 1 => do
    let c ← peekOrNull
    if isDigit c then
      advance
      let d : Int := digitValue c
      if exp > int32Max / 10 ∨ (exp = int32Max / 10 ∧ d > int32Max % 10) then
        if significand ≠ 0 ∧ positiveExp then fail .numberOutOfRange
        else
          skipDigits (← budget)
          let z := Binary64.zero
          return .float (if positive then z else z.negate)
      else exponentDigits positive significand startExp positiveExp (exp * 10 + d) fuel
    else
      let final := if positiveExp then clamp32 (startExp + exp) else clamp32 (startExp - exp)
      floatFrom positive significand final

/-- Reads an exponent part; its `e` or `E` is next. -/
def exponentPart (positive : Bool) (significand : Nat) (startExp : Int) : Scan Number := do
  advance
  let positiveExp ← match ← peekOrNull with
    | '+' => do advance; pure true
    | '-' => do advance; pure false
    | _ => pure true
  match ← head with
  | none => fail .eofValue
  | some c =>
    if isDigit c then
      advance
      exponentDigits positive significand startExp positiveExp (digitValue c) (← budget)
    else failPast .invalidNumber

/-- Reads the digits of a fraction after the significand stopped fitting: they are dropped. -/
def fractionOverflow (positive : Bool) (significand : Nat) (exponent : Int) : Scan Number := do
  skipDigits (← budget)
  match ← peekOrNull with
  | 'e' | 'E' => exponentPart positive significand exponent
  | _ => floatFrom positive significand exponent

/-- Reads fraction digits into the significand, one decimal place each. -/
def fractionDigits (positive : Bool) (significand : Nat) (before after : Int) :
    Nat → Scan Number
  | 0 => floatFrom positive significand (before + after)
  | fuel + 1 => do
    let c ← peekOrNull
    if isDigit c then
      let d := digitValue c
      if significand > wordMax / 10 ∨ (significand = wordMax / 10 ∧ d > wordMax % 10) then
        fractionOverflow positive significand (before + after)
      else
        advance
        fractionDigits positive (significand * 10 + d) before (after - 1) fuel
    else
      if after = 0 then
        match ← peek with
        | some _ => failAhead .invalidNumber
        | none => failAhead .eofValue
      else
        match c with
        | 'e' | 'E' => exponentPart positive significand (before + after)
        | _ => floatFrom positive significand (before + after)

/-- Reads a fraction; its `.` is next. -/
def fractionPart (positive : Bool) (significand : Nat) (before : Int) : Scan Number := do
  advance
  fractionDigits positive significand before 0 (← budget)

/-- What follows the integer digits of a number that fit 64 bits. -/
def numberTail (positive : Bool) (significand : Nat) : Scan Number := do
  match ← peekOrNull with
  | '.' => fractionPart positive significand 0
  | 'e' | 'E' => exponentPart positive significand 0
  | _ =>
    if positive then return .unsigned significand.toUInt64
    else if 1 ≤ significand ∧ significand ≤ Nat.pow 2 63 then return .negative (-(significand : Int))
    else
      match Binary64.ofNat significand with
      | some w => return .float w.negate
      | none => fail .numberOutOfRange

/-- Reads integer digits past the 64-bit range: each raises the decimal exponent. -/
def longDigits (positive : Bool) (significand : Nat) (exponent : Int) : Nat → Scan Number
  | 0 => floatFrom positive significand exponent
  | fuel + 1 => do
    match ← peekOrNull with
    | '.' => fractionPart positive significand exponent
    | 'e' | 'E' => exponentPart positive significand exponent
    | c =>
      if isDigit c then
        advance
        longDigits positive significand (exponent + 1) fuel
      else floatFrom positive significand exponent

/-- Reads integer digits while they fit 64 bits. -/
def integerDigits (positive : Bool) (significand : Nat) : Nat → Scan Number
  | 0 => numberTail positive significand
  | fuel + 1 => do
    let c ← peekOrNull
    if isDigit c then
      let d := digitValue c
      if significand > wordMax / 10 ∨ (significand = wordMax / 10 ∧ d > wordMax % 10) then
        longDigits positive significand 0 (← budget)
      else
        advance
        integerDigits positive (significand * 10 + d) fuel
    else numberTail positive significand

/-- Reads a number after its sign; the first digit is next. -/
def number (positive : Bool) : Scan Number := do
  match ← head with
  | none => fail .eofValue
  | some '0' =>
    advance
    if isDigit (← peekOrNull) then failAhead .invalidNumber
    else numberTail positive 0
  | some c =>
    if isDigit c then
      advance
      integerDigits positive (digitValue c) (← budget)
    else failPast .invalidNumber

/-- The value of a hexadecimal digit. -/
def hexValue (c : Char) : Option Nat :=
  if '0' ≤ c ∧ c ≤ '9' then some (c.toNat - 48)
  else if 'a' ≤ c ∧ c ≤ 'f' then some (c.toNat - 87)
  else if 'A' ≤ c ∧ c ≤ 'F' then some (c.toNat - 55)
  else none

/-- Reads the four hexadecimal digits of a stream's `\u` escape, digit by digit. -/
def hexStream : Nat → Nat → Scan Nat
  | 0, acc => return acc
  | n + 1, acc => do
    match ← head with
    | none => fail .eofString
    | some c =>
      match hexValue c with
      | none => failPast .invalidEscape
      | some v =>
        advance
        hexStream n (acc * 16 + v)

/-- The position after reading `bytes` more bytes, with the hex digits they hold. -/
def takeBytes : Nat → List Char → Pos → List Char → Pos × List Char
  | 0, _, p, acc => (p, acc.reverse)
  | _, [], p, acc => (p, acc.reverse)
  | n + 1, ch :: rest, p, acc =>
    if ch = '\n' then takeBytes n rest ⟨p.line + 1, 0⟩ (ch :: acc)
    else if ch.utf8Size ≤ n + 1 then
      takeBytes (n + 1 - ch.utf8Size) rest ⟨p.line, p.column + ch.utf8Size⟩ (ch :: acc)
    else (⟨p.line, p.column + n + 1⟩, (ch :: acc).reverse)

/-- The number of bytes at the front of a text, counting at most `limit`. -/
def byteCount (limit : Nat) : List Char → Nat
  | [] => 0
  | ch :: rest => if limit ≤ ch.utf8Size then ch.utf8Size else
      ch.utf8Size + byteCount (limit - ch.utf8Size) rest

/-- Reads the four hexadecimal digits of a `\u` escape. A slice reader takes four bytes at
once and only then checks them. -/
def hexEscape : Scan Nat := do
  let c ← get
  match c.reading with
  | .stream => hexStream 4 0
  | .slice =>
    if byteCount 4 c.rest < 4 then
      let (p, _) := takeBytes (byteCount 4 c.rest) c.rest ⟨c.line, c.column⟩ []
      throw { fault := .eofString, pos := some p }
    else
      let digits := c.rest.take 4
      match digits.mapM hexValue with
      | some [a, b, d, e] =>
        for _ in [0:4] do advance
        return ((a * 16 + b) * 16 + d) * 16 + e
      | _ =>
        let (p, _) := takeBytes 4 c.rest ⟨c.line, c.column⟩ []
        throw { fault := .invalidEscape, pos := some p }

/-- Looks at the next character inside a string, failing at the end of text. -/
def peekInString : Scan Char := do
  match ← peek with
  | some c => return c
  | none => fail .eofString

/-- Reads a `\u` escape after its `u`: a code point, or a surrogate pair. -/
def unicodeEscape : Scan Char := do
  let n ← hexEscape
  if 0xDC00 ≤ n ∧ n ≤ 0xDFFF then fail .loneLeadingSurrogate
  else if 0xD800 ≤ n ∧ n ≤ 0xDBFF then
    if (← peekInString) = '\\' then advance
    else failPast .unexpectedEndOfHexEscape
    if (← peekInString) = 'u' then advance
    else failPast .unexpectedEndOfHexEscape
    let n2 ← hexEscape
    if n2 < 0xDC00 ∨ 0xDFFF < n2 then fail .loneLeadingSurrogate
    else return Char.ofNat ((n - 0xD800) * 0x400 + (n2 - 0xDC00) + 0x10000)
  else return Char.ofNat n

/-- Reads an escape after its backslash. -/
def escape : Scan Char := do
  match ← head with
  | none => fail .eofString
  | some c =>
    match c with
    | '"' => advance; return '"'
    | '\\' => advance; return '\\'
    | '/' => advance; return '/'
    | 'b' => advance; return Char.ofNat 8
    | 'f' => advance; return Char.ofNat 12
    | 'n' => advance; return '\n'
    | 'r' => advance; return '\r'
    | 't' => advance; return '\t'
    | 'u' => advance; unicodeEscape
    | _ => failPast .invalidEscape

/-- Reads string characters up to the closing quote. -/
def stringChars : Nat → List Char → Scan String
  | 0, acc => return String.ofList acc.reverse
  | fuel + 1, acc => do
    match ← head with
    | none => fail .eofString
    | some c =>
      advance
      if c = '"' then return String.ofList acc.reverse
      else if c = '\\' then
        let e ← escape
        stringChars fuel (e :: acc)
      else if c.toNat < 32 then fail .controlCharacter
      else stringChars fuel (c :: acc)

/-- Reads a string whose opening quote was read. -/
def string : Scan String := do stringChars (← budget) []

/-- Skips an escape after its backslash. -/
def skipEscape : Scan Unit := do
  match ← head with
  | none => fail .eofString
  | some c =>
    if c = '"' ∨ c = '\\' ∨ c = '/' ∨ c = 'b' ∨ c = 'f' ∨ c = 'n' ∨ c = 'r' ∨ c = 't' then
      advance
    else if c = 'u' then
      advance
      let _ ← hexEscape
    else failPast .invalidEscape

/-- Skips string characters up to the closing quote. -/
def skipStringChars : Nat → Scan Unit
  | 0 => return
  | fuel + 1 => do
    match ← head with
    | none => fail .eofString
    | some c =>
      if c = '"' then advance
      else if c = '\\' then
        advance
        skipEscape
        skipStringChars fuel
      else if c.toNat < 32 then
        match (← get).reading with
        | .stream => advance; fail .controlCharacter
        | .slice => fail .controlCharacter
      else
        advance
        skipStringChars fuel

/-- Skips an exponent part; its `e` or `E` is next. -/
def skipExponent : Scan Unit := do
  advance
  match ← peekOrNull with
  | '+' | '-' => advance
  | _ => pure ()
  match ← head with
  | some c =>
    if isDigit c then
      advance
      skipDigits (← budget)
    else failPast .invalidNumber
  | none => fail .invalidNumber

/-- Skips a number after its sign. -/
def skipNumber : Scan Unit := do
  match ← head with
  | some '0' =>
    advance
    if isDigit (← peekOrNull) then failAhead .invalidNumber
  | some c =>
    if isDigit c then
      advance
      skipDigits (← budget)
    else failPast .invalidNumber
  | none => fail .invalidNumber
  match ← peekOrNull with
  | '.' =>
    advance
    if isDigit (← peekOrNull) then
      skipDigits (← budget)
      match ← peekOrNull with
      | 'e' | 'E' => skipExponent
      | _ => pure ()
    else failAhead .invalidNumber
  | 'e' | 'E' => skipExponent
  | _ => pure ()

/-- Skips a scalar whose first character is `c` (looked at, not read). -/
def skipScalar (c : Char) : Scan Unit := do
  match c with
  | 'n' => advance; literal ['u', 'l', 'l']
  | 't' => advance; literal ['r', 'u', 'e']
  | 'f' => advance; literal ['a', 'l', 's', 'e']
  | '-' => advance; skipNumber
  | '"' => advance; skipStringChars (← budget)
  | _ =>
    if isDigit c then skipNumber
    else failAhead .expectedValue

/-- Skips a whole value of any depth. `frames` holds the brackets around the value, innermost
first; each bracket is closed in `closing`. -/
def skipValueLoop : Nat → List Char → Scan Unit
  | 0, _ => return
  | fuel + 1, frames => do
    match ← blanks with
    | none => failAhead .eofValue
    | some c =>
      if c = '[' ∨ c = '{' then
        advance
        closing fuel c frames false
      else
        skipScalar c
        match frames with
        | [] => return
        | frame :: outer => closing fuel frame outer true
where
  /-- Inside the bracket `frame` after an opening or a value: closes brackets, or moves past a
  comma (and a member key) to the next value. -/
  closing : Nat → Char → List Char → Bool → Scan Unit
    | 0, _, _, _ => return
    | fuel + 1, frame, outer, afterValue => do
      let mismatch : Fault :=
        if frame = '[' then .expectedListCommaOrEnd else .expectedObjectCommaOrEnd
      match ← blanks with
      | some ',' =>
        if afterValue then
          advance
          member fuel frame outer
        else member fuel frame outer
      | some ']' =>
        if frame = '[' then
          advance
          match outer with
          | [] => return
          | f :: rest => closing fuel f rest true
        else if afterValue then failAhead mismatch
        else member fuel frame outer
      | some '}' =>
        if frame = '{' then
          advance
          match outer with
          | [] => return
          | f :: rest => closing fuel f rest true
        else if afterValue then failAhead mismatch
        else member fuel frame outer
      | some _ =>
        if afterValue then failAhead mismatch
        else member fuel frame outer
      | none => failAhead (if frame = '[' then .eofList else .eofObject)
  /-- The next member of the bracket `frame`: a key and colon first inside an object. -/
  member : Nat → Char → List Char → Scan Unit
    | 0, _, _ => return
    | fuel + 1, frame, outer => do
      if frame = '{' then
        match ← blanks with
        | some '"' => advance
        | some _ => failAhead .keyMustBeString
        | none => failAhead .eofObject
        skipStringChars (← budget)
        match ← blanks with
        | some ':' => advance
        | some _ => failAhead .expectedColon
        | none => failAhead .eofObject
      skipValueLoop fuel (frame :: outer)

/-- Skips one value of any shape. -/
def skipValue : Scan Unit := do skipValueLoop (3 * (← budget)) []

end Scan

end Json

end Bourse
