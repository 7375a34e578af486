import Bourse.Decode.Shape
import Bourse.Json.Parse
/-!
# Decoding JSON text against a shape

`Decode.text` reads a whole text as one datum of a shape and requires the rest of the text
to be blank.

Where the reader stands when it reports a data fault (a wrong type, an unknown tag name, a
missing or repeated field) follows one rule: the fault is raised while matching, and it is
positioned once the value that holds it has been closed as far as the text allows. So a
missing field of an object is reported after its closing brace, and a field given twice
after the reader looked at what follows the second key. Faults of the text itself keep the
position where they arose.

A fault raised inside a field or element records the path to it: field names and list
indices, outermost first.
-/

namespace Bourse

namespace Decode

open Json Json.Scan

/-- Reads the value that stands where something else was expected, and returns the data
fault naming it (faults of its text win). -/
def mismatch (expected : String) : Scan Error := do
  let found ← match ← peekOrNull with
    | 'n' => advance; literal ['u', 'l', 'l']; pure Unexpected.unit
    | 't' => advance; literal ['r', 'u', 'e']; pure (Unexpected.bool true)
    | 'f' => advance; literal ['a', 'l', 's', 'e']; pure (Unexpected.bool false)
    | '-' => advance; pure (← number false).unexpected
    | '"' => advance; pure (Unexpected.str (← string))
    | '[' => pure Unexpected.seq
    | '{' => pure Unexpected.map
    | c =>
      if isDigit c then pure (← number true).unexpected
      else failAhead .expectedValue
  positioned (.invalidType found expected)

/-- Fails with a data fault positioned where the reader stands. -/
def failData (f : Fault) : Scan α := do throw (← positioned f)

/-- Checks a number against a word shape. -/
def wordOf (shape : Shape) (n : Number) : Except Fault UInt64 :=
  match shape, n with
  | .port, .unsigned v =>
    if v.toNat ≤ 65535 then .ok v else .error (.invalidValue (.unsigned v.toNat) "u16")
  | .port, .negative v => .error (.invalidValue (.signed v) "u16")
  | _, .unsigned v => .ok v
  | _, .negative v => .error (.invalidValue (.signed v) "u64")
  | s, .float w => .error (.invalidType (.float w) s.expecting)

/-- Runs a reader inside a field or element, adding its segment to the path of a fault. -/
def within (seg : Segment) (m : Scan α) : Scan α :=
  tryCatch m fun e => throw { e with path := seg :: e.path }

/-- Runs a bracket's reader, then closes the bracket even when the reader failed; reports
the first fault, positioned where the reader then stands. -/
def bracketed (body : Scan α) (close : Scan Unit) : Scan α := do
  let r ← attempt body
  let c ← attempt close
  match r, c with
  | .ok a, .ok () => return a
  | .error e, _ => throw (← fixPosition e)
  | .ok _, .error e => throw (← fixPosition e)

/-- Reads a price key: a decimal word in quotes, the opening quote next. A key that does not
start with a digit or `-` is not a number; one whose number is not followed by the closing
quote lacks that quote. -/
def priceKey : Scan UInt64 := do
  advance
  match ← peek with
  | some c =>
    if isDigit c ∨ c = '-' then pure () else fail .expectedNumericKey
  | none => fail .expectedNumericKey
  let positive ← match ← peekOrNull with
    | '-' => do advance; pure false
    | _ => pure true
  let n ← number positive
  let k ← match wordOf .word n with
    | .ok k => pure k
    | .error f => failData f
  match ← peek with
  | some '"' => advance; return k
  | _ => failAhead .expectedQuote

/-- Reads a tag name as a string and looks it up. -/
def tagName (names : List String) : Scan Nat := do
  match ← blanks with
  | none => failAhead .eofValue
  | some '"' =>
    advance
    let s ← string
    match indexOf names s with
    | some i => return i
    | none => failData (.unknownVariant s names)
  | some _ => throw (← mismatch "variant identifier")

/-- Reads the tag name of a tag given as an object, where an object's first key stands: a
string, else the object is malformed. -/
def tagKey (names : List String) : Scan (Nat × String) := do
  match ← blanks with
  | none => failAhead .eofObject
  | some '"' =>
    advance
    let s ← string
    match indexOf names s with
    | some i => return (i, s)
    | none => failData (.unknownVariant s names)
  | some _ => failAhead .keyMustBeString

/-- Reads the `null` of a tag given as an object. -/
def unitValue : Scan Unit := do
  match ← blanks with
  | none => failAhead .eofValue
  | some 'n' => advance; literal ['u', 'l', 'l']
  | some _ => throw (← mismatch "unit")

/-- Reads a datum of a shape. The fuel bounds nesting and list lengths together. -/
def datum : Nat → Shape → Scan Datum
  | 0, _ => failAhead .recursionLimit
  | fuel + 1, shape => do
    match shape with
    | .word | .port =>
      match ← blanks with
      | none => failAhead .eofValue
      | some c =>
        let n ← if c = '-' then do advance; number false
          else if isDigit c then number true
          else throw (← mismatch shape.expecting)
        match wordOf shape n with
        | .ok v => return .word v
        | .error f => failData f
    | .text =>
      match ← blanks with
      | none => failAhead .eofValue
      | some '"' => advance; return .text (← string)
      | some _ => throw (← mismatch shape.expecting)
    | .optional inner =>
      match ← blanks with
      | some 'n' => advance; literal ['u', 'l', 'l']; return .none
      | _ => return .some (← datum fuel inner)
    | .many inner =>
      match ← blanks with
      | none => failAhead .eofValue
      | some '[' =>
        advance
        return .many (← bracketed (items fuel inner 0 []) closeList)
      | some _ => throw (← mismatch shape.expecting)
    | .byPrice inner =>
      match ← blanks with
      | none => failAhead .eofValue
      | some '{' =>
        advance
        return .byPrice (← bracketed (entries fuel inner true []) closeObject)
      | some _ => throw (← mismatch shape.expecting)
    | .record name fields =>
      match ← blanks with
      | none => failAhead .eofValue
      | some '[' =>
        advance
        return .record (← bracketed (positional fuel name fields.length fields 0 []) closeList)
      | some '{' =>
        advance
        let slots ← bracketed (do
            let slots ← named fuel fields true (fields.map fun _ => Option.none)
            complete fields slots) closeObject
        return .record slots
      | some _ => throw (← mismatch shape.expecting)
    | .tag _ names =>
      match ← blanks with
      | some '{' =>
        advance
        let (i, name) ← tagKey names
        colon
        within (.variant name) unitValue
        match ← blanks with
        | some '}' => advance; return .tag i
        | some _ => fail .expectedValue
        | none => fail .eofObject
      | some '"' => return .tag (← tagName names)
      | some _ => failAhead .expectedValue
      | none => failAhead .eofValue
where
  /-- The elements of a list up to its closing bracket. -/
  items : Nat → Shape → Nat → List Datum → Scan (List Datum)
    | 0, _, _, acc => return acc.reverse
    | fuel + 1, inner, i, acc => do
      if ← nextElement (i = 0) then
        let d ← within (.index i) (datum fuel inner)
        items fuel inner (i + 1) (d :: acc)
      else return acc.reverse
  /-- The entries of a price map up to its closing brace; a repeated price keeps the last. -/
  entries : Nat → Shape → Bool → List (UInt64 × Datum) → Scan (List (UInt64 × Datum))
    | 0, _, _, acc => return acc
    | fuel + 1, inner, first, acc => do
      if ← nextMember first then
        let k ← priceKey
        colon
        let d ← within (.key (toString k.toNat)) (datum fuel inner)
        entries fuel inner false (insertEntry k d acc)
      else return acc
  /-- The fields of a record given as a list, in declaration order. -/
  positional : Nat → String → Nat → List (String × Shape) → Nat → List Datum →
      Scan (List Datum)
    | 0, _, _, _, _, acc => return acc.reverse
    | _, _, _, [], _, acc => return acc.reverse
    | fuel + 1, name, total, (_, s) :: rest, i, acc => do
      if ← nextElement (i = 0) then
        let d ← within (.index i) (datum fuel s)
        positional fuel name total rest (i + 1) (d :: acc)
      else throw { fault := .invalidLength i (Shape.recordLength name total) }
  /-- The fields of a record given as an object, into one slot per field. -/
  named : Nat → List (String × Shape) → Bool → List (Option Datum) → Scan (List (Option Datum))
    | 0, _, _, slots => return slots
    | fuel + 1, fields, first, slots => do
      if ← nextMember first then
        advance
        let key ← string
        match indexOf (fields.map (·.1)) key with
        | some i =>
          if (slots[i]?.join).isSome then throw { fault := .duplicateField key }
          colon
          match fields[i]? with
          | some (_, s) =>
            let d ← within (.key key) (datum fuel s)
            named fuel fields false (slots.set i (Option.some d))
          | none => named fuel fields false slots
        | none =>
          colon
          within (.key key) skipValue
          named fuel fields false slots
      else return slots
  /-- The fields of a record once its object is read: absent optional fields read as absent,
  and the first other absent field in declaration order is a fault. -/
  complete : List (String × Shape) → List (Option Datum) → Scan (List Datum)
    | [], _ => return []
    | (n, s) :: rest, slot :: slots => do
      let d ← match slot with
        | Option.some d => pure d
        | Option.none =>
          if s.isOptional then pure Datum.none else throw { fault := .missingField n }
      return d :: (← complete rest slots)
    | (n, s) :: rest, [] => do
      let d ← if s.isOptional then pure Datum.none else throw { fault := .missingField n }
      return d :: (← complete rest [])

/-- Reads a whole text as one datum of a shape, with the positions of the given reader. -/
def text (reading : Reading) (shape : Shape) (input : String) : Except Error Datum :=
  let run : Scan Datum := do
    let d ← datum (2 * input.length + 16) shape
    finish
    return d
  (run.run.run (Cursor.start reading input)).1

end Decode

end Bourse
