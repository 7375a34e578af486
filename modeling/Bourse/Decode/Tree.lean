import Bourse.Decode.Text
/-!
# Decoding a JSON value against a shape

`Decode.value` matches an already read value against a shape. Its faults carry no position,
with one exception: a price key is read as text of its own, so a malformed number inside a
key is reported at its place in the key.

The rules are those of `Decode.text`; what differs is what a value can be. Its objects have
distinct keys, so no field is ever repeated, and a list that is longer than a record
is a fault of its own (`fewer elements in array`).
-/

namespace Bourse

namespace Decode

open Json

/-- Reads a price key held as a string: a decimal word and nothing after it. -/
def priceOfKey (key : String) : Except Error UInt64 :=
  let run : Scan UInt64 := do
    match ← Scan.peek with
    | some c =>
      if Scan.isDigit c ∨ c = '-' then pure () else throw { fault := .expectedNumericKey }
    | none => throw { fault := .expectedNumericKey }
    let positive ← match ← Scan.peekOrNull with
      | '-' => do Scan.advance; pure false
      | _ => pure true
    let n ← Scan.number positive
    let k ← match wordOf .word n with
      | .ok k => pure k
      | .error f => failData f
    match ← Scan.peek with
    | some _ => throw { fault := .expectedNumericKey }
    | none => return k
  (run.run.run (Cursor.start .slice key)).1

/-- Fails with an unpositioned fault. -/
def refuse (f : Fault) : Except Error α := .error { fault := f }

/-- The tag index of a name. -/
def tagIndex (names : List String) (s : String) : Except Error Nat :=
  match indexOf names s with
  | some i => .ok i
  | none => refuse (.unknownVariant s names)

/-- Matches a value against a shape. The fuel bounds the nesting. -/
def valueDatum : Nat → Shape → Value → Except Error Datum
  | 0, _, _ => refuse .recursionLimit
  | fuel + 1, shape, v =>
    match shape, v with
    | .word, .number n | .port, .number n =>
      match wordOf shape n with
      | .ok w => .ok (.word w)
      | .error f => refuse f
    | .text, .string s => .ok (.text s)
    | .optional _, .null => .ok .none
    | .optional inner, v => return .some (← valueDatum fuel inner v)
    | .many inner, .array items => return .many (← items.mapM (valueDatum fuel inner))
    | .byPrice inner, .object members =>
      return .byPrice (← members.foldlM (fun acc (k, x) => do
        let p ← priceOfKey k
        let d ← valueDatum fuel inner x
        return insertEntry p d acc) [])
    | .record name fields, .array items => do
      let ds ← positional fuel name fields.length fields items 0
      if items.length > fields.length then
        refuse (.invalidLength items.length "fewer elements in array")
      else return .record ds
    | .record _ fields, .object members => do
      let slots ← members.foldlM (fun slots (k, x) => do
        match indexOf (fields.map (·.1)) k with
        | some i =>
          if (slots[i]?.join).isSome then refuse (.duplicateField k)
          else
            match fields[i]? with
            | some (_, s) => return slots.set i (some (← valueDatum fuel s x))
            | none => return slots
        | none => return slots) (fields.map fun _ => none)
      return .record (← complete fields slots)
    | .tag _ names, .string s => return .tag (← tagIndex names s)
    | .tag _ names, .object [(k, x)] => do
      let i ← tagIndex names k
      match x with
      | .null => return .tag i
      | other => refuse (.invalidType other.unexpected "unit")
    | .tag _ _, .object _ => refuse (.invalidValue .map "map with a single key")
    | .tag _ _, other => refuse (.invalidType other.unexpected "string or map")
    | shape, other => refuse (.invalidType other.unexpected shape.expecting)
where
  /-- The fields of a record given as a list, in declaration order. -/
  positional : Nat → String → Nat → List (String × Shape) → List Value → Nat →
      Except Error (List Datum)
    | _, _, _, [], _, _ => .ok []
    | fuel, name, total, (_, s) :: rest, items, i =>
      match items with
      | [] => refuse (.invalidLength i (Shape.recordLength name total))
      | x :: xs => do
        let d ← valueDatum fuel s x
        return d :: (← positional fuel name total rest xs (i + 1))
  /-- The fields of a record once its object is matched. -/
  complete : List (String × Shape) → List (Option Datum) → Except Error (List Datum)
    | [], _ => .ok []
    | (n, s) :: rest, slot :: slots => do
      let d ← match slot with
        | some d => pure d
        | none => if s.isOptional then pure Datum.none else refuse (.missingField n)
      return d :: (← complete rest slots)
    | (n, s) :: rest, [] => do
      let d ← if s.isOptional then pure Datum.none else refuse (.missingField n)
      return d :: (← complete rest [])

/-- Matches a value against a shape. -/
def value (shape : Shape) (v : Value) : Except Error Datum := valueDatum 64 shape v

end Decode

end Bourse
