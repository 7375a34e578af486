import Bourse.Json.Scan
/-!
# Reading JSON text into a value

`Json.parse` reads one value and then requires the rest of the text to be blank. Objects
come out with their keys sorted and distinct: of two members with one key the later one
wins. Brackets may nest 127 deep; one more is the fault `recursionLimit`.

Between members and elements the reader accepts exactly one comma, and it reports a comma
before a closing bracket as `trailingComma`.
-/

namespace Bourse

namespace Json

/-- Puts a member into members sorted by key, replacing a member with the same key. -/
def insertMember (k : String) (v : Value) : List (String × Value) → List (String × Value)
  | [] => [(k, v)]
  | (k', v') :: rest =>
    if k < k' then (k, v) :: (k', v') :: rest
    else if k = k' then (k, v) :: rest
    else (k', v') :: insertMember k v rest

namespace Scan

/-- Whether another element follows in a list: looks past blanks and one comma. -/
def nextElement (first : Bool) : Scan Bool := do
  match ← blanks with
  | none => failAhead .eofList
  | some ']' => return false
  | some ',' =>
    if first then return true
    else
      advance
      match ← blanks with
      | some ']' => failAhead .trailingComma
      | some _ => return true
      | none => failAhead .eofValue
  | some _ =>
    if first then return true else failAhead .expectedListCommaOrEnd

/-- Whether another member follows in an object: looks past blanks and one comma, and
stands on the opening quote of its key. -/
def nextMember (first : Bool) : Scan Bool := do
  let c ← match ← blanks with
    | some '}' => return false
    | some ',' =>
      if first then pure (some ',')
      else
        advance
        blanks
    | some b =>
      if first then pure (some b) else failAhead .expectedObjectCommaOrEnd
    | none => failAhead .eofObject
  match c with
  | some '"' => return true
  | some '}' => failAhead .trailingComma
  | some _ => failAhead .keyMustBeString
  | none => failAhead .eofValue

/-- Reads the colon between a key and its value. -/
def colon : Scan Unit := do
  match ← blanks with
  | some ':' => advance
  | some _ => failAhead .expectedColon
  | none => failAhead .eofObject

/-- Closes a list: the closing bracket, or the fault of what stands there instead. -/
def closeList : Scan Unit := do
  match ← blanks with
  | some ']' => advance
  | some ',' =>
    advance
    match ← blanks with
    | some ']' => failAhead .trailingComma
    | _ => failAhead .trailingCharacters
  | some _ => failAhead .trailingCharacters
  | none => failAhead .eofList

/-- Closes an object: the closing brace, or the fault of what stands there instead. -/
def closeObject : Scan Unit := do
  match ← blanks with
  | some '}' => advance
  | some ',' => failAhead .trailingComma
  | some _ => failAhead .trailingCharacters
  | none => failAhead .eofObject

/-- Requires the rest of the text to be blank. -/
def finish : Scan Unit := do
  match ← blanks with
  | some _ => failAhead .trailingCharacters
  | none => return

/-- Reads a value. `depth` counts the brackets that may still open. -/
def value : Nat → Nat → Scan Value
  | 0, _ => return .null
  | _, 0 => return .null
  | fuel + 1, depth + 1 => do
    match ← blanks with
    | none => failAhead .eofValue
    | some c =>
      match c with
      | 'n' => advance; literal ['u', 'l', 'l']; return .null
      | 't' => advance; literal ['r', 'u', 'e']; return .bool true
      | 'f' => advance; literal ['a', 'l', 's', 'e']; return .bool false
      | '-' => advance; return .number (← number false)
      | '"' => advance; return .string (← string)
      | '[' =>
        if depth = 0 then failAhead .recursionLimit
        advance
        let items ← elements fuel depth true []
        closeList
        return .array items
      | '{' =>
        if depth = 0 then failAhead .recursionLimit
        advance
        let members ← members fuel depth true []
        closeObject
        return .object members
      | _ =>
        if isDigit c then return .number (← number true)
        else failAhead .expectedValue
where
  /-- Reads the elements of a list up to its closing bracket. -/
  elements : Nat → Nat → Bool → List Value → Scan (List Value)
    | 0, _, _, acc => return acc.reverse
    | fuel + 1, depth, first, acc => do
      if ← nextElement first then
        let v ← value fuel depth
        elements fuel depth false (v :: acc)
      else return acc.reverse
  /-- Reads the members of an object up to its closing brace. -/
  members : Nat → Nat → Bool → List (String × Value) → Scan (List (String × Value))
    | 0, _, _, acc => return acc
    | fuel + 1, depth, first, acc => do
      if ← nextMember first then
        advance
        let k ← string
        colon
        let v ← value fuel depth
        members fuel depth false (insertMember k v acc)
      else return acc

end Scan

/-- Reads a whole text as one value, with the positions of the given kind of reader. -/
def parseWith (reading : Reading) (text : String) : Except Error Value :=
  let run : Scan Value := do
    let v ← Scan.value (2 * text.length + 2) 128
    Scan.finish
    return v
  (run.run.run (Cursor.start reading text)).1

/-- Reads a whole text held in memory as one value. -/
def parse (text : String) : Except Error Value := parseWith .slice text

end Json

end Bourse
