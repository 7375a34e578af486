/-!
# Socket addresses

An IPv4 or IPv6 address with a port, read from and written as text.

Reading (`SocketAddr.parse`) takes the whole text as `a.b.c.d:port` or `[v6]:port`, where
the IPv6 part may carry a numeric scope `%n`. IPv4 octets are decimal, at most three digits,
below 256 and without a leading zero; IPv6 groups are one to four hex digits, with at most
one `::` standing for one or more zero groups and an optional dotted IPv4 tail in the last
two groups. Ports are decimal below 65536, leading zeros allowed.

Writing puts IPv6 addresses in their canonical short form: lowercase hex without leading
zeros, the first longest run of two or more zero groups written `::`, and an IPv4-mapped
address as `::ffff:a.b.c.d`.
-/

namespace Bourse

namespace Net

/-- An IP address. -/
inductive IpAddr where
  | v4 (octets : List Nat)
  | v6 (groups : List Nat)
  deriving DecidableEq, Repr

/-- An IP address and a port; `scope` is the IPv6 scope, 0 for none. -/
structure SocketAddr where
  ip : IpAddr
  port : Nat
  scope : Nat := 0
  deriving DecidableEq, Repr

/-- A text being read: the characters left. -/
abbrev Reader (α : Type) := List Char → Option (α × List Char)

/-- The value of a digit in a radix of at most 16. -/
def digitIn (radix : Nat) (c : Char) : Option Nat :=
  let n := c.toNat
  let d :=
    if 48 ≤ n ∧ n ≤ 57 then some (n - 48)
    else if 97 ≤ n ∧ n ≤ 102 then some (n - 87)
    else if 65 ≤ n ∧ n ≤ 70 then some (n - 55)
    else none
  d.filter (· < radix)

/-- A run of digits: its value and length; fails once the value reaches `bound`. -/
def digitRun (radix bound : Nat) : List Char → Nat → Nat → Option (Nat × Nat × List Char)
  | [], v, n => some (v, n, [])
  | c :: rest, v, n =>
    match digitIn radix c with
    | none => some (v, n, c :: rest)
    | some d =>
      let v' := v * radix + d
      if v' < bound then digitRun radix bound rest v' (n + 1) else none

/-- A number of at least one digit, below `bound`, of at most `maxDigits` digits when given,
and without a leading zero unless `zeroPrefix`. -/
def readNumber (radix bound : Nat) (maxDigits : Option Nat) (zeroPrefix : Bool) : Reader Nat :=
  fun cs => do
    let (v, n, rest) ← digitRun radix bound cs 0 0
    if n = 0 then none
    else if maxDigits.any (n > ·) then none
    else if !zeroPrefix && cs.head? = some '0' && n > 1 then none
    else some (v, rest)

/-- A given character. -/
def readChar (c : Char) : Reader Unit
  | d :: rest => if c = d then some ((), rest) else none
  | [] => none

/-- An item, after a separator unless it is the first. -/
def separated (sep : Char) (first : Bool) (item : Reader α) : Reader α :=
  fun cs => if first then item cs else do
    let ((), rest) ← readChar sep cs
    item rest

/-- Four items joined by a separator. -/
def readOctets : Reader (List Nat) := fun cs => do
  let octet := readNumber 10 256 (some 3) false
  let (a, cs) ← octet cs
  let (b, cs) ← separated '.' false octet cs
  let (c, cs) ← separated '.' false octet cs
  let (d, cs) ← separated '.' false octet cs
  some ([a, b, c, d], cs)

/-- Up to `limit` colon-separated groups; the last two may be a dotted IPv4 address. Returns
the groups, whether they ended in IPv4, and the rest. -/
def readGroups (limit : Nat) : Nat → List Nat → List Char → List Nat × Bool × List Char
  | 0, acc, cs => (acc, false, cs)
  | left + 1, acc, cs =>
    let i := limit - (left + 1)
    let tail :=
      if i + 1 < limit then separated ':' (i = 0) readOctets cs else none
    match tail with
    | some ([a, b, c, d], rest) => (acc ++ [a * 256 + b, c * 256 + d], true, rest)
    | _ =>
      match separated ':' (i = 0) (readNumber 16 65536 (some 4) true) cs with
      | some (g, rest) => readGroups limit left (acc ++ [g]) rest
      | none => (acc, false, cs)

/-- An IPv6 address. -/
def readV6 : Reader (List Nat) := fun cs =>
  let (head, v4, cs) := readGroups 8 8 [] cs
  if head.length = 8 then some (head, cs)
  else if v4 then none
  else do
    let ((), cs) ← readChar ':' cs
    let ((), cs) ← readChar ':' cs
    let limit := 8 - (head.length + 1)
    let (tail, _, cs) := readGroups limit limit [] cs
    some (head ++ List.replicate (8 - head.length - tail.length) 0 ++ tail, cs)

/-- A port after a colon. -/
def readPort : Reader Nat := fun cs => do
  let ((), cs) ← readChar ':' cs
  readNumber 10 65536 none true cs

/-- An IPv4 socket address. -/
def readSocketV4 : Reader SocketAddr := fun cs => do
  let (octets, cs) ← readOctets cs
  let (port, cs) ← readPort cs
  some ({ ip := .v4 octets, port }, cs)

/-- An IPv6 socket address. -/
def readSocketV6 : Reader SocketAddr := fun cs => do
  let ((), cs) ← readChar '[' cs
  let (groups, cs) ← readV6 cs
  let (scope, cs) := match readChar '%' cs with
    | some ((), rest) =>
      match readNumber 10 (Nat.pow 2 32) none true rest with
      | some (s, rest) => (s, rest)
      | none => (0, cs)
    | none => (0, cs)
  let ((), cs) ← readChar ']' cs
  let (port, cs) ← readPort cs
  some ({ ip := .v6 groups, port, scope }, cs)

namespace SocketAddr

/-- Reads a whole text as a socket address. -/
def parse (s : String) : Option SocketAddr :=
  let cs := s.toList
  match readSocketV4 cs with
  | some (a, []) => some a
  | _ =>
    match readSocketV6 cs with
    | some (a, []) => some a
    | _ => none

end SocketAddr

/-- The lowercase hex digits of a number. -/
def hexText (n : Nat) : String :=
  String.ofList (Nat.toDigits 16 n)

/-- Groups joined by colons. -/
def groupsText (gs : List Nat) : String := ":".intercalate (gs.map hexText)

/-- The first longest run of zero groups: its start and length. -/
def zeroRun (gs : List Nat) : Nat × Nat :=
  let step := fun (acc : (Nat × Nat) × (Nat × Nat) × Nat) (g : Nat) =>
    let (best, (start, len), i) := acc
    if g = 0 then
      let cur := if len = 0 then (i, 1) else (start, len + 1)
      ((if cur.2 > best.2 then cur else best), cur, i + 1)
    else (best, (0, 0), i + 1)
  (gs.foldl step ((0, 0), (0, 0), 0)).1

namespace IpAddr

/-- The text of an address. -/
def text : IpAddr → String
  | v4 octets => ".".intercalate (octets.map toString)
  | v6 gs =>
    match gs with
    | [0, 0, 0, 0, 0, 0xffff, a, b] =>
      "::ffff:" ++ ".".intercalate ([a / 256, a % 256, b / 256, b % 256].map toString)
    | _ =>
      let (start, len) := zeroRun gs
      if len > 1 then groupsText (gs.take start) ++ "::" ++ groupsText (gs.drop (start + len))
      else groupsText gs

end IpAddr

namespace SocketAddr

/-- The text of a socket address. -/
def text (a : SocketAddr) : String :=
  match a.ip with
  | .v4 _ => a.ip.text ++ ":" ++ toString a.port
  | .v6 _ =>
    "[" ++ a.ip.text ++ (if a.scope = 0 then "" else "%" ++ toString a.scope) ++ "]:" ++
      toString a.port

/-- The address with the same IP and another port (and no scope). -/
def withPort (a : SocketAddr) (port : Nat) : SocketAddr := { ip := a.ip, port }

end SocketAddr

end Net

end Bourse
