namespace PeerBook

structure Ipv4 where
  a : UInt8
  b : UInt8
  c : UInt8
  d : UInt8
  deriving DecidableEq, Repr

structure Ipv6 where
  groups : List UInt16
  length_eq : groups.length = 8
  deriving DecidableEq

inductive Ip where
  | v4 (address : Ipv4)
  | v6 (address : Ipv6)
  deriving DecidableEq

abbrev Reader (α : Type) := List Char → Option (α × List Char)

namespace Reader

def char (c : Char) : Reader Unit
  | [] => none
  | x :: rest => if x = c then some ((), rest) else none

def digitValue? (radix : Nat) (c : Char) : Option Nat :=
  let value :=
    if '0' ≤ c ∧ c ≤ '9' then some (c.toNat - '0'.toNat)
    else if 'a' ≤ c ∧ c ≤ 'f' then some (c.toNat - 'a'.toNat + 10)
    else if 'A' ≤ c ∧ c ≤ 'F' then some (c.toNat - 'A'.toNat + 10)
    else none
  value.filter (· < radix)

def isDigit (radix : Nat) (c : Char) : Bool :=
  (digitValue? radix c).isSome

def digitsValue (radix : Nat) (digits : List Char) : Nat :=
  digits.foldl (fun n c => n * radix + (digitValue? radix c).getD 0) 0

def number (radix bound : Nat) (admissible : List Char → Bool) : Reader Nat := fun cs =>
  let digits := cs.takeWhile (isDigit radix)
  let value := digitsValue radix digits
  if !digits.isEmpty && admissible digits && decide (value < bound) then
    some (value, cs.dropWhile (isDigit radix))
  else none

def all {α : Type} (reader : Reader α) (text : String) : Option α :=
  match reader text.toList with
  | some (value, []) => some value
  | _ => none

end Reader

namespace Ipv4

def part : Reader UInt8 := fun cs => do
  let admissible (digits : List Char) :=
    decide (digits.length ≤ 3) && (digits.length == 1 || digits.head? != some '0')
  let (n, rest) ← Reader.number 10 256 admissible cs
  return (UInt8.ofNat n, rest)

def read : Reader Ipv4 := fun cs => do
  let (a, cs) ← part cs
  let ((), cs) ← Reader.char '.' cs
  let (b, cs) ← part cs
  let ((), cs) ← Reader.char '.' cs
  let (c, cs) ← part cs
  let ((), cs) ← Reader.char '.' cs
  let (d, cs) ← part cs
  return (⟨a, b, c, d⟩, cs)

def textChars (address : Ipv4) : List Char :=
  let part (n : UInt8) := Nat.toDigits 10 n.toNat
  part address.a ++ '.' :: part address.b ++ '.' :: part address.c ++ '.' :: part address.d

def groups (address : Ipv4) : List UInt16 :=
  [address.a.toUInt16 * 256 + address.b.toUInt16, address.c.toUInt16 * 256 + address.d.toUInt16]

end Ipv4

namespace Ipv6

def group : Reader UInt16 := fun cs => do
  let (n, rest) ← Reader.number 16 65536 (fun digits => decide (digits.length ≤ 4)) cs
  return (UInt16.ofNat n, rest)

def separated {α : Type} (first : Bool) (reader : Reader α) : Reader α := fun cs =>
  if first then reader cs else (Reader.char ':' cs).bind fun (_, rest) => reader rest

/--
As many groups as follow, up to `limit`; a dotted address may stand for the last two. Tells
whether it did, and leaves the rest.
-/
def readGroups : (limit : Nat) → (first : Bool) → List Char → List UInt16 × Bool × List Char
  | 0, _, cs => ([], false, cs)
  | limit + 1, first, cs =>
    match if limit = 0 then none else separated first Ipv4.read cs with
    | some (address, rest) => (address.groups, true, rest)
    | none =>
      match separated first group cs with
      | none => ([], false, cs)
      | some (g, rest) =>
        let (gs, dotted, rest) := readGroups limit false rest
        (g :: gs, dotted, rest)

def ofGroups? (groups : List UInt16) : Option Ipv6 :=
  if h : groups.length = 8 then some ⟨groups, h⟩ else none

/-- Eight groups, or fewer with a double colon in place of at least one group of zeros. -/
def read : Reader Ipv6 := fun cs => do
  let (head, dotted, cs) := readGroups 8 true cs
  if head.length = 8 then
    let address ← ofGroups? head
    return (address, cs)
  if dotted then none
  let ((), cs) ← Reader.char ':' cs
  let ((), cs) ← Reader.char ':' cs
  let (tail, _, cs) := readGroups (7 - head.length) true cs
  let address ← ofGroups? (head ++ List.replicate (8 - head.length - tail.length) 0 ++ tail)
  return (address, cs)

def zerosAt (groups : List UInt16) (i : Nat) : Nat :=
  ((groups.drop i).takeWhile (· = 0)).length

def longestZeros (groups : List UInt16) : Nat :=
  (List.range groups.length).foldl
    (fun best i => if zerosAt groups best < zerosAt groups i then i else best) 0

def groupsText (groups : List UInt16) : List Char :=
  [':'].intercalate (groups.map fun g => Nat.toDigits 16 g.toNat)

def embedded (high low : UInt16) : Ipv4 :=
  ⟨(high / 256).toUInt8, (high % 256).toUInt8, (low / 256).toUInt8, (low % 256).toUInt8⟩

def textChars (address : Ipv6) : List Char :=
  match address.groups with
  | [0, 0, 0, 0, 0, 0xffff, high, low] => "::ffff:".toList ++ (embedded high low).textChars
  | groups =>
    let start := longestZeros groups
    let zeros := zerosAt groups start
    if 1 < zeros then
      groupsText (groups.take start) ++ ':' :: ':' :: groupsText (groups.drop (start + zeros))
    else groupsText groups

end Ipv6

namespace Ip

def read : Reader Ip := fun cs =>
  match Ipv4.read cs with
  | some (address, rest) => some (.v4 address, rest)
  | none => (Ipv6.read cs).map fun (address, rest) => (.v6 address, rest)

def ofText? (text : String) : Option Ip :=
  Reader.all read text

def textChars : Ip → List Char
  | v4 address => address.textChars
  | v6 address => address.textChars

end Ip

end PeerBook
