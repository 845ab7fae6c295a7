namespace PeerBook.Json

structure Numeral where
  negative : Bool
  whole : List Char
  fraction : Option (List Char)
  exponent : Option (Bool × List Char)
  deriving DecidableEq, Repr

namespace Numeral

def isPart (c : Char) : Bool :=
  c.isDigit || c == '-' || c == '+' || c == '.' || c == 'e' || c == 'E'

def exponent? : List Char → Option (Option (Bool × List Char))
  | [] => some none
  | c :: rest =>
    if c = 'e' ∨ c = 'E' then
      let (negative, digits) :=
        match rest with
        | '-' :: digits => (true, digits)
        | '+' :: digits => (false, digits)
        | digits => (false, digits)
      if !digits.isEmpty && digits.all Char.isDigit then some (some (negative, digits)) else none
    else none

def fraction? : List Char → Option (Option (List Char) × List Char)
  | '.' :: rest =>
    let digits := rest.takeWhile Char.isDigit
    if digits.isEmpty then none else some (some digits, rest.dropWhile Char.isDigit)
  | rest => some (none, rest)

def isWhole (digits : List Char) : Bool :=
  !digits.isEmpty && (digits.head? != some '0' || digits.length == 1)

def ofUnsigned? (negative : Bool) (cs : List Char) : Option Numeral := do
  let whole := cs.takeWhile Char.isDigit
  if !isWhole whole then none
  let (fraction, rest) ← fraction? (cs.dropWhile Char.isDigit)
  let exponent ← exponent? rest
  return ⟨negative, whole, fraction, exponent⟩

def ofChars? : List Char → Option Numeral
  | '-' :: cs => ofUnsigned? true cs
  | cs => ofUnsigned? false cs

def ofNat (n : Nat) : Numeral :=
  ⟨false, Nat.toDigits 10 n, none, none⟩

def spell (n : Numeral) : List Char :=
  let sign := if n.negative then ['-'] else []
  let fraction := n.fraction.elim [] ('.' :: ·)
  let exponent := n.exponent.elim [] fun (negative, digits) =>
    'e' :: (if negative then ['-'] else []) ++ digits
  sign ++ n.whole ++ fraction ++ exponent

def digitValue (c : Char) : Nat :=
  c.toNat - '0'.toNat

def digitsValue (digits : List Char) : Nat :=
  digits.foldl (fun n c => n * 10 + digitValue c) 0

def toNat? (n : Numeral) : Option Nat :=
  if n.negative || n.fraction.isSome || n.exponent.isSome then none else some (digitsValue n.whole)

/--
The leading digits of a significand, as many as fit into 64 bits on top of `start`, and how many
digits are left over.
-/
def accumulate (start : Nat) : List Char → Nat × Nat
  | [] => (start, 0)
  | c :: rest =>
    let next := start * 10 + digitValue c
    if next < UInt64.size then accumulate next rest else (start, rest.length + 1)

/-- The nearest number with at most 53 significant bits; a tie goes to the even one. -/
def round53 (n : Nat) : Nat :=
  let bits := if n = 0 then 0 else n.log2 + 1
  let unit := Nat.pow 2 (bits - 53)
  let low := n / unit
  let twice := 2 * (n % unit)
  let up := unit < twice || (twice == unit && low % 2 == 1)
  (if up then low + 1 else low) * unit

def overflowBound : Nat :=
  Nat.pow 2 1024 - Nat.pow 2 970

/--
Whether the numeral has a finite value in double precision, where the significand is cut to 64 bits
and scaled by the rounded power of ten.
-/
def isFinite (n : Numeral) : Bool :=
  let (significand, skipped) := accumulate 0 n.whole
  let fraction := n.fraction.getD []
  let (significand, left) := accumulate significand fraction
  let written : Int :=
    match n.exponent with
    | none => 0
    | some (negative, digits) =>
      if negative then -(digitsValue digits : Int) else digitsValue digits
  let scale : Int := (skipped : Int) - ((fraction.length - left : Nat) : Int) + written
  if significand = 0 ∨ scale < 0 then true
  else if 308 < scale then false
  else decide (round53 significand * round53 (Nat.pow 10 scale.toNat) < overflowBound)

end Numeral

end PeerBook.Json
