namespace PeerBook

abbrev Octets := List UInt8

def utf8 (text : String) : Octets :=
  text.toUTF8.data.toList

namespace Octets

def text? (bytes : Octets) : Option String :=
  String.fromUTF8? ⟨bytes.toArray⟩

def ofLittleEndian : Octets → Nat
  | [] => 0
  | b :: bs => b.toNat + 256 * ofLittleEndian bs

def littleEndian : (width n : Nat) → Octets
  | 0, _ => []
  | width + 1, n => UInt8.ofNat n :: littleEndian width (n / 256)

def ofBigEndian (bytes : Octets) : Nat :=
  ofLittleEndian bytes.reverse

def bigEndian (width n : Nat) : Octets :=
  (littleEndian width n).reverse

def pieces {α : Type} (width : Nat) (xs : List α) : List (List α) :=
  if _h : width = 0 ∨ xs = [] then []
  else xs.take width :: pieces width (xs.drop width)
termination_by xs.length
decreasing_by
  have := List.length_pos_iff.2 (fun hx => _h (Or.inr hx))
  simp only [List.length_drop]
  omega

def hexDigits : List Char :=
  ['0', '1', '2', '3', '4', '5', '6', '7', '8', '9', 'a', 'b', 'c', 'd', 'e', 'f']

def hexDigit (n : Nat) : Char :=
  hexDigits.getD n '0'

def hexValue? (c : Char) : Option Nat :=
  hexDigits.idxOf? c.toLower

def hex (bytes : Octets) : String :=
  String.ofList (bytes.flatMap fun b => [hexDigit (b.toNat / 16), hexDigit (b.toNat % 16)])

def ofHexDigits? : List Char → Option Octets
  | [] => some []
  | [_] => none
  | high :: low :: rest => do
    let high ← hexValue? high
    let low ← hexValue? low
    let rest ← ofHexDigits? rest
    return UInt8.ofNat (16 * high + low) :: rest

end Octets

end PeerBook
