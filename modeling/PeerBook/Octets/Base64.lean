import PeerBook.Octets

namespace PeerBook.Octets.Base64

def alphabet : List Char :=
  "ABCDEFGHIJKLMNOPQRSTUVWXYZabcdefghijklmnopqrstuvwxyz0123456789+/".toList

def digit (n : Nat) : Char :=
  alphabet.getD n 'A'

def value? (c : Char) : Option Nat :=
  alphabet.idxOf? c

def encodeChars : Octets → List Char
  | [] => []
  | [a] =>
    let n := a.toNat
    [digit (n / 4), digit (n % 4 * 16), '=', '=']
  | [a, b] =>
    let n := a.toNat * 256 + b.toNat
    [digit (n / 1024), digit (n / 16 % 64), digit (n % 16 * 4), '=']
  | a :: b :: c :: rest =>
    let n := (a.toNat * 256 + b.toNat) * 256 + c.toNat
    digit (n / 262144) :: digit (n / 4096 % 64) :: digit (n / 64 % 64) :: digit (n % 64) ::
      encodeChars rest

/-- Accepts full groups only, padded, with no bits left over. -/
def decodeChars : List Char → Option Octets
  | [] => some []
  | [c, d, '=', '='] => do
    let n := (← value? c) * 64 + (← value? d)
    if n % 16 = 0 then some [UInt8.ofNat (n / 16)] else none
  | [c, d, e, '='] => do
    let n := ((← value? c) * 64 + (← value? d)) * 64 + (← value? e)
    if n % 4 = 0 then some [UInt8.ofNat (n / 1024), UInt8.ofNat (n / 4 % 256)] else none
  | c :: d :: e :: f :: rest => do
    let n := (((← value? c) * 64 + (← value? d)) * 64 + (← value? e)) * 64 + (← value? f)
    let tail ← decodeChars rest
    return UInt8.ofNat (n / 65536) :: UInt8.ofNat (n / 256 % 256) :: UInt8.ofNat (n % 256) :: tail
  | _ => none

def encode (bytes : Octets) : String :=
  String.ofList (encodeChars bytes)

def decode? (text : String) : Option Octets :=
  decodeChars text.toList

end PeerBook.Octets.Base64
