import PeerBook.Octets

namespace PeerBook.Curve

def modulus : Nat :=
  0x7fffffffffffffffffffffffffffffffffffffffffffffffffffffffffffffed

instance : @NeZero Nat Zero.ofOfNat0 modulus :=
  ⟨Nat.succ_ne_zero _⟩

abbrev Coordinate := Fin modulus

namespace Coordinate

def pow (x : Coordinate) (n : Nat) : Coordinate :=
  if _h : n = 0 then 1
  else
    let half := pow (x * x) (n / 2)
    if n % 2 = 1 then x * half else half
termination_by n

def inverse (x : Coordinate) : Coordinate :=
  x.pow (modulus - 2)

def sqrtMinusOne : Coordinate :=
  pow 2 ((modulus - 1) / 4)

def sqrtRatio? (u v : Coordinate) : Option Coordinate :=
  let candidate := u * v.pow 3 * (u * v.pow 7).pow ((modulus - 5) / 8)
  let check := v * candidate * candidate
  let root :=
    if check = u then some candidate
    else if check = -u then some (candidate * sqrtMinusOne)
    else none
  root.map fun r => if r.val % 2 = 1 then -r else r

end Coordinate

def d : Coordinate :=
  -121665 * Coordinate.inverse 121666

structure Point where
  x : Coordinate
  y : Coordinate
  z : Coordinate
  t : Coordinate

namespace Point

def ofAffine (x y : Coordinate) : Point :=
  ⟨x, y, 1, x * y⟩

def zero : Point :=
  ofAffine 0 1

def twiceD : Coordinate :=
  2 * d

/-- Complete, so that it also serves for doubling. -/
def add (p q : Point) : Point :=
  let a := (p.y - p.x) * (q.y - q.x)
  let b := (p.y + p.x) * (q.y + q.x)
  let c := p.t * twiceD * q.t
  let e := 2 * p.z * q.z
  ⟨(b - a) * (e - c), (e + c) * (b + a), (e - c) * (e + c), (b - a) * (b + a)⟩

def neg (p : Point) : Point :=
  ⟨-p.x, p.y, p.z, -p.t⟩

def smul (n : Nat) (p : Point) : Point :=
  if _h : n = 0 then zero
  else
    let half := smul (n / 2) (p.add p)
    if n % 2 = 1 then p.add half else half
termination_by n

def encode (p : Point) : Octets :=
  let inv := p.z.inverse
  let x := p.x * inv
  let y := p.y * inv
  Octets.littleEndian 32 (y.val + Nat.pow 2 255 * (x.val % 2))

/--
The point that 32 octets stand for. A vertical coordinate at or above the modulus is reduced, and
the parity bit is ignored where the horizontal coordinate is zero.
-/
def decode? (bytes : Octets) : Option Point :=
  let n := Octets.ofLittleEndian bytes
  let y := Fin.ofNat modulus (n % Nat.pow 2 255)
  let root := Coordinate.sqrtRatio? (y * y - 1) (d * y * y + 1)
  root.map fun x => ofAffine (if n / Nat.pow 2 255 = 1 then -x else x) y

def base : Point :=
  let y := 4 * Coordinate.inverse 5
  ofAffine ((Coordinate.sqrtRatio? (y * y - 1) (d * y * y + 1)).getD 0) y

end Point

end PeerBook.Curve
