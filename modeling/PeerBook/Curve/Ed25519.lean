import PeerBook.Curve.Edwards
import PeerBook.Digest.Sha2

namespace PeerBook.Curve.Ed25519

def order : Nat :=
  Nat.pow 2 252 + 27742317777372353535851937790883648493

def clamp (n : Nat) : Nat :=
  n % Nat.pow 2 254 / 8 * 8 + Nat.pow 2 254

def secretScalar (seed : Octets) : Nat :=
  clamp (Octets.ofLittleEndian ((Digest.sha512 seed).take 32))

def nonceKey (seed : Octets) : Octets :=
  (Digest.sha512 seed).drop 32

def publicKey (seed : Octets) : Octets :=
  (Point.smul (secretScalar seed) Point.base).encode

def challenge (commitment key message : Octets) : Nat :=
  Octets.ofLittleEndian (Digest.sha512 (commitment ++ key ++ message)) % order

def sign (seed message : Octets) : Octets :=
  let nonce := Octets.ofLittleEndian (Digest.sha512 (nonceKey seed ++ message)) % order
  let commitment := (Point.smul nonce Point.base).encode
  let k := challenge commitment (publicKey seed) message
  commitment ++ Octets.littleEndian 32 ((nonce + k * secretScalar seed) % order)

def isKey (key : Octets) : Bool :=
  (Point.decode? key).isSome

/-- Compares the first half of the signature by its octets, without clearing the cofactor. Keys of
small order and keys in a non-canonical encoding are accepted. -/
def accepts (key message signature : Octets) : Bool :=
  match Point.decode? key with
  | none => false
  | some point =>
    let commitment := signature.take 32
    let s := Octets.ofLittleEndian (signature.drop 32)
    let k := challenge commitment key message
    decide (s < order) &&
      ((Point.smul s Point.base).add (Point.smul k point.neg)).encode == commitment

end PeerBook.Curve.Ed25519
