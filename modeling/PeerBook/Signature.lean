import PeerBook.Octets

namespace PeerBook

structure Seed where
  octets : Octets
  length_eq : octets.length = 32
  deriving DecidableEq

structure SignatureScheme where
  publicKey : Seed → Octets
  sign : Seed → Octets → Octets
  /-- Whether 32 octets are a public key at all. -/
  isKey : Octets → Bool
  /-- Whether a key accepts a message with a signature. -/
  accepts : (key message signature : Octets) → Bool

end PeerBook
