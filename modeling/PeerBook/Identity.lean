import PeerBook.Curve.Ed25519
import PeerBook.Fault
import PeerBook.Octets.Base64
import PeerBook.Signature

namespace PeerBook

namespace Phone

def digits? (spelling : String) : Option String :=
  let digits := spelling.toList.filter Char.isDigit
  if digits.isEmpty then none else some (String.ofList digits)

def matchDigits : Nat := 10

/-- The trailing digits, in which national and international spellings agree. -/
def matchKey? (spelling : String) : Option String :=
  (digits? spelling).map fun digits =>
    String.ofList (digits.toList.drop (digits.toList.length - matchDigits))

def defaultSalt : String :=
  "D_CHAT_V1_STATIC_SALT_CHANGE_THIS_IN_PROD"

/-- A spelling without digits is hashed as the empty number. -/
def hash (salt spelling : String) : String :=
  let inner := Digest.sha256 (utf8 ((digits? spelling).getD ""))
  Octets.Base64.encode (Digest.sha256 (inner ++ utf8 salt))

end Phone

def keyHash (publicKey : String) : String :=
  Octets.Base64.encode (Digest.sha256 (utf8 publicKey))

def Seed.ofOctets (octets : Octets) : Except Fault Seed :=
  if h : octets.length = 32 then .ok ⟨octets, h⟩ else .error (.seedLength octets.length)

def ed25519 : SignatureScheme where
  publicKey seed := Curve.Ed25519.publicKey seed.octets
  sign seed message := Curve.Ed25519.sign seed.octets message
  isKey := Curve.Ed25519.isKey
  accepts := Curve.Ed25519.accepts

namespace SignatureScheme

variable (scheme : SignatureScheme)

def keyText (seed : Seed) : String :=
  Octets.Base64.encode (scheme.publicKey seed)

def identity (seed : Seed) : String :=
  keyHash (scheme.keyText seed)

def signText (seed : Seed) (message : Octets) : String :=
  Octets.Base64.encode (scheme.sign seed message)

def describe (seed : Seed) : String :=
  "NodeKeypair \x7b public_key: \"" ++ scheme.keyText seed ++ "\", .. \x7d"

/-- The key is judged before the signature is looked at. -/
def verify (publicKey : String) (message : Octets) (signature : String) : Except Fault Unit := do
  let some key := Octets.Base64.decode? publicKey | throw .keyEncoding
  if key.length ≠ 32 then throw .keyLength
  if !scheme.isKey key then throw .keyNotAPoint
  let some octets := Octets.Base64.decode? signature | throw .signatureEncoding
  if octets.length ≠ 64 then throw .signatureLength
  if !scheme.accepts key message octets then throw .signatureMismatch

end SignatureScheme

end PeerBook
