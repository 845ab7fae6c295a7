import PeerBook.Octets
import PeerBook.Record

namespace PeerBook.Codec

abbrev Decoder (α : Type) := Octets → Option (α × Octets)

/-- Groups of seven bits, lowest first. -/
def nat (n : Nat) : Octets :=
  if _h : n < 128 then [UInt8.ofNat n] else UInt8.ofNat (n % 128 + 128) :: nat (n / 128)
termination_by n

def readNat : Decoder Nat
  | [] => none
  | b :: bytes =>
    if b.toNat < 128 then some (b.toNat, bytes)
    else (readNat bytes).map fun (n, rest) => (b.toNat - 128 + 128 * n, rest)

def octets (bytes : Octets) : Octets :=
  nat bytes.length ++ bytes

def readOctets : Decoder Octets := fun bytes => do
  let (length, rest) ← readNat bytes
  let content := rest.take length
  if content.length < length then none
  return (content, rest.drop length)

def text (s : String) : Octets :=
  octets (utf8 s)

def readText : Decoder String := fun bytes => do
  let (content, rest) ← readOctets bytes
  let s ← Octets.text? content
  return (s, rest)

def bool (b : Bool) : Octets :=
  nat b.toNat

def readBool : Decoder Bool := fun bytes => do
  let (n, rest) ← readNat bytes
  if n = 0 then return (false, rest)
  if n = 1 then return (true, rest)
  none

def option {α : Type} (write : α → Octets) : Option α → Octets
  | none => nat 0
  | some x => nat 1 ++ write x

def readOption {α : Type} (read : Decoder α) : Decoder (Option α) := fun bytes => do
  let (present, rest) ← readBool bytes
  if present then (read rest).map fun (x, rest) => (some x, rest) else some (none, rest)

def record (r : Record) : Octets :=
  text r.identity ++ text r.address ++ nat r.port.toNat ++ text r.publicKey ++
    option text r.contactHint ++ nat r.lastSeen.toNat ++ bool r.synced

def readRecord : Decoder Record := fun bytes => do
  let (identity, bytes) ← readText bytes
  let (address, bytes) ← readText bytes
  let (port, bytes) ← readNat bytes
  let (publicKey, bytes) ← readText bytes
  let (contactHint, bytes) ← readOption readText bytes
  let (lastSeen, bytes) ← readNat bytes
  let (synced, bytes) ← readBool bytes
  if UInt16.size ≤ port ∨ UInt64.size ≤ lastSeen then none
  let r : Record :=
    { identity, address, port := UInt16.ofNat port, publicKey, contactHint,
      lastSeen := UInt64.ofNat lastSeen, synced }
  return (r, bytes)

def whole {α : Type} (read : Decoder α) (bytes : Octets) : Option α :=
  match read bytes with
  | some (x, []) => some x
  | _ => none

end PeerBook.Codec
