import PeerBook.Store.Durable

namespace PeerBook.Tables

def imageEntries (entries : List (String × Octets)) : Octets :=
  Codec.nat entries.length ++
    entries.flatMap fun (identity, r) => Codec.text identity ++ Codec.octets r

/-- How the file begins; it cannot be taken for text. -/
def imageMark : Octets := [0x70, 0x65, 0x65, 0x72, 0xa9, 0x0d, 0x0a, 0x1a, 0x0a]

/-- The index is not kept: it follows from the records. -/
def image (t : Tables) : Octets :=
  imageMark ++ Codec.option Codec.octets t.seed ++ imageEntries t.records.toList

def readEntries : (count : Nat) → Codec.Decoder (List (String × Octets))
  | 0, bytes => some ([], bytes)
  | count + 1, bytes => do
    let (identity, bytes) ← Codec.readText bytes
    let (r, bytes) ← Codec.readOctets bytes
    let (entries, bytes) ← readEntries count bytes
    return ((identity, r) :: entries, bytes)

def indexOf (entries : List (String × Octets)) : RecencyIndex :=
  .ofList (entries.filterMap fun (_, bytes) =>
    (Codec.whole Codec.readRecord bytes).map Record.stamp)

def readImage : Codec.Decoder Tables := fun bytes => do
  let (seed, bytes) ← Codec.readOption Codec.readOctets bytes
  let (count, bytes) ← Codec.readNat bytes
  let (entries, bytes) ← readEntries count bytes
  return ({ records := .ofList entries, index := indexOf entries, seed }, bytes)

def ofImage? (bytes : Octets) : Option Tables :=
  if bytes.isEmpty then some {}
  else if bytes.take imageMark.length = imageMark then
    Codec.whole readImage (bytes.drop imageMark.length)
  else none

end PeerBook.Tables
