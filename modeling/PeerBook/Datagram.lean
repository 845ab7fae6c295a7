import PeerBook.Identity
import PeerBook.Json.Parser

namespace PeerBook

structure Datagram where
  kind : String
  sender : String
  publicKey : String
  timestamp : Timestamp
  body : String
  signature : String
  deriving DecidableEq, Repr

namespace Datagram

def maxDrift : Timestamp := 60000

def measured (text : String) : Octets :=
  let octets := utf8 text
  Octets.littleEndian 4 octets.length ++ octets

/-- Every text stands behind its length, so that no two datagrams share what is signed. -/
def signedOctets (d : Datagram) : Octets :=
  measured d.kind ++ measured d.sender ++ measured d.publicKey ++
    Octets.littleEndian 8 d.timestamp.toNat ++ measured d.body

def sealed (scheme : SignatureScheme) (seed : Seed) (kind body : String) (timestamp : Timestamp) :
    Datagram :=
  let unsigned : Datagram :=
    { kind, sender := scheme.identity seed, publicKey := scheme.keyText seed, timestamp, body,
      signature := "" }
  { unsigned with signature := scheme.signText seed unsigned.signedOctets }

def verify (scheme : SignatureScheme) (now : Timestamp) (d : Datagram) : Except Fault Unit := do
  let drift := Timestamp.distance now d.timestamp
  if maxDrift < drift then throw (.clockDrift drift)
  if d.sender ≠ keyHash d.publicKey then throw (.senderMismatch d.sender)
  scheme.verify d.publicKey d.signedOctets d.signature

def toJson (d : Datagram) : Json :=
  .object [
    ("type", .text d.kind),
    ("from", .text d.sender),
    ("pubkey", .text d.publicKey),
    ("timestamp", .nat d.timestamp.toNat),
    ("data", .text d.body),
    ("signature", .text d.signature)]

def encode (d : Datagram) : Octets :=
  utf8 d.toJson.compact

def ofJson? (value : Json) : Option Datagram := do
  let [some kind, some sender, some key, some timestamp, some body, some signature] ←
    value.distinctFields? ["type", "from", "pubkey", "timestamp", "data", "signature"] | none
  return {
    kind := ← kind.asText?
    sender := ← sender.asText?
    publicKey := ← key.asText?
    timestamp := ← timestamp.asUInt64?
    body := ← body.asText?
    signature := ← signature.asText? }

def decode (wire : Octets) : Except Fault Datagram :=
  match (Json.ofOctets? wire).bind ofJson? with
  | some d => .ok d
  | none => .error .undecodableDatagram

def opened (scheme : SignatureScheme) (wire : Octets) (now : Timestamp) :
    Except Fault Datagram := do
  let d ← decode wire
  d.verify scheme now
  return d

end Datagram

end PeerBook
