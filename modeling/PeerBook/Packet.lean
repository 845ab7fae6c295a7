import PeerBook.Fault
import PeerBook.Json.Parser
import PeerBook.Record

namespace PeerBook

structure Packet where
  records : List Record
  dropped : Nat
  deriving DecidableEq, Repr

namespace Packet

def entry (r : Record) : Json :=
  .object [
    ("hash", .text r.identity),
    ("ip", .text r.address),
    ("port", .nat r.port.toNat),
    ("publicKey", .text r.publicKey),
    ("lastSeen", .nat r.lastSeen.toNat)]

/-- Hints and the mark of confirmation are left out. -/
def encode (records : List Record) : String :=
  (Json.object [("nodes", .arr (records.map entry))]).compact

/-- The record of an entry, unless the entry has the wrong shape or lacks an identity or a key. -/
def record? (value : Json) : Option Record := do
  let [hash, ip, port, key, seen] ← value.fields? ["hash", "ip", "port", "publicKey", "lastSeen"]
    | none
  let hash ← Json.fieldOr none (Json.nullable Json.asText?) hash
  let ip ← Json.fieldOr unknownAddress Json.asText? ip
  let port ← Json.fieldOr defaultPort Json.asUInt16? port
  let key ← Json.fieldOr "" Json.asText? key
  let seen ← Json.fieldOr 0 Json.asUInt64? seen
  let identity ← hash
  if Text.isBlank identity || Text.isBlank key then none
  return { identity, address := ip, port, publicKey := key, lastSeen := seen }

def ofEntries (entries : List Json) : Packet where
  records := entries.filterMap record?
  dropped := entries.countP fun value => (record? value).isNone

def ofJson (value : Json) : Except Fault Packet :=
  match value with
  | .obj members =>
    match Json.lookup "nodes" members with
    | some (.arr entries) => .ok (ofEntries entries)
    | _ => .error .payloadWithoutNodes
  | _ => .error .payloadNotObject

def decode (text : String) : Except Fault Packet :=
  match (Json.ofText? text).filter Json.isGeneric with
  | none => .error .payloadNotJson
  | some value => ofJson value

end Packet

end PeerBook
