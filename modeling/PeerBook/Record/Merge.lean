import PeerBook.Record

namespace PeerBook

inductive Rejection where
  | stale
  | keyMismatch
  deriving DecidableEq, Repr

inductive Resolution where
  | insert (record : Record)
  | replace (record : Record)
  | reject (why : Rejection)
  deriving DecidableEq, Repr

inductive MergeOutcome where
  | applied
  | rejected (why : Rejection)
  deriving DecidableEq, Repr

def MergeOutcome.text : MergeOutcome → String
  | applied => "applied"
  | rejected .stale => "rejected-stale"
  | rejected .keyMismatch => "rejected-key-mismatch"

namespace Resolution

def outcome : Resolution → MergeOutcome
  | insert _ | replace _ => .applied
  | reject why => .rejected why

def record? : Resolution → Option Record
  | insert r | replace r => some r
  | reject _ => none

end Resolution

namespace Record

def contradicts (stored incoming : Record) : Bool :=
  stored.publicKey != "" && incoming.publicKey != "" && stored.publicKey != incoming.publicKey

/-- The stored identity, key and hint last; the rest comes from the incoming record. -/
def updated (stored incoming : Record) : Record where
  identity := stored.identity
  address := incoming.address
  port := incoming.port
  publicKey := if stored.publicKey = "" then incoming.publicKey else stored.publicKey
  contactHint := incoming.contactHint.or stored.contactHint
  lastSeen := incoming.lastSeen
  synced := incoming.synced

end Record

/-- A stored key is pinned: a record with another key is turned away, whatever its time. -/
def resolveMerge (stored : Option Record) (incoming : Record) : Resolution :=
  match stored with
  | none => .insert incoming
  | some stored =>
    if stored.contradicts incoming then .reject .keyMismatch
    else if incoming.lastSeen ≤ stored.lastSeen then .reject .stale
    else .replace (stored.updated incoming)

structure MergeReport where
  outcome : MergeOutcome
  previous : Option Record
  deriving DecidableEq, Repr

namespace MergeReport

def firstEncounter (report : MergeReport) : Bool :=
  report.outcome = .applied && report.previous.isNone

def movedEndpoint (report : MergeReport) (incoming : Record) : Bool :=
  match report.outcome, report.previous with
  | .applied, some previous => previous.endpointDiffers incoming
  | _, _ => false

end MergeReport

end PeerBook
