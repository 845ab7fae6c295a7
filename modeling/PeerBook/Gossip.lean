import PeerBook.Config
import PeerBook.Gossip.Event
import PeerBook.Gossip.Sample
import PeerBook.Gossip.Throttle
import PeerBook.Gossip.Transport
import PeerBook.Packet
import PeerBook.Store
import Std.Data.TreeSet

namespace PeerBook

structure ActivePeer where
  address : String
  lastHeard : Nat
  deriving DecidableEq, Repr

structure BatchSummary where
  received : Nat := 0
  dropped : Nat := 0
  skippedSelf : Nat := 0
  applied : Nat := 0
  discovered : Nat := 0
  stale : Nat := 0
  keyMismatches : Nat := 0
  probesSent : Nat := 0
  failed : Nat := 0
  evicted : Nat := 0
  deriving DecidableEq, Repr

inductive Reception where
  | throttled
  | malformed
  | processed (summary : BatchSummary)
  deriving DecidableEq, Repr

structure Gossiper (σ : Type) where
  store : σ
  localIdentity : String
  config : GossipConfig
  throttle : Throttle
  activePeers : Std.TreeMap String ActivePeer := {}
  transport : Transport := {}
  events : List GossipEvent := []

namespace Gossiper

variable {σ : Type} [RecordStore σ]

def start (store : σ) (localIdentity : String) (config : GossipConfig) : Gossiper σ where
  store
  localIdentity
  config
  throttle := { interval := secondsToMillis config.minSyncIntervalFromPeerSecs }

def emit (g : Gossiper σ) (event : GossipEvent) : Gossiper σ :=
  { g with events := g.events ++ [event] }

def send (g : Gossiper σ) (datagram : Outbound) : Bool × Gossiper σ :=
  let (taken, transport) := g.transport.send datagram
  (taken, { g with transport })

def markActive (g : Gossiper σ) (identity address : String) (now : Nat) : Gossiper σ :=
  { g with activePeers := g.activePeers.insert identity ⟨address, now⟩ }

def markInactive (g : Gossiper σ) (identity : String) : Gossiper σ :=
  { g with activePeers := g.activePeers.erase identity }

def isLive (g : Gossiper σ) (now : Nat) (peer : ActivePeer) : Bool :=
  decide (now - peer.lastHeard < secondsToMillis g.config.activePeerTimeoutSecs)

def expireInactive (g : Gossiper σ) (now : Nat) : Nat × Gossiper σ :=
  let live := g.activePeers.filter fun _ peer => g.isLive now peer
  (g.activePeers.size - live.size, { g with activePeers := live })

/-- The active peers or, if there are none, the peers most recently seen; never the node itself. -/
def candidates (g : Gossiper σ) : Except Fault (List String) := do
  let active := g.activePeers.keys.filter (· != g.localIdentity)
  if !active.isEmpty then return active
  let stored ← RecordStore.recent g.store g.config.bootstrapSample.toNat
  let identities := (stored.map Record.identity).filter (· != g.localIdentity)
  return (Std.TreeSet.ofList identities).toList

/-- The address at which a target is live, else the endpoint of its record. -/
def addressOf (g : Gossiper σ) (target : String) : Except Fault (Option String) :=
  if target = g.localIdentity then .ok none
  else
    match (g.activePeers[target]?.map ActivePeer.address).filter isRoutable with
    | some address => .ok (some address)
    | none => (RecordStore.get? g.store target).map fun r => r.bind Record.endpoint?

def sendAll (packet : String) : (targets : List String) → (sent : Nat) → Gossiper σ →
    Except Fault Nat × Gossiper σ
  | [], sent, g => (.ok sent, g)
  | target :: targets, sent, g =>
    match g.addressOf target with
    | .error fault => (.error fault, g)
    | .ok none => sendAll packet targets sent g
    | .ok (some address) =>
      let (taken, g) := g.send ⟨address, syncKind, packet⟩
      sendAll packet targets (if taken then sent + 1 else sent) g

def round (g : Gossiper σ) (draws : Draws) (now : Nat) : Except Fault Nat × Gossiper σ :=
  let g := (g.expireInactive now).2
  match g.candidates with
  | .error fault => (.error fault, g)
  | .ok [] => (.ok 0, g.emit (.roundSkipped .noCandidates))
  | .ok candidates =>
    let targets := sample g.config.fanout.toNat draws.targets candidates
    match RecordStore.all g.store with
    | .error fault => (.error fault, g)
    | .ok stored =>
      let records := sample g.config.maxNodesPerPacket.toNat draws.records stored
      if records.isEmpty then (.ok 0, g.emit (.roundSkipped .nothingToSend))
      else
        match sendAll (Packet.encode records) targets 0 g with
        | (.error fault, g) => (.error fault, g)
        | (.ok sent, g) => (.ok sent, g.emit (.roundCompleted sent records.length))

def probe (g : Gossiper σ) (r : Record) : Bool × Gossiper σ :=
  match r.endpoint? with
  | none => (false, g)
  | some address => g.send ⟨address, probeKind, probeBody⟩

def mergeOne (source : String) (state : BatchSummary × Gossiper σ) (r : Record) :
    BatchSummary × Gossiper σ :=
  let (summary, g) := state
  if r.identity = g.localIdentity then
    ({ summary with skippedSelf := summary.skippedSelf + 1 }, g)
  else
    match RecordStore.merge g.store r with
    | .error _ => ({ summary with failed := summary.failed + 1 }, g)
    | .ok (report, store) =>
      let g := { g with store }
      match report.outcome with
      | .rejected .stale => ({ summary with stale := summary.stale + 1 }, g)
      | .rejected .keyMismatch =>
        ({ summary with keyMismatches := summary.keyMismatches + 1 },
          g.emit (.keyMismatch r.identity source))
      | .applied =>
        let summary := { summary with applied := summary.applied + 1 }
        if report.firstEncounter then
          let (probed, g) := g.probe r
          ({ summary with
              discovered := summary.discovered + 1,
              probesSent := summary.probesSent + probed.toNat },
            g.emit (.peerDiscovered r.identity r.address))
        else if report.movedEndpoint r then
          let (probed, g) := g.probe r
          ({ summary with probesSent := summary.probesSent + probed.toNat },
            g.emit (.endpointChanged r.identity r.address))
        else (summary, g)

/-- Evicts what is beyond the capacity; a store that fails to do so is left alone. -/
def trimStore (g : Gossiper σ) : Nat × Gossiper σ :=
  match RecordStore.trim g.store with
  | .ok (evicted, store) => (evicted, { g with store })
  | .error _ => (0, g)

def receive (g : Gossiper σ) (text source : String) (now : Nat) : Reception × Gossiper σ :=
  let (heard, throttle) := g.throttle.hear source now
  let g := { g with throttle }
  if !heard then (.throttled, g.emit (.throttled source))
  else
    match Packet.decode text with
    | .error fault => (.malformed, g.emit (.malformedPayload source fault))
    | .ok packet =>
      let opening := { received := packet.records.length, dropped := packet.dropped }
      let (summary, g) := packet.records.foldl (mergeOne source) (opening, g)
      let (evicted, g) := g.trimStore
      let summary := { summary with evicted }
      (.processed summary,
        g.emit (.batchMerged source summary.applied summary.stale summary.keyMismatches))

end Gossiper

end PeerBook
