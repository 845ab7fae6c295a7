import PeerBook.Contacts
import PeerBook.Gossip.Rounds
import PeerBook.Store.Durable

namespace PeerBook

inductive Node.Duty where
  | round
  | sweep
  deriving DecidableEq, Repr

structure Node (σ : Type) where
  config : Config
  publicKey : String
  gossiper : Gossiper σ
  tasks : Schedule Node.Duty := {}

namespace Node

variable {σ : Type} [RecordStore σ]

def identity (n : Node σ) : String :=
  n.gossiper.localIdentity

def store (n : Node σ) : σ :=
  n.gossiper.store

def withStore (n : Node σ) (store : σ) : Node σ :=
  { n with gossiper := { n.gossiper with store } }

def start (config : Config) (publicKey : String) (store : σ) : Node σ where
  config
  publicKey
  gossiper := .start store (keyHash publicKey) config.gossip

def ownRecord (n : Node σ) (address : String) (port : UInt16) (now : Timestamp) : Record :=
  { identity := n.identity, address, port, publicKey := n.publicKey, lastSeen := now }

/--
Stores the node's own record and publishes it, also under the hash of a phone number if one is
given. Tells whether everything was accepted.
-/
def publishSelf (n : Node σ) (phone : Option String) (address : String) (port : UInt16)
    (now : Timestamp) : Script Bool := do
  let own := n.ownRecord address port now
  Script.put own
  let accepted ← Script.published n.identity own
  match phone with
  | none => return accepted
  | some phone =>
    let identity := n.config.phoneHash phone
    let acceptedByPhone ← Script.published identity { own with identity }
    return accepted && acceptedByPhone

def resolve (identity : String) : Script (Option Record) := do
  match ← Script.get? identity with
  | some r => return some r
  | none =>
    match ← Script.lookup? identity with
    | none => return none
    | some r =>
      Script.put r
      let _ ← Script.trimmed
      return some r

def directContact (r : Record) : Script Unit := do
  Script.put r
  let _ ← Script.trimmed

def discover (n : Node σ) (phoneBook : List PhoneBookEntry) : Script (List Contact) :=
  Contacts.discover n.config.identitySalt phoneBook

def staleBefore (n : Node σ) (now : Timestamp) : Timestamp :=
  now.before n.config.staleAfter

def sweepStale (n : Node σ) (now : Timestamp) : Except Fault (Nat × Node σ) :=
  (RecordStore.sweep n.store (n.staleBefore now)).map fun (removed, store) =>
    (removed, n.withStore store)

def startGossip [Timer] (n : Node σ) (now : Nat) : Node σ :=
  { n with tasks := n.tasks.start .round (n.config.gossip.ticker now) }

def startSweeps [Timer] (n : Node σ) (now : Nat) : Node σ :=
  let ticker := .steady now (Timer.wait (secondsToMillis n.config.sweepIntervalSecs))
  { n with tasks := n.tasks.start .sweep ticker }

def isBusy (n : Node σ) (duty : Duty) : Bool :=
  n.tasks.isRunning? duty == some true

def tell (n : Node σ) (duty : Duty) (now : Nat) (timerFirst : Bool) : Node σ :=
  { n with tasks := (n.tasks.cancel duty).obey now timerFirst }

def release (n : Node σ) (duty : Duty) : Node σ :=
  { n with tasks := n.tasks.release duty }

def perform (draws : Nat → Draws) (today : Timestamp) (n : Node σ) (duty : Nat × Duty) : Node σ :=
  match duty.2 with
  | .round => { n with gossiper := n.gossiper.backgroundRound draws duty.1 }
  | .sweep =>
    match n.sweepStale today with
    | .ok (_, n) => n
    | .error _ => n

def runUntil (n : Node σ) (limit : Nat) (draws : Nat → Draws) (today : Timestamp) : Node σ :=
  let (duties, tasks) := n.tasks.run limit
  duties.foldl (perform draws today) { n with tasks }

end Node

namespace DurableStore

def seedOr (s : DurableStore) (fresh : Seed) : Except Fault (Seed × DurableStore) :=
  match s.tables.seed with
  | some octets => (Seed.ofOctets octets).map fun seed => (seed, s)
  | none => .ok (fresh, s.withTables { s.tables with seed := some fresh.octets })

end DurableStore

def Node.opened (scheme : SignatureScheme) (config : Config) (tables : Tables) (fresh : Seed) :
    Except Fault (Node DurableStore) := do
  config.validate
  let (seed, store) ← DurableStore.seedOr ⟨tables, config.capacity.toNat⟩ fresh
  return .start config (scheme.keyText seed) store

/--
Closes a node and opens it again on what it has on disk. A task without a handle goes on, and keeps
the database to itself.
-/
def Node.reopened (scheme : SignatureScheme) (config : Config) (fresh : Seed)
    (n : Node DurableStore) : Except Fault (Node DurableStore) := do
  config.validate
  if n.tasks.hasDetached then throw .databaseInUse
  Node.opened scheme config n.store.tables fresh

end PeerBook
