import PeerBook.Directory.Backend
import PeerBook.Node

namespace PeerBook

structure Cluster (σ β : Type) where
  nodes : List (Node σ)
  directory : β
  clock : Nat := 0
  today : Timestamp

namespace Cluster

variable {σ β : Type} [RecordStore σ] [DirectoryBackend β]

def setNode (c : Cluster σ β) (i : Nat) (n : Node σ) : Cluster σ β :=
  { c with nodes := c.nodes.set i n }

def runUntil (c : Cluster σ β) (limit : Nat) (draws : Nat → Draws) : Cluster σ β :=
  { c with nodes := c.nodes.map fun n => n.runUntil limit draws c.today }

/-- Lets time pass. What falls due at the very end is left for later. -/
def advance (c : Cluster σ β) (milliseconds : Nat) (draws : Nat → Draws) : Cluster σ β :=
  if milliseconds = 0 then c
  else
    let clock := c.clock + milliseconds
    { c.runUntil clock draws with clock }

def stop (c : Cluster σ β) (i : Nat) (duty : Node.Duty) (draws : Nat → Draws) : Cluster σ β :=
  match c.nodes[i]? with
  | none => c
  | some n =>
    let told := c.setNode i (n.tell duty c.clock (draws c.clock).timerFirst)
    let rest := if n.isBusy duty then told.runUntil (c.clock + 1) draws else told
    { rest with nodes := rest.nodes.modify i fun n => n.release duty }

def await {α : Type} (c : Cluster σ β) (draws : Nat → Draws) (answer : Directory.Answer α β) :
    α × Cluster σ β :=
  (answer.outcome, { c with directory := answer.backend }.advance answer.elapsed draws)

def timeoutOf (n : Node σ) : Nat :=
  secondsToMillis n.config.directoryTimeoutSecs

def host [Timer] (i : Nat) (n : Node σ) (draws : Nat → Draws) : Script.Host (Cluster σ β) where
  get? c identity := RecordStore.get? ((c.nodes[i]?.getD n).store) identity
  upsert c r :=
    let node := c.nodes[i]?.getD n
    (RecordStore.upsert node.store r).map fun store => c.setNode i (node.withStore store)
  trim c :=
    let node := c.nodes[i]?.getD n
    (RecordStore.trim node.store).map fun (evicted, store) =>
      (evicted, c.setNode i (node.withStore store))
  lookup c identity := c.await draws (Directory.lookup (timeoutOf n) c.directory identity)
  publish c identity r := c.await draws (Directory.publish (timeoutOf n) c.directory identity r)

def reopen (c : Cluster DurableStore β) (i : Nat) (scheme : SignatureScheme) (config : Config)
    (fresh : Seed) (draws : Nat → Draws) : Except Fault (Cluster DurableStore β) :=
  let c := (c.stop i .round draws).stop i .sweep draws
  match c.nodes[i]? with
  | none => .ok c
  | some n => (n.reopened scheme config fresh).map (c.setNode i)

end Cluster

end PeerBook
