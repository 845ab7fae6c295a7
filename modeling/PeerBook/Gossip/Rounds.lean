import PeerBook.Gossip
import PeerBook.Ticker.Schedule

namespace PeerBook

namespace GossipConfig

def ticker [Timer] (c : GossipConfig) (now : Nat) : Ticker :=
  .delayed now (Timer.wait (secondsToMillis c.startupDelaySecs))
    (Timer.wait (secondsToMillis c.syncIntervalSecs))

end GossipConfig

namespace Gossiper

variable {σ : Type} [RecordStore σ]

def backgroundRound (draws : Nat → Draws) (g : Gossiper σ) (now : Nat) : Gossiper σ :=
  (g.round (draws now) now).2

def rounds (draws : Nat → Draws) (g : Gossiper σ) (times : List Nat) : Gossiper σ :=
  times.foldl (backgroundRound draws) g

end Gossiper

structure GossipHost (σ : Type) where
  gossiper : Gossiper σ
  tasks : Schedule Unit := {}
  clock : Nat := 0

namespace GossipHost

variable {σ : Type} [RecordStore σ]

def startTask [Timer] (host : GossipHost σ) : GossipHost σ :=
  { host with tasks := host.tasks.start () (host.gossiper.config.ticker host.clock) }

def stopTask (host : GossipHost σ) : GossipHost σ :=
  { host with tasks := host.tasks.cancel () }

/--
Lets the tasks do what is due before `limit`, every round at its own time. Those that have been told
to stop are woken first.
-/
def runUntil (host : GossipHost σ) (limit : Nat) (draws : Nat → Draws) : GossipHost σ :=
  let (rounds, tasks) := (host.tasks.obey host.clock (draws host.clock).timerFirst).run limit
  { host with gossiper := host.gossiper.rounds draws (rounds.map Prod.fst), tasks }

def advance (host : GossipHost σ) (milliseconds : Nat) (draws : Nat → Draws) : GossipHost σ :=
  if milliseconds = 0 then host
  else
    let clock := host.clock + milliseconds
    { host.runUntil clock draws with clock }

/--
Stops the latest task for good and gives its handle up. If the task has to be waited for, the others
do what is due meanwhile.
-/
def shutdownTask (host : GossipHost σ) (draws : Nat → Draws) : GossipHost σ :=
  let told := host.stopTask
  let rest :=
    if host.tasks.isRunning? () = some true then told.runUntil (host.clock + 1) draws else told
  { rest with tasks := rest.tasks.release () }

def closeTransport (host : GossipHost σ) : GossipHost σ :=
  { host with
    gossiper := { host.gossiper with transport := host.gossiper.transport.close } }

end GossipHost

end PeerBook
