import PeerBook.Fault

namespace PeerBook

inductive SkipReason where
  | noCandidates
  | nothingToSend
  deriving DecidableEq, Repr

def SkipReason.text : SkipReason → String
  | .noCandidates => "no candidates"
  | .nothingToSend => "nothing to send"

inductive GossipEvent where
  | roundCompleted (targets records : Nat)
  | roundSkipped (reason : SkipReason)
  | throttled (source : String)
  | malformedPayload (source : String) (fault : Fault)
  | peerDiscovered (identity address : String)
  | endpointChanged (identity address : String)
  | keyMismatch (identity source : String)
  | batchMerged (source : String) (applied stale rejected : Nat)
  deriving DecidableEq, Repr

def GossipEvent.isAlert : GossipEvent → Bool
  | .keyMismatch _ _ => true
  | _ => false

structure EventFeed where
  missed : Nat
  events : List GossipEvent
  deriving DecidableEq, Repr

def EventFeed.capacity : Nat := 256

def EventFeed.ofEvents (events : List GossipEvent) : EventFeed :=
  let missed := events.length - capacity
  ⟨missed, events.drop missed⟩

end PeerBook
