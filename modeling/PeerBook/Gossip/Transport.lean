namespace PeerBook

structure Outbound where
  address : String
  kind : String
  body : String
  deriving DecidableEq, Repr

def syncKind : String := "PEER_SYNC"

def probeKind : String := "PING"

def probeBody : String := "gossip_discovery"

structure Transport where
  /-- It may also matter how many datagrams were tried before. -/
  takes : (attempt : Nat) → Outbound → Bool := fun _ _ => true
  attempts : Nat := 0
  sent : List Outbound := []

namespace Transport

def send (t : Transport) (datagram : Outbound) : Bool × Transport :=
  let t' := { t with attempts := t.attempts + 1 }
  if t.takes t.attempts datagram then (true, { t' with sent := t.sent ++ [datagram] })
  else (false, t')

def close (t : Transport) : Transport :=
  { t with takes := fun _ _ => false }

def drain (t : Transport) : List Outbound × Transport :=
  (t.sent, { t with sent := [] })

end Transport

end PeerBook
