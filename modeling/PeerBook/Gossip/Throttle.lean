import Std.Data.TreeMap

namespace PeerBook

structure Throttle where
  admitted : Std.TreeMap String Nat := {}
  interval : Nat

namespace Throttle

def purgeSize : Nat := 1024

def isWithin (t : Throttle) (now last : Nat) : Bool :=
  decide (now - last < t.interval)

def admits (t : Throttle) (source : String) (now : Nat) : Bool :=
  match t.admitted[source]? with
  | some last => !t.isWithin now last
  | none => true

def purge (t : Throttle) (now : Nat) : Throttle :=
  if purgeSize ≤ t.admitted.size then
    { t with admitted := t.admitted.filter fun _ last => t.isWithin now last }
  else t

def note (t : Throttle) (source : String) (now : Nat) : Throttle :=
  { t with admitted := t.admitted.insert source now }

/-- Whether `source` is heard at the time `now`, and the throttle after that. -/
def hear (t : Throttle) (source : String) (now : Nat) : Bool × Throttle :=
  if t.admits source now then (true, (t.purge now).note source now) else (false, t)

def tracked (t : Throttle) : Nat :=
  t.admitted.size

end Throttle

end PeerBook
