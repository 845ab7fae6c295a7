import PeerBook.Fault
import PeerBook.Record

namespace PeerBook

/-- Single requests to a store and a directory; other work may come between any two of them. A script
ends with the first request to the store that fails. -/
inductive Script (α : Type) where
  | done (result : α)
  | get (identity : String) (next : Option Record → Script α)
  | upsert (record : Record) (next : Unit → Script α)
  | trim (next : Nat → Script α)
  | lookup (identity : String) (next : Option Record → Script α)
  | publish (identity : String) (record : Record) (next : Bool → Script α)

namespace Script

variable {α β ω : Type}

def bind : Script α → (α → Script β) → Script β
  | done a, f => f a
  | get identity next, f => .get identity fun x => (next x).bind f
  | upsert r next, f => .upsert r fun x => (next x).bind f
  | trim next, f => .trim fun x => (next x).bind f
  | lookup identity next, f => .lookup identity fun x => (next x).bind f
  | publish identity r next, f => .publish identity r fun x => (next x).bind f

instance : Monad Script where
  pure := done
  bind := bind

def get? (identity : String) : Script (Option Record) :=
  .get identity done

def put (r : Record) : Script Unit :=
  .upsert r done

def trimmed : Script Nat :=
  .trim done

def lookup? (identity : String) : Script (Option Record) :=
  .lookup identity done

def published (identity : String) (r : Record) : Script Bool :=
  .publish identity r done

structure Host (ω : Type) where
  get? : ω → String → Except Fault (Option Record)
  upsert : ω → Record → Except Fault ω
  trim : ω → Except Fault (Nat × ω)
  lookup : ω → String → Option Record × ω
  publish : ω → String → Record → Bool × ω

def run (host : Host ω) : Script α → ω → Except Fault α × ω
  | done a, w => (.ok a, w)
  | get identity next, w =>
    match host.get? w identity with
    | .ok found => (next found).run host w
    | .error fault => (.error fault, w)
  | upsert r next, w =>
    match host.upsert w r with
    | .ok w => (next ()).run host w
    | .error fault => (.error fault, w)
  | trim next, w =>
    match host.trim w with
    | .ok (evicted, w) => (next evicted).run host w
    | .error fault => (.error fault, w)
  | lookup identity next, w =>
    let (found, w) := host.lookup w identity
    (next found).run host w
  | publish identity r next, w =>
    let (accepted, w) := host.publish w identity r
    (next accepted).run host w

end Script

end PeerBook
