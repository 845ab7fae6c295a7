import PeerBook.Store

namespace PeerBook

structure FaultyStore (σ : Type) where
  inner : σ
  /-- The identities whose merges are refused. -/
  merges : List String := []
  trims : Bool := false
  reads : Bool := false

namespace FaultyStore

variable {σ : Type} [RecordStore σ]

def refusal : Fault :=
  .storeRefused "injected"

def refuseIf {α : Type} (refused : Bool) (result : Except Fault α) : Except Fault α :=
  if refused then .error refusal else result

def withInner (s : FaultyStore σ) (inner : σ) : FaultyStore σ :=
  { s with inner }

instance : RecordStore (FaultyStore σ) where
  get? s identity := refuseIf s.reads (RecordStore.get? s.inner identity)
  upsert s r := (RecordStore.upsert s.inner r).map s.withInner
  merge s r := refuseIf (s.merges.contains r.identity) <|
    (RecordStore.merge s.inner r).map fun (report, inner) => (report, s.withInner inner)
  recent s count := refuseIf s.reads (RecordStore.recent s.inner count)
  trim s := refuseIf s.trims <|
    (RecordStore.trim s.inner).map fun (evicted, inner) => (evicted, s.withInner inner)
  sweep s olderThan :=
    (RecordStore.sweep s.inner olderThan).map fun (removed, inner) => (removed, s.withInner inner)
  remove s identity :=
    (RecordStore.remove s.inner identity).map fun (existed, inner) => (existed, s.withInner inner)
  size s := RecordStore.size s.inner
  capacity s := RecordStore.capacity s.inner

end FaultyStore

end PeerBook
