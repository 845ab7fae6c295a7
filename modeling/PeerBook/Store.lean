import PeerBook.Fault
import PeerBook.Record.Merge

namespace PeerBook

def defaultCapacity : Nat := 2500

/-- A call that fails leaves the store as it was. -/
class RecordStore (σ : Type) where
  get? : σ → (identity : String) → Except Fault (Option Record)
  upsert : σ → Record → Except Fault σ
  merge : σ → Record → Except Fault (MergeReport × σ)
  recent : σ → (count : Nat) → Except Fault (List Record)
  trim : σ → Except Fault (Nat × σ)
  sweep : σ → Timestamp → Except Fault (Nat × σ)
  remove : σ → (identity : String) → Except Fault (Bool × σ)
  size : σ → Except Fault Nat
  capacity : σ → Nat

namespace RecordStore

variable {σ : Type} [RecordStore σ]

def all (store : σ) : Except Fault (List Record) :=
  recent store (capacity store)

def isEmpty (store : σ) : Except Fault Bool :=
  (size store).map (· == 0)

end RecordStore

end PeerBook
