import PeerBook.Proofs.Gossip.Reception
import PeerBook.Proofs.Store.CacheLike
import Mathlib.Logic.Function.Basic

namespace PeerBook

abbrev Network {ι : Type} (σ : ι → Type) :=
  (i : ι) → Gossiper (σ i)

namespace Network

/-- What happens in a network. The times are those of the nodes' own clocks. -/
inductive Act (ι : Type) where
  | upsert (i : ι) (record : Record)
  | tend (i : ι) (call : Call)
  | tick (i : ι) (draws : Draws) (now : Nat)
  | deliver (i : ι) (text source : String) (now : Nat)

def Act.stored? {ι : Type} : Act ι → Option Record
  | upsert _ r => some r
  | tend .. | tick .. | deliver .. => none

def origins {ι : Type} (acts : List (Act ι)) : List Record :=
  acts.filterMap Act.stored?

variable {ι : Type} [DecidableEq ι] {σ : ι → Type} [∀ i, CacheLike (σ i)]

def Sent (net : Network σ) (text : String) : Prop :=
  ∃ i, ∃ d ∈ (net i).transport.sent, d.kind = syncKind ∧ d.body = text

def setStore (net : Network σ) (i : ι) (store : σ i) : Network σ :=
  Function.update net i { net i with store }

inductive Step (net : Network σ) : Act ι → Network σ → Prop
  | upsert {i : ι} {r : Record} {store : σ i} (h : RecordStore.upsert (net i).store r = .ok store) :
      Step net (.upsert i r) (net.setStore i store)
  | tend (i : ι) {call : Call} (h : call.written? = none) :
      Step net (.tend i call) (net.setStore i (StoreKind.perform (net i).store call).2)
  | tick (i : ι) (draws : Draws) (now : Nat) :
      Step net (.tick i draws now) (Function.update net i ((net i).round draws now).2)
  | deliver (i : ι) {text : String} (source : String) (now : Nat) (h : net.Sent text) :
      Step net (.deliver i text source now)
        (Function.update net i ((net i).receive text source now).2)

inductive Run (start : Network σ) : List (Act ι) → Network σ → Prop
  | start : Run start [] start
  | step {acts : List (Act ι)} {net next : Network σ} {act : Act ι} :
      Run start acts net → Step net act next → Run start (acts ++ [act]) next

structure Fresh (net : Network σ) : Prop where
  store (i : ι) : ∃ capacity, (net i).store = StoreKind.empty capacity
  sent (i : ι) : (net i).transport.sent = []

end Network

end PeerBook
