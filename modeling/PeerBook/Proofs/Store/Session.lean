import PeerBook.Proofs.Record.Absorption
import PeerBook.Proofs.Store.Cache
import PeerBook.Store.Durable
import PeerBook.Store.Memory

namespace PeerBook

/-- A kind of store: how it begins, and how it goes on after it was closed, under the same capacity
or another one. -/
class StoreKind (σ : Type) extends RecordStore σ where
  empty : (capacity : Nat) → σ
  reopen : σ → (capacity : Nat) → σ

instance : StoreKind MemoryStore where
  empty := MemoryStore.empty
  reopen s capacity := { s with capacity }

instance : StoreKind DurableStore where
  empty := DurableStore.empty
  reopen := DurableStore.reopen

instance : StoreKind Cache where
  empty := Cache.empty
  reopen C capacity := { C with capacity }

inductive Call where
  | get (identity : String)
  | upsert (record : Record)
  | merge (record : Record)
  | recent (count : Nat)
  | all
  | trim
  | sweep (olderThan : Timestamp)
  | remove (identity : String)
  | size
  | isEmpty
  /-- Closes the store and opens it again, under its old capacity if no other is given. -/
  | reopen (capacity : Option Nat)
  deriving DecidableEq, Repr

def Call.written? : Call → Option Record
  | upsert r | merge r => some r
  | _ => none

inductive Answer where
  | done
  | found (record : Option Record)
  | listed (records : List Record)
  | merged (report : MergeReport)
  | counted (n : Nat)
  | told (b : Bool)
  deriving DecidableEq, Repr

namespace StoreKind

variable {σ τ υ α : Type}

/-- A call that fails leaves the store as it was. -/
def settle (answer : α → Answer) (s : σ) : Except Fault (α × σ) → Except Fault Answer × σ
  | .ok (a, s) => (.ok (answer a), s)
  | .error fault => (.error fault, s)

section Calls

variable [StoreKind σ]

open RecordStore in
def perform (s : σ) : Call → Except Fault Answer × σ
  | .get identity => ((get? s identity).map .found, s)
  | .upsert r => settle (fun () => .done) s ((upsert s r).map fun s => ((), s))
  | .merge r => settle .merged s (merge s r)
  | .recent count => ((recent s count).map .listed, s)
  | .all => ((all s).map .listed, s)
  | .trim => settle .counted s (trim s)
  | .sweep olderThan => settle .counted s (sweep s olderThan)
  | .remove identity => settle .told s (remove s identity)
  | .size => ((size s).map .counted, s)
  | .isEmpty => ((isEmpty s).map .told, s)
  | .reopen new => (.ok .done, reopen s (new.getD (capacity s)))

def after (s : σ) (calls : List Call) : σ :=
  calls.foldl (fun s call => (perform s call).2) s

def answers (s : σ) : List Call → List (Except Fault Answer)
  | [] => []
  | call :: calls => (perform s call).1 :: answers (perform s call).2 calls

@[simp] theorem after_cons (s : σ) (call : Call) (calls : List Call) :
    after s (call :: calls) = after (perform s call).2 calls := rfl

theorem after_append (s : σ) (calls more : List Call) :
    after s (calls ++ more) = after (after s calls) more :=
  List.foldl_append

/-- What every call preserves still holds at the end. -/
theorem after_of_perform {P : σ → Prop} (h : ∀ s, P s → ∀ call, P (perform s call).2) {s : σ}
    (hs : P s) (calls : List Call) : P (after s calls) := by
  induction calls generalizing s with
  | nil => exact hs
  | cons call calls ih => exact ih (h s hs call)

end Calls

inductive Alike (rel : σ → τ → Prop) : Except Fault (α × σ) → Except Fault (α × τ) → Prop
  | error (fault : Fault) : Alike rel (.error fault) (.error fault)
  | ok (a : α) {s : σ} {t : τ} (h : rel s t) : Alike rel (.ok (a, s)) (.ok (a, t))

theorem Alike.settle {rel : σ → τ → Prop} {s : σ} {t : τ} {x : Except Fault (α × σ)}
    {y : Except Fault (α × τ)} (h : Alike rel x y) (hst : rel s t) (answer : α → Answer) :
    (settle answer s x).1 = (StoreKind.settle answer t y).1 ∧
      rel (StoreKind.settle answer s x).2 (StoreKind.settle answer t y).2 := by
  cases h with
  | error fault => exact ⟨rfl, hst⟩
  | ok a h => exact ⟨rfl, h⟩

theorem Alike.exists_ok {rel : σ → τ → Prop} {x : Except Fault (α × σ)} {a : α} {t : τ}
    (h : Alike rel x (.ok (a, t))) : ∃ s, x = .ok (a, s) ∧ rel s t := by
  cases h with
  | ok _ hst => exact ⟨_, rfl, hst⟩

theorem Alike.trans {rel : σ → τ → Prop} {rel' : τ → υ → Prop} {x : Except Fault (α × σ)}
    {y : Except Fault (α × τ)} {z : Except Fault (α × υ)} (h : Alike rel x y)
    (h' : Alike rel' y z) :
    Alike (fun s u => ∃ t, rel s t ∧ rel' t u) x z := by
  cases h with
  | error fault => cases h'; exact .error fault
  | ok a h =>
      cases h' with
      | ok a h' => exact .ok a ⟨_, h, h'⟩

open RecordStore in
/-- Related stores answer every single call alike and stay related. -/
structure Lockstep [StoreKind σ] [StoreKind τ] (rel : σ → τ → Prop) : Prop where
  empty (c : Nat) : rel (empty c) (empty c)
  reopen {s : σ} {t : τ} (h : rel s t) (c : Nat) : rel (reopen s c) (reopen t c)
  capacity {s : σ} {t : τ} (h : rel s t) : capacity s = capacity t
  get? {s : σ} {t : τ} (h : rel s t) (identity : String) : get? s identity = get? t identity
  recent {s : σ} {t : τ} (h : rel s t) (count : Nat) : recent s count = recent t count
  size {s : σ} {t : τ} (h : rel s t) : size s = size t
  upsert {s : σ} {t : τ} (h : rel s t) (r : Record) :
    Alike rel ((upsert s r).map fun s => ((), s)) ((upsert t r).map fun t => ((), t))
  merge {s : σ} {t : τ} (h : rel s t) (r : Record) : Alike rel (merge s r) (merge t r)
  trim {s : σ} {t : τ} (h : rel s t) : Alike rel (trim s) (trim t)
  sweep {s : σ} {t : τ} (h : rel s t) (olderThan : Timestamp) :
    Alike rel (sweep s olderThan) (sweep t olderThan)
  remove {s : σ} {t : τ} (h : rel s t) (identity : String) :
    Alike rel (remove s identity) (remove t identity)

namespace Lockstep

variable [StoreKind σ] [StoreKind τ] [StoreKind υ] {rel : σ → τ → Prop} {rel' : τ → υ → Prop}
  {s : σ} {t : τ}

theorem perform (L : Lockstep rel) (h : rel s t) (call : Call) :
    (perform s call).1 = (StoreKind.perform t call).1 ∧
      rel (StoreKind.perform s call).2 (StoreKind.perform t call).2 := by
  cases call with
  | get identity => exact ⟨congrArg (Except.map Answer.found) (L.get? h identity), h⟩
  | upsert r => exact (L.upsert h r).settle h _
  | merge r => exact (L.merge h r).settle h _
  | recent count => exact ⟨congrArg (Except.map Answer.listed) (L.recent h count), h⟩
  | all =>
      refine ⟨?_, h⟩
      simp only [StoreKind.perform, RecordStore.all, L.capacity h, L.recent h]
  | trim => exact (L.trim h).settle h _
  | sweep olderThan => exact (L.sweep h olderThan).settle h _
  | remove identity => exact (L.remove h identity).settle h _
  | size => exact ⟨congrArg (Except.map Answer.counted) (L.size h), h⟩
  | isEmpty =>
      refine ⟨?_, h⟩
      simp only [StoreKind.perform, RecordStore.isEmpty, L.size h]
  | reopen new =>
      refine ⟨rfl, ?_⟩
      simp only [StoreKind.perform, L.capacity h]
      exact L.reopen h _

theorem after (L : Lockstep rel) (h : rel s t) (calls : List Call) :
    rel (after s calls) (StoreKind.after t calls) := by
  induction calls generalizing s t with
  | nil => exact h
  | cons call calls ih => exact ih (L.perform h call).2

theorem answers_eq (L : Lockstep rel) (h : rel s t) (calls : List Call) :
    answers s calls = answers t calls := by
  induction calls generalizing s t with
  | nil => rfl
  | cons call calls ih =>
      rw [answers, answers, (L.perform h call).1, ih (L.perform h call).2]

theorem trans (L : Lockstep rel) (L' : Lockstep rel') :
    Lockstep fun s u => ∃ t, rel s t ∧ rel' t u where
  empty c := ⟨_, L.empty c, L'.empty c⟩
  reopen := fun ⟨_, h, h'⟩ c => ⟨_, L.reopen h c, L'.reopen h' c⟩
  capacity := fun ⟨_, h, h'⟩ => (L.capacity h).trans (L'.capacity h')
  get? := fun ⟨_, h, h'⟩ identity => (L.get? h identity).trans (L'.get? h' identity)
  recent := fun ⟨_, h, h'⟩ count => (L.recent h count).trans (L'.recent h' count)
  size := fun ⟨_, h, h'⟩ => (L.size h).trans (L'.size h')
  upsert := fun ⟨_, h, h'⟩ r => (L.upsert h r).trans (L'.upsert h' r)
  merge := fun ⟨_, h, h'⟩ r => (L.merge h r).trans (L'.merge h' r)
  trim := fun ⟨_, h, h'⟩ => (L.trim h).trans (L'.trim h')
  sweep := fun ⟨_, h, h'⟩ olderThan => (L.sweep h olderThan).trans (L'.sweep h' olderThan)
  remove := fun ⟨_, h, h'⟩ identity => (L.remove h identity).trans (L'.remove h' identity)

end Lockstep

end StoreKind

namespace Cache

open StoreKind

variable {C : Cache} {r : Record}

theorem find?_identity {identity : String} : ∀ s ∈ C.find? identity, s.identity = identity :=
  fun _ hs => (find?_eq_some_iff.mp hs).2

theorem perform_upsert (h : r.identity ≠ "") : perform C (.upsert r) = (.ok .done, C.put r) := by
  simp only [perform, RecordStore.upsert, if_neg h]
  rfl

theorem perform_merge (h : r.identity ≠ "") :
    perform C (.merge r) =
      (.ok (.merged ⟨(resolveMerge (C.find? r.identity) r).outcome, C.find? r.identity⟩),
        (resolveMerge (C.find? r.identity) r).record?.elim C C.put) := by
  simp only [perform, RecordStore.merge, if_neg h]
  rfl

theorem perform_nameless {call : Call} (hcall : call.written? = some r) (h : r.identity = "") :
    perform C call = (.error .emptyIdentity, C) := by
  cases call with
  | upsert r' | merge r' =>
      cases hcall
      simp only [perform, RecordStore.upsert, RecordStore.merge, if_pos h]
      rfl
  | _ => cases hcall

/-- Nothing fails but storing a record without an identity. -/
theorem perform_eq_error_iff {call : Call} {fault : Fault} :
    (perform C call).1 = .error fault ↔
      fault = .emptyIdentity ∧ ∃ r, call.written? = some r ∧ r.identity = "" := by
  constructor
  · intro hfault
    cases call with
    | upsert r =>
        by_cases h : r.identity = ""
        · rw [perform_nameless rfl h] at hfault
          cases hfault
          exact ⟨rfl, r, rfl, h⟩
        · rw [perform_upsert h] at hfault
          cases hfault
    | merge r =>
        by_cases h : r.identity = ""
        · rw [perform_nameless rfl h] at hfault
          cases hfault
          exact ⟨rfl, r, rfl, h⟩
        · rw [perform_merge h] at hfault
          cases hfault
    | get | recent | all | trim | sweep | remove | size | isEmpty | reopen => cases hfault
  · rintro ⟨rfl, r, hr, h⟩
    rw [perform_nameless hr h]

/-- A call either stores one record under the identity that it names or only takes records away. -/
theorem perform_cases (C : Cache) (call : Call) :
    (∃ r merged, call.written? = some r ∧ r.identity ≠ "" ∧ merged.identity = r.identity ∧
      (perform C call).2 = C.put merged) ∨
    ∀ r ∈ (perform C call).2.entries, r ∈ C.entries := by
  cases call with
  | upsert r =>
      by_cases h : r.identity = ""
      · rw [perform_nameless rfl h]
        exact .inr fun _ hs => hs
      · rw [perform_upsert h]
        exact .inl ⟨r, r, rfl, h, rfl, rfl⟩
  | merge r =>
      by_cases h : r.identity = ""
      · rw [perform_nameless rfl h]
        exact .inr fun _ hs => hs
      · rw [perform_merge h]
        cases hmerged : (resolveMerge (C.find? r.identity) r).record? with
        | none => exact .inr fun _ hs => hs
        | some merged =>
            exact .inl ⟨r, merged, rfl, h, identity_of_resolveMerge find?_identity hmerged, rfl⟩
  | trim => exact .inr fun _ hs => (mem_top.mp hs).1
  | sweep | remove => exact .inr fun _ hs => (mem_keep.mp hs).1
  | get | recent | all | size | isEmpty | reopen => exact .inr fun _ hs => hs

theorem entries_perform_subset {call : Call} (h : call.written? = none) :
    ∀ s ∈ (perform C call).2.entries, s ∈ C.entries := by
  rcases perform_cases C call with ⟨r, -, hr, -⟩ | hsubset
  · rw [h] at hr
    cases hr
  · exact hsubset

theorem entries_after_subset {calls : List Call} (h : ∀ call ∈ calls, call.written? = none) :
    ∀ s ∈ (after C calls).entries, s ∈ C.entries := by
  induction calls generalizing C with
  | nil => exact fun s hs => hs
  | cons call calls ih =>
      obtain ⟨hcall, hcalls⟩ := List.forall_mem_cons.mp h
      exact fun s hs => entries_perform_subset hcall s (ih hcalls s hs)

end Cache

end PeerBook
