import PeerBook.Proofs.Store.Agreement

namespace PeerBook

open StoreKind

/-- A kind of store that may refuse any call, and is the list of its records otherwise. -/
class RefusingStore (σ : Type) extends StoreKind σ where
  shows : σ → Cache → Prop
  perform_cases {s : σ} {C : Cache} (h : shows s C) (call : Call) :
    (∃ fault, (perform s call).1 = .error fault) ∧ shows (perform s call).2 C ∨
      (perform s call).1 = (perform C call).1 ∧ shows (perform s call).2 (perform C call).2

/-- A kind of store that cannot be told apart from the list of its records. -/
class CacheLike (σ : Type) extends StoreKind σ where
  shows : σ → Cache → Prop
  lockstep : StoreKind.Lockstep shows

instance (priority := low) CacheLike.refusingStore {σ : Type} [CacheLike σ] : RefusingStore σ where
  shows := CacheLike.shows
  perform_cases h call := .inr (CacheLike.lockstep.perform h call)

instance : CacheLike MemoryStore where
  shows := MemoryStore.Shows
  lockstep := MemoryStore.lockstep_shows

instance : CacheLike DurableStore where
  shows d C := ∃ s, d.Mirrors s ∧ s.Shows C
  lockstep := DurableStore.lockstep_mirrors.trans MemoryStore.lockstep_shows

namespace StoreKind

variable {σ : Type} [StoreKind σ] {s t : σ}

theorem perform_upsert_eq {r : Record} (h : RecordStore.upsert s r = .ok t) :
    perform s (.upsert r) = (.ok .done, t) := by
  simp only [perform, h]
  rfl

theorem perform_trim_eq {evicted : Nat} (h : RecordStore.trim s = .ok (evicted, t)) :
    perform s .trim = (.ok (.counted evicted), t) := by
  simp only [perform, h]
  rfl

end StoreKind

namespace CacheLike

variable {σ : Type} [CacheLike σ] {s t : σ} {C : Cache} {r : Record}

theorem shows_after (capacity : Nat) (calls : List Call) :
    shows (after (StoreKind.empty capacity : σ) calls) (after (Cache.empty capacity) calls) :=
  lockstep.after (lockstep.empty capacity) calls

theorem upsert_of_named (h : shows s C) (hnamed : r.identity ≠ "") :
    ∃ t, RecordStore.upsert s r = .ok t ∧ shows t (C.put r) := by
  have halike := lockstep.upsert h r
  simp only [RecordStore.upsert, if_neg hnamed] at halike
  cases hwrite : RecordStore.upsert s r with
  | error fault =>
      rw [hwrite] at halike
      cases halike
  | ok t =>
      rw [hwrite] at halike
      cases halike with
      | ok _ hshows => exact ⟨t, rfl, hshows⟩

theorem named_of_upsert (h : shows s C) (hwrite : RecordStore.upsert s r = .ok t) :
    r.identity ≠ "" := by
  intro hempty
  have halike := lockstep.upsert h r
  simp only [hwrite, RecordStore.upsert, if_pos hempty] at halike
  cases halike

theorem get?_of_upsert (h : shows s C) (hwrite : RecordStore.upsert s r = .ok t) :
    RecordStore.get? t r.identity = .ok (some r) := by
  obtain ⟨u, hu, hshows⟩ := upsert_of_named h (named_of_upsert h hwrite)
  obtain rfl := Except.ok.inj (hu.symm.trans hwrite)
  rw [lockstep.get? hshows]
  exact congrArg Except.ok (by rw [Cache.find?_put, if_pos rfl])

theorem all_eq (h : shows s C) : RecordStore.all s = .ok (C.entries.take C.capacity) := by
  rw [RecordStore.all, lockstep.recent h, lockstep.capacity h]
  rfl

theorem exists_trim_ok (h : shows s C) : ∃ result, RecordStore.trim s = .ok result := by
  obtain ⟨t, htrim, -⟩ := (lockstep.trim h).exists_ok
  exact ⟨_, htrim⟩

end CacheLike

end PeerBook
