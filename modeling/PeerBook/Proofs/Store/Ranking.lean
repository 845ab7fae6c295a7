import PeerBook.Proofs.Octets.Utf8Order
import PeerBook.Proofs.Store.CacheLike
import PeerBook.Proofs.Store.Convergence

namespace PeerBook

open StoreKind

def Record.IsAfter (r s : Record) : Prop :=
  s.lastSeen < r.lastSeen ∨ s.lastSeen = r.lastSeen ∧ utf8 s.identity < utf8 r.identity

theorem Record.isAfter_of_stamp_lt {r s : Record} (h : s.stamp < r.stamp) : r.IsAfter s := by
  rcases Stamp.lt_iff.mp h with hearlier | ⟨hsame, hidentity⟩
  · exact .inl hearlier
  · exact .inr ⟨hsame, utf8_lt_utf8 hidentity⟩

open RecordStore in
/-- The store holds these records, listed once each from the latest on, and whatever takes some of
them away tells how many they were and leaves the others as they are. -/
structure Ranks {σ : Type} [RecordStore σ] (s : σ) (stored : List Record) : Prop where
  descending : stored.Pairwise Record.IsAfter
  once : (stored.map Record.identity).Nodup
  holds : Holds s stored
  trim : ∃ latest t, recent s (capacity s) = .ok latest ∧
    trim s = .ok (stored.length - capacity s, t) ∧ Holds t latest
  sweep (olderThan : Timestamp) : ∃ t,
    sweep s olderThan = .ok (stored.countP fun r => r.lastSeen < olderThan, t) ∧
      Holds t (stored.filter fun r => ¬r.lastSeen < olderThan)
  remove (identity : String) : ∃ t,
    remove s identity = .ok (decide (∃ r ∈ stored, r.identity = identity), t) ∧
      Holds t (stored.filter fun r => r.identity ≠ identity)

namespace CacheLike

variable {σ : Type} [CacheLike σ] {s : σ} {C : Cache}

theorem trim_ok (h : shows s C) :
    ∃ t, RecordStore.trim s = .ok (C.entries.length - C.capacity, t) ∧ shows t C.top :=
  (lockstep.trim h).exists_ok

theorem sweep_ok (h : shows s C) (olderThan : Timestamp) :
    ∃ t, RecordStore.sweep s olderThan =
        .ok (C.entries.countP fun r => r.lastSeen < olderThan, t) ∧
      shows t (C.keep fun r => olderThan ≤ r.lastSeen) :=
  (lockstep.sweep h olderThan).exists_ok

theorem remove_ok (h : shows s C) (identity : String) :
    ∃ t, RecordStore.remove s identity = .ok ((C.find? identity).isSome, t) ∧
      shows t (C.keep fun r => r.identity ≠ identity) :=
  (lockstep.remove h identity).exists_ok

theorem ranks (h : shows s C) : Ranks s C.entries where
  descending := C.latestFirst.imp Record.isAfter_of_stamp_lt
  once := C.nodup_identities
  holds := lockstep.holds h
  trim := by
    obtain ⟨t, htrim, hshows⟩ := trim_ok h
    rw [lockstep.capacity h, lockstep.recent h]
    exact ⟨_, t, rfl, htrim, lockstep.holds hshows⟩
  sweep olderThan := by
    obtain ⟨t, hsweep, hshows⟩ := sweep_ok h olderThan
    refine ⟨t, hsweep, ?_⟩
    simp only [UInt64.not_lt]
    exact lockstep.holds hshows
  remove identity := by
    obtain ⟨t, hremove, hshows⟩ := remove_ok h identity
    refine ⟨t, ?_, lockstep.holds hshows⟩
    rw [hremove, Cache.find?, List.isSome_find?]
    simp [List.any_eq]

end CacheLike

/-- Whatever was asked of it, either store ranks its records, and both rank the same ones. -/
theorem ranks_after (capacity : Nat) (calls : List Call) :
    ∃ stored, Ranks (after (MemoryStore.empty capacity) calls) stored ∧
      Ranks (after (DurableStore.empty capacity) calls) stored := by
  have hmemory := CacheLike.ranks (CacheLike.shows_after (σ := MemoryStore) capacity calls)
  have hdurable := CacheLike.ranks (CacheLike.shows_after (σ := DurableStore) capacity calls)
  exact ⟨_, hmemory, hdurable⟩

end PeerBook
