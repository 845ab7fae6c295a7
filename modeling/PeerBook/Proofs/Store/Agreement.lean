import PeerBook.Proofs.Record.RoundTrip
import PeerBook.Proofs.Store.MemoryContents

namespace PeerBook

/-- The tables hold what the store in memory holds, in encoded form. -/
structure Tables.Mirrors (t : Tables) (s : MemoryStore) : Prop where
  records (identity : String) : t.records[identity]? = (s.find? identity).map Codec.record
  filed (identity : String) : ∀ r ∈ s.find? identity, r.identity = identity
  index : t.index = s.index

namespace Tables.Mirrors

variable {t : Tables} {s : MemoryStore}

theorem load (h : t.Mirrors s) (identity : String) : t.load? identity = .ok (s.find? identity) := by
  rw [load?, h.records]
  cases s.find? identity with
  | none => rfl
  | some r => simp [Codec.whole_record]

theorem size (h : t.Mirrors s) : t.records.size = s.size := by
  rw [MemoryStore.size, ← s.records.length_keys]
  refine size_eq_length (nodup_keys s.records) fun identity => ?_
  rw [Std.TreeMap.mem_iff_isSome_getElem?, h.records, Option.isSome_map, Std.TreeMap.mem_keys,
    Std.TreeMap.mem_iff_isSome_getElem?]
  rfl

theorem put (h : t.Mirrors s) (r : Record) :
    (t.write (s.find? r.identity) r).Mirrors (s.put r) where
  records identity := by
    rw [MemoryStore.find?_put, Tables.write, Std.TreeMap.getElem?_insert, h.records]
    simp only [compare_eq_iff_eq]
    split <;> rfl
  filed identity := by
    intro x hx
    rw [MemoryStore.find?_put] at hx
    split at hx
    · cases hx
      assumption
    · exact h.filed identity x hx
  index := by
    rw [Tables.write, MemoryStore.put, h.index]
    cases s.find? r.identity <;> rfl

theorem delete (h : t.Mirrors s) (stamp : Stamp) : (t.delete stamp).Mirrors (s.delete stamp) where
  records identity := by
    rw [MemoryStore.find?_delete, Tables.delete, Std.TreeMap.getElem?_erase, h.records]
    simp only [compare_eq_iff_eq]
    split <;> rfl
  filed identity := by
    intro x hx
    rw [MemoryStore.find?_delete] at hx
    split at hx
    · cases hx
    · exact h.filed identity x hx
  index := by rw [Tables.delete, MemoryStore.delete, h.index]

theorem deleteAll (h : t.Mirrors s) (stamps : List Stamp) :
    (t.deleteAll stamps).Mirrors (s.deleteAll stamps) := by
  induction stamps generalizing t s with
  | nil => exact h
  | cons stamp stamps ih => exact ih (h.delete stamp)

theorem recent (h : t.Mirrors s) (count : Nat) : t.recent count = .ok (s.recent count) := by
  have hload : (fun stamp : Stamp => t.load? stamp.identity) =
      fun stamp => pure (s.find? stamp.identity) := funext fun stamp => h.load stamp.identity
  rw [Tables.recent, hload, List.mapM_pure, h.index, pure_bind, List.filterMap_map]
  rfl

theorem trim (h : t.Mirrors s) :
    (t.trim s.capacity).1 = s.trim.1 ∧ (t.trim s.capacity).2.Mirrors s.trim.2 := by
  rw [Tables.trim, MemoryStore.trim, h.size, h.index]
  by_cases hsize : s.size ≤ s.capacity
  · rw [if_pos hsize, Nat.sub_eq_zero_of_le hsize]
    exact ⟨rfl, h⟩
  · rw [if_neg hsize]
    exact ⟨rfl, h.deleteAll _⟩

theorem sweep (h : t.Mirrors s) (olderThan : Timestamp) :
    (t.sweep olderThan).1 = (s.sweep olderThan).1 ∧
      (t.sweep olderThan).2.Mirrors (s.sweep olderThan).2 := by
  rw [Tables.sweep, MemoryStore.sweep, h.index]
  exact ⟨rfl, h.deleteAll _⟩

theorem upsert (h : t.Mirrors s) {r : Record} (hr : r.identity ≠ "") :
    t.upsert r = .ok (t.write (s.find? r.identity) r) := by
  simp only [Tables.upsert, if_neg hr, h.load]
  rfl

theorem merge (h : t.Mirrors s) {r : Record} (hr : r.identity ≠ "") :
    ∃ t', t.merge r =
        .ok (⟨(resolveMerge (s.find? r.identity) r).outcome, s.find? r.identity⟩, t') ∧
      t'.Mirrors ((resolveMerge (s.find? r.identity) r).record?.elim s s.put) := by
  simp only [Tables.merge, if_neg hr, h.load]
  refine ⟨_, rfl, ?_⟩
  cases hmerged : (resolveMerge (s.find? r.identity) r).record? with
  | none => exact h
  | some merged =>
      rw [← identity_of_resolveMerge (h.filed r.identity) hmerged]
      exact h.put merged

theorem remove (h : t.Mirrors s) (identity : String) :
    ∃ t', t.remove identity = .ok ((s.remove identity).1, t') ∧
      t'.Mirrors (s.remove identity).2 := by
  rw [Tables.remove, MemoryStore.remove, h.load]
  cases s.find? identity with
  | none => exact ⟨t, rfl, h⟩
  | some r => exact ⟨t.delete r.stamp, rfl, h.delete r.stamp⟩

end Tables.Mirrors

namespace DurableStore

open StoreKind

def Mirrors (d : DurableStore) (s : MemoryStore) : Prop :=
  d.capacity = s.capacity ∧ d.tables.Mirrors s

theorem lockstep_mirrors : Lockstep Mirrors where
  empty c := ⟨rfl, fun _ => rfl, fun _ => nofun, rfl⟩
  reopen := fun ⟨_, h⟩ c => ⟨rfl, h.records, h.filed, h.index⟩
  capacity h := h.1
  get? h identity := h.2.load identity
  recent h count := h.2.recent count
  size h := congrArg Except.ok h.2.size
  upsert {d s} h r := by
    by_cases hr : r.identity = ""
    · simp only [RecordStore.upsert, Tables.upsert, MemoryStore.upsert, if_pos hr]
      exact .error _
    · simp only [RecordStore.upsert, h.2.upsert hr, MemoryStore.upsert, if_neg hr]
      exact .ok () ⟨h.1, h.2.put r⟩
  merge {d s} h r := by
    by_cases hr : r.identity = ""
    · simp only [RecordStore.merge, Tables.merge, MemoryStore.merge, if_pos hr]
      exact .error _
    · obtain ⟨t, ht, hmirrors⟩ := h.2.merge hr
      simp only [RecordStore.merge, ht, MemoryStore.merge, if_neg hr]
      refine .ok _ ⟨?_, hmirrors⟩
      cases (resolveMerge (s.find? r.identity) r).record? <;> exact h.1
  trim {d s} h := by
    change Alike Mirrors (.ok ((d.tables.trim d.capacity).1, _)) (.ok (s.trim.1, s.trim.2))
    rw [h.1, h.2.trim.1]
    exact .ok _ ⟨h.1.trans (MemoryStore.capacity_deleteAll _).symm, h.2.trim.2⟩
  sweep {d s} h olderThan := by
    change Alike Mirrors (.ok ((d.tables.sweep olderThan).1, _))
      (.ok ((s.sweep olderThan).1, (s.sweep olderThan).2))
    rw [(h.2.sweep olderThan).1]
    exact .ok _ ⟨h.1.trans (MemoryStore.capacity_deleteAll _).symm, (h.2.sweep olderThan).2⟩
  remove {d s} h identity := by
    obtain ⟨t, ht, hmirrors⟩ := h.2.remove identity
    simp only [RecordStore.remove, ht]
    exact .ok _ ⟨h.1.trans (MemoryStore.capacity_remove identity).symm, hmirrors⟩

theorem mirrors_after (capacity : Nat) (calls : List Call) :
    (after (DurableStore.empty capacity) calls).Mirrors
      (after (MemoryStore.empty capacity) calls) :=
  lockstep_mirrors.after (lockstep_mirrors.empty capacity) calls

end DurableStore

open StoreKind in
/-- Both stores answer every sequence of calls alike, closing and opening among them. A restart
changes no later answer, and one with another capacity goes on as the store in memory does under
that capacity. No call fails but one that would store a record without an identity. -/
theorem durable_answers_as_memory (capacity : Nat) (calls later : List Call) :
    answers (DurableStore.empty capacity) calls = answers (MemoryStore.empty capacity) calls ∧
      answers (after (DurableStore.empty capacity) (calls ++ [.reopen none])) later =
        answers (after (DurableStore.empty capacity) calls) later ∧
      (∀ other,
        answers (after (DurableStore.empty capacity) (calls ++ [.reopen (some other)])) later =
          answers { after (MemoryStore.empty capacity) calls with capacity := other } later) ∧
      ∀ call fault, (perform (after (DurableStore.empty capacity) calls) call).1 = .error fault ↔
        fault = .emptyIdentity ∧ ∃ r, call.written? = some r ∧ r.identity = "" := by
  have hmirrors := DurableStore.mirrors_after capacity calls
  refine ⟨?_, ?_, fun other => ?_, fun call fault => ?_⟩
  · exact DurableStore.lockstep_mirrors.answers_eq (DurableStore.mirrors_after capacity []) calls
  · rw [after_append]
    rfl
  · rw [after_append]
    exact DurableStore.lockstep_mirrors.answers_eq
      (DurableStore.lockstep_mirrors.reopen hmirrors other) later
  · rw [(DurableStore.lockstep_mirrors.perform hmirrors call).1,
      (MemoryStore.lockstep_shows.perform (MemoryStore.shows_after capacity calls) call).1]
    exact Cache.perform_eq_error_iff

end PeerBook
