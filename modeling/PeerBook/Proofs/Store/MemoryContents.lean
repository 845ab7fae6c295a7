import PeerBook.Proofs.Store.Session
import Std.Data.TreeMap.Lemmas

namespace PeerBook

theorem nodup_keys {β : Type} (m : Std.TreeMap String β) : m.keys.Nodup :=
  m.distinct_keys.imp fun hne he => hne (compare_eq_iff_eq.mpr he)

theorem size_eq_length {β : Type} {m : Std.TreeMap String β} {keys : List String}
    (hkeys : keys.Nodup) (h : ∀ k, k ∈ m ↔ k ∈ keys) : m.size = keys.length := by
  have hperm : m.keys.Perm keys :=
    (List.perm_ext_iff_of_nodup (nodup_keys m) hkeys).mpr fun k => Std.TreeMap.mem_keys.trans (h k)
  rw [← m.length_keys, hperm.length_eq]

namespace MemoryStore

variable {s : MemoryStore} {C : Cache} {r : Record}

@[simp] theorem find?_put (identity : String) :
    (s.put r).find? identity = if r.identity = identity then some r else s.find? identity := by
  simp only [put, find?, Std.TreeMap.getElem?_insert, compare_eq_iff_eq]

@[simp] theorem find?_delete (stamp : Stamp) (identity : String) :
    (s.delete stamp).find? identity =
      if stamp.identity = identity then none else s.find? identity := by
  simp only [delete, find?, Std.TreeMap.getElem?_erase, compare_eq_iff_eq]

theorem mem_index_put (stamp : Stamp) :
    stamp ∈ (s.put r).index ↔ r.stamp = stamp ∨
      (stamp ∈ s.index ∧ ∀ previous ∈ s.find? r.identity, previous.stamp ≠ stamp) := by
  cases h : s.find? r.identity <;> simp [put, h, and_comm]

@[simp] theorem mem_index_delete (old stamp : Stamp) :
    stamp ∈ (s.delete old).index ↔ old ≠ stamp ∧ stamp ∈ s.index := by
  simp [delete]

@[simp] theorem capacity_deleteAll (stamps : List Stamp) :
    (s.deleteAll stamps).capacity = s.capacity := by
  induction stamps generalizing s with
  | nil => rfl
  | cons stamp stamps ih => exact ih

@[simp] theorem capacity_remove (identity : String) :
    (s.remove identity).2.capacity = s.capacity := by
  rw [remove]
  split <;> rfl

structure Shows (s : MemoryStore) (C : Cache) : Prop where
  capacity : s.capacity = C.capacity
  find (identity : String) : s.find? identity = C.find? identity
  index (stamp : Stamp) : stamp ∈ s.index ↔ ∃ r ∈ C.entries, r.stamp = stamp

namespace Shows

theorem toList_index (h : s.Shows C) : s.index.toList = (C.entries.map Record.stamp).reverse := by
  refine (Stamp.pairwise_toList s.index).eq_of_mem_iff
    (List.pairwise_reverse.mpr (List.pairwise_map.mpr C.latestFirst)) fun stamp => ?_
  rw [Std.TreeSet.mem_toList, h.index, List.mem_reverse, List.mem_map]

theorem size (h : s.Shows C) : s.size = C.entries.length := by
  rw [MemoryStore.size, size_eq_length C.nodup_identities, List.length_map]
  intro identity
  have hfind := h.find identity
  rw [MemoryStore.find?] at hfind
  rw [Std.TreeMap.mem_iff_isSome_getElem?, hfind, List.mem_map]
  simp [Cache.find?]

theorem recent (h : s.Shows C) (count : Nat) : s.recent count = C.entries.take count := by
  rw [MemoryStore.recent, h.toList_index, List.reverse_reverse, ← List.map_take,
    List.filterMap_map]
  have hfind : ∀ r ∈ C.entries.take count,
      ((fun stamp => s.find? stamp.identity) ∘ Record.stamp) r = some r := by
    intro r hr
    exact (h.find r.identity).trans (Cache.find?_self (List.mem_of_mem_take hr))
  rw [List.filterMap_congr hfind, List.filterMap_some]

theorem put (h : s.Shows C) (r : Record) : (s.put r).Shows (C.put r) where
  capacity := h.capacity
  find identity := by rw [find?_put, Cache.find?_put, h.find]
  index stamp := by
    rw [mem_index_put, h.index, h.find]
    simp only [Cache.mem_put, Option.mem_def, Cache.find?_eq_some_iff]
    constructor
    · rintro (rfl | ⟨⟨x, hx, rfl⟩, hold⟩)
      · exact ⟨r, .inl rfl, rfl⟩
      · exact ⟨x, .inr ⟨hx, fun he => hold x ⟨hx, he⟩ rfl⟩, rfl⟩
    · rintro ⟨x, rfl | ⟨hx, hne⟩, rfl⟩
      · exact .inl rfl
      · refine .inr ⟨⟨x, hx, rfl⟩, ?_⟩
        rintro previous ⟨-, he⟩ hstamp
        exact hne ((congrArg Stamp.identity hstamp).symm.trans he)

theorem delete (h : s.Shows C) (hr : r ∈ C.entries) :
    (s.delete r.stamp).Shows (C.keep fun x => x.identity ≠ r.identity) where
  capacity := h.capacity
  find identity := by
    rw [find?_delete, h.find]
    ext x
    by_cases he : r.identity = identity
    · subst he
      simp [Record.stamp, Cache.find?_eq_some_iff]
    · rw [if_neg (by exact he), Cache.find?_eq_some_iff, Cache.find?_eq_some_iff, Cache.mem_keep]
      constructor
      · rintro ⟨hx, rfl⟩
        exact ⟨⟨hx, by simpa using fun hxr => he hxr.symm⟩, rfl⟩
      · rintro ⟨⟨hx, -⟩, rfl⟩
        exact ⟨hx, rfl⟩
  index stamp := by
    rw [mem_index_delete, h.index]
    simp only [Cache.mem_keep, decide_eq_true_eq]
    constructor
    · rintro ⟨hne, x, hx, rfl⟩
      exact ⟨x, ⟨hx, fun he => hne (congrArg Record.stamp (Cache.eq_of_mem hr hx he.symm))⟩, rfl⟩
    · rintro ⟨x, ⟨hx, hne⟩, rfl⟩
      exact ⟨fun he => hne (congrArg Stamp.identity he).symm, x, hx, rfl⟩

theorem deleteAll (h : s.Shows C) (victims : List Record) (hmem : ∀ r ∈ victims, r ∈ C.entries)
    (hnodup : victims.Nodup) :
    (s.deleteAll (victims.map Record.stamp)).Shows (C.keep fun x => x ∉ victims) := by
  induction victims generalizing s C with
  | nil =>
      have hkeep : (C.keep fun x => x ∉ []) = C := Cache.eq_of_mem_iff rfl (by simp)
      rw [hkeep]
      exact h
  | cons r victims ih =>
      obtain ⟨hr, hnodup⟩ := List.nodup_cons.mp hnodup
      have hrC := hmem r List.mem_cons_self
      have hrest : ∀ x ∈ victims, x ∈ (C.keep fun x => x.identity ≠ r.identity).entries := by
        intro x hx
        have hxC := hmem x (List.mem_cons_of_mem r hx)
        refine Cache.mem_keep.mpr ⟨hxC, decide_eq_true fun he => hr ?_⟩
        rwa [← Cache.eq_of_mem hxC hrC he]
      have hkeep : (C.keep fun x => x ∉ r :: victims) =
          (C.keep fun x => x.identity ≠ r.identity).keep fun x => x ∉ victims := by
        refine Cache.eq_of_mem_iff rfl fun x => ?_
        simp only [Cache.mem_keep, decide_eq_true_eq, List.mem_cons, not_or, and_assoc]
        refine and_congr_right fun hx => and_congr_left fun _ => ?_
        exact not_congr ⟨congrArg Record.identity, Cache.eq_of_mem hx hrC⟩
      rw [hkeep]
      exact ih (h.delete hrC) hrest hnodup

/-- The victims are taken from the end of the cache on, as the index lists them. -/
theorem deleteAll_reverse (h : s.Shows C) {D : Cache} {victims : List Record}
    (hvictims : victims.Sublist C.entries) (hcapacity : D.capacity = C.capacity)
    (hD : ∀ r, r ∈ D.entries ↔ r ∈ C.entries ∧ r ∉ victims) :
    (s.deleteAll (victims.reverse.map Record.stamp)).Shows D := by
  have hkeep : D = C.keep fun x => x ∉ victims.reverse := by
    refine Cache.eq_of_mem_iff hcapacity fun r => ?_
    rw [hD, Cache.mem_keep, decide_eq_true_eq, List.mem_reverse]
  rw [hkeep]
  refine h.deleteAll victims.reverse (fun r hr => ?_) ?_
  · exact hvictims.subset (List.mem_reverse.mp hr)
  · exact List.nodup_reverse.mpr (C.nodup_entries.sublist hvictims)

theorem trim (h : s.Shows C) :
    s.trim.1 = C.entries.length - C.capacity ∧ s.trim.2.Shows C.top := by
  have hvictims : s.index.toList.take (s.size - s.capacity) =
      (C.entries.drop C.capacity).reverse.map Record.stamp := by
    rw [h.toList_index, h.size, h.capacity, List.take_reverse, List.length_map, List.map_reverse,
      List.map_drop]
    by_cases hc : C.capacity ≤ C.entries.length
    · rw [Nat.sub_sub_self hc]
    · rw [List.drop_of_length_le (by rw [List.length_map]; omega),
        List.drop_of_length_le (by rw [List.length_map]; omega)]
  rw [MemoryStore.trim, hvictims]
  refine ⟨by simp, h.deleteAll_reverse (List.drop_sublist _ _) rfl fun r => ?_⟩
  have hsplit := List.take_append_drop C.capacity C.entries
  change r ∈ C.entries.take C.capacity ↔ _
  constructor
  · intro hr
    have hnodup := C.nodup_entries
    rw [← hsplit] at hnodup
    exact ⟨List.mem_of_mem_take hr, List.disjoint_of_nodup_append hnodup hr⟩
  · rintro ⟨hr, hdrop⟩
    rw [← hsplit, List.mem_append] at hr
    exact hr.resolve_right hdrop

theorem sweep (h : s.Shows C) (olderThan : Timestamp) :
    (s.sweep olderThan).1 = C.entries.countP (fun r => r.lastSeen < olderThan) ∧
      (s.sweep olderThan).2.Shows (C.keep fun r => olderThan ≤ r.lastSeen) := by
  have hvictims : (s.index.toList.takeWhile fun stamp => stamp.lastSeen < olderThan) =
      (C.entries.filter fun r => r.lastSeen < olderThan).reverse.map Record.stamp := by
    -- In ascending order the stamps before a time stand in front.
    have hfront : s.index.toList.Pairwise fun x y =>
        decide (y.lastSeen < olderThan) → decide (x.lastSeen < olderThan) := by
      refine (Stamp.pairwise_toList s.index).imp fun {x y} hxy => ?_
      rw [decide_eq_true_eq, decide_eq_true_eq]
      exact UInt64.lt_of_le_of_lt (Stamp.lastSeen_le hxy.le)
    rw [takeWhile_eq_filter_of_pairwise hfront, h.toList_index, List.filter_reverse,
      List.filter_map, List.map_reverse]
    rfl
  rw [MemoryStore.sweep, hvictims]
  refine ⟨by simp [List.countP_eq_length_filter],
    h.deleteAll_reverse List.filter_sublist rfl fun r => ?_⟩
  simp only [Cache.mem_keep, List.mem_filter, decide_eq_true_eq, not_and, UInt64.not_lt]
  constructor
  · rintro ⟨hr, hold⟩
    exact ⟨hr, fun _ => hold⟩
  · rintro ⟨hr, hold⟩
    exact ⟨hr, hold hr⟩

theorem remove (h : s.Shows C) (identity : String) :
    (s.remove identity).1 = (C.find? identity).isSome ∧
      (s.remove identity).2.Shows (C.keep fun r => r.identity ≠ identity) := by
  rw [MemoryStore.remove, h.find]
  cases hfind : C.find? identity with
  | none =>
      have hkeep : (C.keep fun r => r.identity ≠ identity) = C := by
        refine Cache.eq_of_mem_iff rfl fun x => ?_
        rw [Cache.mem_keep, decide_eq_true_eq]
        exact ⟨And.left, fun hx => ⟨hx, Cache.find?_eq_none_iff.mp hfind x hx⟩⟩
      rw [hkeep]
      exact ⟨rfl, h⟩
  | some r =>
      obtain ⟨hr, rfl⟩ := Cache.find?_eq_some_iff.mp hfind
      exact ⟨rfl, h.delete hr⟩

end Shows

/-- The store in memory answers as the cache that it shows. -/
theorem lockstep_shows : StoreKind.Lockstep Shows where
  empty c := ⟨rfl, fun _ => rfl, by simp [StoreKind.empty, MemoryStore.empty, Cache.empty]⟩
  reopen h c := ⟨rfl, h.find, h.index⟩
  capacity h := h.capacity
  get? h identity := congrArg Except.ok (h.find identity)
  recent h count := congrArg Except.ok (h.recent count)
  size h := congrArg Except.ok h.size
  upsert h r := by
    by_cases hr : r.identity = ""
    · simp only [RecordStore.upsert, MemoryStore.upsert, if_pos hr]
      exact .error _
    · simp only [RecordStore.upsert, MemoryStore.upsert, if_neg hr]
      exact .ok () (h.put r)
  merge {s C} h r := by
    by_cases hr : r.identity = ""
    · simp only [RecordStore.merge, MemoryStore.merge, if_pos hr]
      exact .error _
    · simp only [RecordStore.merge, MemoryStore.merge, if_neg hr, h.find]
      refine .ok _ ?_
      cases (resolveMerge (C.find? r.identity) r).record? with
      | none => exact h
      | some merged => exact h.put merged
  trim {s C} h := by
    change StoreKind.Alike Shows (.ok (s.trim.1, s.trim.2)) _
    rw [h.trim.1]
    exact .ok _ h.trim.2
  sweep {s C} h olderThan := by
    change StoreKind.Alike Shows (.ok ((s.sweep olderThan).1, (s.sweep olderThan).2)) _
    rw [(h.sweep olderThan).1]
    exact .ok _ (h.sweep olderThan).2
  remove {s C} h identity := by
    change StoreKind.Alike Shows (.ok ((s.remove identity).1, (s.remove identity).2)) _
    rw [(h.remove identity).1]
    exact .ok _ (h.remove identity).2

open StoreKind in
theorem shows_after (capacity : Nat) (calls : List Call) :
    (after (MemoryStore.empty capacity) calls).Shows (after (Cache.empty capacity) calls) :=
  lockstep_shows.after (lockstep_shows.empty capacity) calls

end MemoryStore

end PeerBook
