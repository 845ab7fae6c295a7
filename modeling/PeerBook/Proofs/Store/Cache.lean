import PeerBook.Proofs.Store.Recency
import PeerBook.Store

namespace PeerBook

structure Cache where
  capacity : Nat
  entries : List Record
  latestFirst : entries.Pairwise fun r s => s.stamp < r.stamp
  unique : entries.Pairwise fun r s => r.identity ≠ s.identity

namespace Cache

variable {C D : Cache} {r s : Record} {identity : String}

theorem eq_of_mem_iff (hcapacity : C.capacity = D.capacity)
    (h : ∀ r, r ∈ C.entries ↔ r ∈ D.entries) : C = D := by
  have : Std.Irrefl fun r s : Record => s.stamp < r.stamp := ⟨fun _ => lt_irrefl _⟩
  have : Std.Antisymm fun r s : Record => s.stamp < r.stamp :=
    ⟨fun _ _ hrs hsr => (lt_asymm hrs hsr).elim⟩
  have hentries : C.entries = D.entries := C.latestFirst.eq_of_mem_iff D.latestFirst h
  cases C
  cases D
  cases hcapacity
  cases hentries
  rfl

theorem nodup_identities (C : Cache) : (C.entries.map Record.identity).Nodup :=
  List.pairwise_map.mpr C.unique

theorem nodup_entries (C : Cache) : C.entries.Nodup :=
  C.nodup_identities.of_map

theorem eq_of_mem (hr : r ∈ C.entries) (hs : s ∈ C.entries) (h : r.identity = s.identity) :
    r = s :=
  List.inj_on_of_nodup_map C.nodup_identities hr hs h

def empty (capacity : Nat) : Cache :=
  ⟨capacity, [], .nil, .nil⟩

def ofList (capacity : Nat) (records : List Record)
    (h : records.Pairwise fun r s => r.identity ≠ s.identity) : Cache where
  capacity
  entries := records.mergeSort fun r s => s.stamp ≤ r.stamp
  latestFirst := by
    have hperm := List.mergeSort_perm records fun r s => decide (s.stamp ≤ r.stamp)
    have hsorted : (records.mergeSort fun r s => decide (s.stamp ≤ r.stamp)).Pairwise
        fun r s => decide (s.stamp ≤ r.stamp) = true :=
      List.pairwise_mergeSort
        (fun _ _ _ hrs hst => by simpa using le_trans (by simpa using hst) (by simpa using hrs))
        (fun r s => by simpa using le_total s.stamp r.stamp) records
    refine (hsorted.and (h.perm hperm.symm fun h => h.symm)).imp ?_
    rintro r s ⟨hle, hne⟩
    exact lt_of_le_of_ne (of_decide_eq_true hle) fun he => hne (congrArg Stamp.identity he).symm
  unique := h.perm (List.mergeSort_perm _ _).symm fun h => h.symm

theorem mem_ofList {capacity : Nat} {records : List Record}
    {h : records.Pairwise fun r s => r.identity ≠ s.identity} :
    r ∈ (ofList capacity records h).entries ↔ r ∈ records :=
  List.mem_mergeSort

def find? (C : Cache) (identity : String) : Option Record :=
  C.entries.find? fun r => r.identity = identity

def keep (C : Cache) (p : Record → Bool) : Cache where
  capacity := C.capacity
  entries := C.entries.filter p
  latestFirst := C.latestFirst.filter p
  unique := C.unique.filter p

def put (C : Cache) (r : Record) : Cache :=
  ofList C.capacity (r :: (C.keep fun s => s.identity ≠ r.identity).entries) <| by
    refine List.pairwise_cons.mpr ⟨fun s hs he => ?_, (C.keep _).unique⟩
    simp [keep, he] at hs

def top (C : Cache) : Cache where
  capacity := C.capacity
  entries := C.entries.take C.capacity
  latestFirst := C.latestFirst.sublist (List.take_sublist _ _)
  unique := C.unique.sublist (List.take_sublist _ _)

def above (C : Cache) (r : Record) : Nat :=
  C.entries.countP fun s => r.stamp < s.stamp

instance : RecordStore Cache where
  get? C identity := .ok (C.find? identity)
  upsert C r := if r.identity = "" then .error .emptyIdentity else .ok (C.put r)
  merge C r :=
    if r.identity = "" then .error .emptyIdentity
    else
      let previous := C.find? r.identity
      let resolution := resolveMerge previous r
      .ok (⟨resolution.outcome, previous⟩, resolution.record?.elim C C.put)
  recent C count := .ok (C.entries.take count)
  trim C := .ok (C.entries.length - C.capacity, C.top)
  sweep C olderThan :=
    .ok (C.entries.countP fun r => r.lastSeen < olderThan, C.keep fun r => olderThan ≤ r.lastSeen)
  remove C identity := .ok ((C.find? identity).isSome, C.keep fun r => r.identity ≠ identity)
  size C := .ok C.entries.length
  capacity := capacity

theorem find?_eq_some_iff : C.find? identity = some r ↔ r ∈ C.entries ∧ r.identity = identity := by
  constructor
  · intro h
    exact ⟨List.mem_of_find?_eq_some h, by simpa using List.find?_some h⟩
  · rintro ⟨hr, rfl⟩
    cases h : C.find? r.identity with
    | none => simpa using List.find?_eq_none.mp h r hr
    | some s =>
        have hs : s.identity = r.identity := by simpa using List.find?_some h
        rw [eq_of_mem (List.mem_of_find?_eq_some h) hr hs]

theorem find?_eq_none_iff : C.find? identity = none ↔ ∀ r ∈ C.entries, r.identity ≠ identity := by
  simp [find?]

theorem find?_self (hr : r ∈ C.entries) : C.find? r.identity = some r :=
  find?_eq_some_iff.mpr ⟨hr, rfl⟩

@[simp] theorem capacity_top : C.top.capacity = C.capacity := rfl

@[simp] theorem mem_keep {p : Record → Bool} : r ∈ (C.keep p).entries ↔ r ∈ C.entries ∧ p r :=
  List.mem_filter

@[simp] theorem mem_put :
    s ∈ (C.put r).entries ↔ s = r ∨ (s ∈ C.entries ∧ s.identity ≠ r.identity) := by
  simp [put, mem_ofList]

theorem entries_put_of_later
    (h : ∀ s ∈ C.entries, s.identity ≠ r.identity ∧ s.stamp ≤ r.stamp) :
    (C.put r).entries = r :: C.entries := by
  have hothers : (C.keep fun s => s.identity ≠ r.identity).entries = C.entries :=
    List.filter_eq_self.mpr fun s hs => by simpa using (h s hs).1
  simp only [put, ofList, hothers]
  refine List.mergeSort_of_pairwise (List.pairwise_cons.mpr ⟨fun s hs => ?_, ?_⟩)
  · simpa using (h s hs).2
  · exact C.latestFirst.imp fun hlt => by simpa using hlt.le

@[simp] theorem mem_top : r ∈ C.top.entries ↔ r ∈ C.entries ∧ C.above r < C.capacity :=
  mem_take_iff_countP_lt C.latestFirst C.capacity r

theorem find?_put :
    (C.put r).find? identity = if r.identity = identity then some r else C.find? identity := by
  ext s
  by_cases h : r.identity = identity
  · subst h
    rw [if_pos rfl, find?_eq_some_iff, mem_put]
    constructor
    · rintro ⟨rfl | ⟨-, hne⟩, he⟩
      · rfl
      · exact (hne he).elim
    · rintro ⟨⟩
      exact ⟨.inl rfl, rfl⟩
  · rw [if_neg h, find?_eq_some_iff, find?_eq_some_iff, mem_put]
    constructor
    · rintro ⟨rfl | ⟨hs, -⟩, he⟩
      · exact (h he).elim
      · exact ⟨hs, he⟩
    · rintro ⟨hs, rfl⟩
      exact ⟨.inr ⟨hs, fun he => h he.symm⟩, rfl⟩

theorem find?_of_subset (h : ∀ s, s ∈ D.entries → s ∈ C.entries) (hr : D.find? identity = some r) :
    C.find? identity = some r := by
  rw [find?_eq_some_iff] at hr ⊢
  exact ⟨h r hr.1, hr.2⟩

theorem find?_eq_or_none_of_subset (h : ∀ s, s ∈ D.entries → s ∈ C.entries) (identity : String) :
    D.find? identity = C.find? identity ∨ D.find? identity = none := by
  cases hfind : D.find? identity with
  | none => exact .inr rfl
  | some r => exact .inl (find?_of_subset h hfind).symm

end Cache

end PeerBook
