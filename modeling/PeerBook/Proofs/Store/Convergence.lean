import Mathlib.Data.List.Dedup
import Mathlib.Data.List.Perm.Subperm
import PeerBook.Proofs.Store.Agreement

namespace PeerBook

open StoreKind

/-- Records as gossip spreads them: one key for each identity, and different times for different
records of one identity. -/
structure Gossiped (records : List Record) : Prop where
  wellFormed : ∀ r ∈ records, r.isWellFormed
  plain : ∀ r ∈ records, r.contactHint = none ∧ r.synced = false
  oneKey : ∀ r ∈ records, ∀ s ∈ records, r.identity = s.identity → r.publicKey = s.publicKey
  apart : ∀ r ∈ records, ∀ s ∈ records, r.identity = s.identity → r.lastSeen = s.lastSeen → r = s

/-- Calls that merge each of the records at least once and do nothing else but trim. -/
structure Delivers (calls : List Call) (records : List Record) : Prop where
  only : ∀ call ∈ calls, call = .trim ∨ ∃ r ∈ records, call = .merge r
  every : ∀ r ∈ records, .merge r ∈ calls

def newest (records : List Record) : List Record :=
  records.dedup.filter fun r => ∀ s ∈ records, s.identity = r.identity → s.lastSeen ≤ r.lastSeen

/-- The greatest of the newest records, as many as there is room for, latest first. -/
def freshest (capacity : Nat) (records : List Record) : List Record :=
  ((newest records).mergeSort fun r s => s.stamp ≤ r.stamp).take capacity

open RecordStore in
structure Holds {σ : Type} [RecordStore σ] (s : σ) (entries : List Record) : Prop where
  size : size s = .ok entries.length
  recent (count : Nat) : recent s count = .ok (entries.take count)
  get? (identity : String) : get? s identity = .ok (entries.find? fun r => r.identity = identity)

theorem mem_newest {records : List Record} {r : Record} :
    r ∈ newest records ↔
      r ∈ records ∧ ∀ s ∈ records, s.identity = r.identity → s.lastSeen ≤ r.lastSeen := by
  simp [newest]

theorem stamp_le_iff {r s : Record} (h : r.identity = s.identity) :
    r.stamp ≤ s.stamp ↔ r.lastSeen ≤ s.lastSeen := by
  constructor
  · exact Stamp.lastSeen_le
  · intro hle
    by_contra hlt
    rcases Stamp.lt_iff.mp (not_le.mp hlt) with hlt | ⟨-, hlt⟩
    · exact UInt64.not_le.mpr hlt hle
    · exact hlt.ne h.symm

namespace Gossiped

variable {records : List Record} {r s u : Record}

theorem updated_eq (h : Gossiped records) (hs : s ∈ records) (hu : u ∈ records)
    (hidentity : s.identity = u.identity) : s.updated u = u := by
  have hkey := h.oneKey s hs u hu hidentity
  obtain ⟨hhint, -⟩ := h.plain s hs
  obtain ⟨identity, address, port, publicKey, contactHint, lastSeen, synced⟩ := u
  simp only at hidentity hkey
  simp [Record.updated, hidentity, hkey, hhint]

theorem pairwise_newest (h : Gossiped records) :
    (newest records).Pairwise fun r s => r.identity ≠ s.identity := by
  refine List.Pairwise.imp_of_mem ?_ ((List.nodup_dedup records).filter _)
  intro r s hr hs hne he
  obtain ⟨hr, hrmax⟩ := mem_newest.mp hr
  obtain ⟨hs, hsmax⟩ := mem_newest.mp hs
  exact hne (h.apart r hr s hs he (UInt64.le_antisymm (hsmax r hr he) (hrmax s hs he.symm)))

end Gossiped

namespace Cache

variable {C D : Cache} {r s u : Record} {records : List Record}

def Covers (C : Cache) (r : Record) : Prop :=
  (∃ s ∈ C.entries, s.identity = r.identity ∧ r.stamp ≤ s.stamp) ∨ C.capacity ≤ C.above r

theorem above_anti (h : r.stamp ≤ s.stamp) : C.above s ≤ C.above r :=
  List.countP_mono_left fun _ _ hlt => by simpa using lt_of_le_of_lt h (by simpa using hlt)

theorem above_lt_length (hr : r ∈ C.entries) : C.above r < C.entries.length := by
  refine lt_of_le_of_ne List.countP_le_length fun h => ?_
  have hlt := List.countP_eq_length.mp h r hr
  simp at hlt

theorem above_le_above (h : ∀ s ∈ C.entries, r.stamp < s.stamp → s ∈ D.entries) :
    C.above r ≤ D.above r := by
  have hnodup : (C.entries.filter fun s => r.stamp < s.stamp).Nodup :=
    C.nodup_entries.filter _
  have hsubset : (C.entries.filter fun s => r.stamp < s.stamp) ⊆
      D.entries.filter fun s => r.stamp < s.stamp := by
    intro s hs
    obtain ⟨hs, hlt⟩ := List.mem_filter.mp hs
    exact List.mem_filter.mpr ⟨h s hs (by simpa using hlt), hlt⟩
  rw [above, above, List.countP_eq_length_filter, List.countP_eq_length_filter]
  exact (hnodup.subperm hsubset).length_le

def successor (u s : Record) : Record :=
  if s.identity = u.identity then u else s

@[simp] theorem identity_successor : (successor u s).identity = s.identity := by
  by_cases h : s.identity = u.identity <;> simp [successor, h]

theorem successor_mem_put (hs : s ∈ C.entries) : successor u s ∈ (C.put u).entries := by
  by_cases h : s.identity = u.identity <;> simp [successor, h, hs]

theorem le_successor (h : s.identity = u.identity → s.stamp ≤ u.stamp) :
    s.stamp ≤ (successor u s).stamp := by
  by_cases he : s.identity = u.identity
  · simpa [successor, he] using h he
  · simp [successor, he]

theorem above_le_above_put (h : ∀ s ∈ C.entries, s.identity = u.identity → s.stamp ≤ u.stamp) :
    C.above r ≤ (C.put u).above r := by
  have hnodup : (C.entries.map (successor u)).Nodup := by
    refine List.Nodup.of_map Record.identity ?_
    simpa [Function.comp_def] using C.nodup_identities
  have hsubset : C.entries.map (successor u) ⊆ (C.put u).entries := by
    intro x hx
    obtain ⟨s, hs, rfl⟩ := List.mem_map.mp hx
    exact successor_mem_put hs
  calc C.above r
      ≤ C.entries.countP ((fun s => decide (r.stamp < s.stamp)) ∘ successor u) :=
        List.countP_mono_left fun s hs hlt => by
          simpa using lt_of_lt_of_le (by simpa using hlt) (le_successor (h s hs))
    _ = (C.entries.map (successor u)).countP fun s => r.stamp < s.stamp := List.countP_map.symm
    _ ≤ (C.put u).above r := (hnodup.subperm hsubset).countP_le _

theorem above_top : C.top.above r = min C.capacity (C.above r) :=
  countP_take_of_pairwise
    (C.latestFirst.imp fun hlt h => by simpa using lt_trans (by simpa using h) hlt) C.capacity

namespace Covers

theorem top (h : C.Covers r) : C.top.Covers r := by
  have hfull (h : C.capacity ≤ C.above r) : C.top.Covers r :=
    .inr (by rw [capacity_top, above_top]; exact le_min le_rfl h)
  rcases h with ⟨s, hs, hidentity, hle⟩ | h
  · by_cases habove : C.above s < C.capacity
    · exact .inl ⟨s, mem_top.mpr ⟨hs, habove⟩, hidentity, hle⟩
    · exact hfull ((not_lt.mp habove).trans (above_anti hle))
  · exact hfull h

theorem put (h : C.Covers r)
    (hu : ∀ s ∈ C.entries, s.identity = u.identity → s.stamp ≤ u.stamp) : (C.put u).Covers r := by
  rcases h with ⟨s, hs, hidentity, hle⟩ | h
  · by_cases he : s.identity = u.identity
    · exact .inl ⟨u, mem_put.mpr (.inl rfl), he.symm.trans hidentity, hle.trans (hu s hs he)⟩
    · exact .inl ⟨s, mem_put.mpr (.inr ⟨hs, he⟩), hidentity, hle⟩
  · exact .inr (h.trans (above_le_above_put hu))

end Covers

/-- A merge of gossip passes over a record that the cache has later, or puts it in as it came. -/
theorem perform_merge_cases (h : Gossiped records) (hC : ∀ r ∈ C.entries, r ∈ records)
    (hu : u ∈ records) :
    ((perform C (.merge u)).2 = C ∧ C.Covers u) ∨
    ((perform C (.merge u)).2 = C.put u ∧
      ∀ s ∈ C.entries, s.identity = u.identity → s.stamp ≤ u.stamp) := by
  obtain ⟨hidentity, hkey⟩ : u.identity ≠ "" ∧ u.publicKey ≠ "" := by
    simpa [Record.isWellFormed] using h.wellFormed u hu
  rw [perform_merge hidentity]
  cases hstored : C.find? u.identity with
  | none =>
      rw [find?_eq_none_iff] at hstored
      exact .inr ⟨rfl, fun s hs he => (hstored s hs he).elim⟩
  | some s =>
      obtain ⟨hs, he⟩ := find?_eq_some_iff.mp hstored
      have hsame : s.publicKey = u.publicKey := h.oneKey s (hC s hs) u hu he
      have hpass : ¬s.contradicts u := by
        rw [Record.contradicts_iff (hsame ▸ hkey)]
        exact fun hother => hother.2 hsame.symm
      by_cases hle : u.lastSeen ≤ s.lastSeen
      · refine .inl ⟨?_, .inl ⟨s, hs, he, (stamp_le_iff he.symm).mpr hle⟩⟩
        simp [resolveMerge, hpass, hle, Resolution.record?]
      · refine .inr ⟨?_, fun x hx hxe => ?_⟩
        · simp [resolveMerge, hpass, hle, Resolution.record?, h.updated_eq (hC s hs) hu he]
        · rw [eq_of_mem hx hs (hxe.trans he.symm), stamp_le_iff he]
          exact UInt64.le_of_lt (UInt64.not_le.mp hle)

structure Follows (C : Cache) (capacity : Nat) (records : List Record) (seen : Record → Prop) :
    Prop where
  capacity : C.capacity = capacity
  held : ∀ r ∈ C.entries, r ∈ records
  covers : ∀ r, seen r → C.Covers r

namespace Follows

variable {capacity : Nat} {seen : Record → Prop} {call : Call} {calls : List Call}

theorem perform (hC : C.Follows capacity records seen) (h : Gossiped records)
    (hcall : call = .trim ∨ ∃ r ∈ records, call = .merge r) :
    (perform C call).2.Follows capacity records fun r => .merge r = call ∨ seen r := by
  rcases hcall with rfl | ⟨u, hu, rfl⟩
  · refine ⟨hC.capacity, fun r hr => hC.held r (mem_top.mp hr).1, fun r hr => ?_⟩
    rcases hr with ⟨⟨⟩⟩ | hr
    exact (hC.covers r hr).top
  · rcases perform_merge_cases h hC.held hu with ⟨heq, hcovers⟩ | ⟨heq, hlater⟩
    · rw [heq]
      refine ⟨hC.capacity, hC.held, fun r hr => ?_⟩
      rcases hr with ⟨⟨⟩⟩ | hr
      · exact hcovers
      · exact hC.covers r hr
    · rw [heq]
      refine ⟨hC.capacity, fun r hr => ?_, fun r hr => ?_⟩
      · rcases mem_put.mp hr with rfl | ⟨hr, -⟩
        · exact hu
        · exact hC.held r hr
      · rcases hr with ⟨⟨⟩⟩ | hr
        · exact .inl ⟨u, mem_put.mpr (.inl rfl), rfl, le_rfl⟩
        · exact (hC.covers r hr).put hlater

theorem after (hC : C.Follows capacity records seen) (h : Gossiped records)
    (hcalls : ∀ call ∈ calls, call = .trim ∨ ∃ r ∈ records, call = .merge r) :
    (after C calls).Follows capacity records fun r => .merge r ∈ calls ∨ seen r := by
  induction calls generalizing C seen with
  | nil => exact ⟨hC.capacity, hC.held, fun r hr => hC.covers r (hr.resolve_left List.not_mem_nil)⟩
  | cons call calls ih =>
      obtain ⟨hcall, hcalls⟩ := List.forall_mem_cons.mp hcalls
      have hafter := ih (hC.perform h hcall) hcalls
      refine ⟨hafter.capacity, hafter.held, fun r hr => hafter.covers r ?_⟩
      rw [List.mem_cons] at hr
      tauto

end Follows

theorem mem_of_above_lt (h : Gossiped records) (hheld : ∀ r ∈ C.entries, r ∈ records)
    (hcovers : C.Covers r) (hr : r ∈ newest records) (habove : C.above r < C.capacity) :
    r ∈ C.entries := by
  obtain ⟨s, hs, he, hle⟩ := hcovers.resolve_right (not_le.mpr habove)
  obtain ⟨hr, hmax⟩ := mem_newest.mp hr
  have hseen := UInt64.le_antisymm ((stamp_le_iff he.symm).mp hle) (hmax s (hheld s hs) he)
  rwa [h.apart r hr s (hheld s hs) he.symm hseen]

theorem mem_newest_of_mem (hheld : ∀ r ∈ C.entries, r ∈ records)
    (hcovers : ∀ r ∈ records, C.Covers r) (hlength : C.entries.length ≤ C.capacity)
    (hr : r ∈ C.entries) : r ∈ newest records := by
  refine mem_newest.mpr ⟨hheld r hr, fun s hs he => ?_⟩
  rw [← stamp_le_iff he]
  rcases hcovers s hs with ⟨x, hx, hxe, hle⟩ | hfull
  · rwa [eq_of_mem hx hr (hxe.trans he)] at hle
  · -- A full house of later records has no room left for this one.
    by_contra hlt
    have habove := (above_anti (C := C) (not_le.mp hlt).le).trans_lt (above_lt_length hr)
    omega

theorem eq_top_of_covers (h : Gossiped records) (hheld : ∀ r ∈ C.entries, r ∈ records)
    (hcovers : ∀ r ∈ records, C.Covers r) (hlength : C.entries.length ≤ C.capacity) :
    C = (ofList C.capacity (newest records) h.pairwise_newest).top := by
  refine eq_of_mem_iff rfl fun r => ?_
  rw [mem_top, mem_ofList]
  constructor
  · intro hr
    have hroom : C.above r < C.capacity := (above_lt_length hr).trans_le hlength
    refine ⟨mem_newest_of_mem hheld hcovers hlength hr, ?_⟩
    refine (above_le_above fun s hs hlt => ?_).trans_lt hroom
    rw [mem_ofList] at hs
    exact mem_of_above_lt h hheld (hcovers s (mem_newest.mp hs).1) hs
      ((above_anti hlt.le).trans_lt hroom)
  · rintro ⟨hr, habove⟩
    refine mem_of_above_lt h hheld (hcovers r (mem_newest.mp hr).1) hr ?_
    refine (above_le_above fun s hs _ => ?_).trans_lt habove
    exact mem_ofList.mpr (mem_newest_of_mem hheld hcovers hlength hs)

theorem after_delivery (capacity : Nat) {calls : List Call} (h : Gossiped records)
    (hcalls : Delivers calls records) :
    after (empty capacity) (calls ++ [.trim]) =
      (ofList capacity (newest records) h.pairwise_newest).top := by
  have hempty : (empty capacity).Follows capacity records fun _ => False :=
    ⟨rfl, fun _ hr => (List.not_mem_nil hr).elim, fun _ => False.elim⟩
  have honly : ∀ call ∈ calls ++ [.trim], call = .trim ∨ ∃ r ∈ records, call = .merge r := by
    intro call hcall
    rcases List.mem_append.mp hcall with hcall | hcall
    · exact hcalls.only call hcall
    · exact .inl (List.mem_singleton.mp hcall)
  have hafter := hempty.after h honly
  have hlength : (after (empty capacity) (calls ++ [.trim])).entries.length ≤
      (after (empty capacity) (calls ++ [.trim])).capacity := by
    rw [after_append]
    exact List.length_take_le _ _
  have hcovers (r : Record) (hr : r ∈ records) :
      (after (empty capacity) (calls ++ [.trim])).Covers r :=
    hafter.covers r (.inl (List.mem_append_left _ (hcalls.every r hr)))
  rw [eq_top_of_covers h hafter.held hcovers hlength, hafter.capacity]

end Cache

theorem StoreKind.Lockstep.holds {σ : Type} [StoreKind σ] {rel : σ → Cache → Prop}
    (L : Lockstep rel) {s : σ} {C : Cache} (h : rel s C) : Holds s C.entries where
  size := L.size h
  recent := L.recent h
  get? := L.get? h

/-- Whatever the order in which gossip came, however often, and wherever it was trimmed on the way,
a last trim leaves the greatest of the newest records in either store. -/
theorem holds_freshest (capacity : Nat) {records : List Record} {calls : List Call}
    (h : Gossiped records) (hcalls : Delivers calls records) :
    let s := after (MemoryStore.empty capacity) (calls ++ [.trim])
    let t := after (DurableStore.empty capacity) (calls ++ [.trim])
    Holds s (freshest capacity records) ∧ Holds t (freshest capacity records) ∧
      ∀ others, Delivers others records →
        let s' := after (MemoryStore.empty capacity) (others ++ [.trim])
        let t' := after (DurableStore.empty capacity) (others ++ [.trim])
        ∀ later, answers s' later = answers s later ∧ answers t' later = answers t later ∧
          answers s later = answers t later := by
  have hmemory {calls : List Call} (hcalls : Delivers calls records) :
      (after (MemoryStore.empty capacity) (calls ++ [.trim])).Shows
        (Cache.ofList capacity (newest records) h.pairwise_newest).top :=
    Cache.after_delivery capacity h hcalls ▸ MemoryStore.shows_after capacity (calls ++ [.trim])
  have L := DurableStore.lockstep_mirrors.trans MemoryStore.lockstep_shows
  have hdurable {calls : List Call} (hcalls : Delivers calls records) :=
    And.intro (DurableStore.mirrors_after capacity (calls ++ [.trim])) (hmemory hcalls)
  refine ⟨MemoryStore.lockstep_shows.holds (hmemory hcalls), L.holds ⟨_, hdurable hcalls⟩,
    fun others hothers later => ⟨?_, ?_, ?_⟩⟩
  · rw [MemoryStore.lockstep_shows.answers_eq (hmemory hothers),
      MemoryStore.lockstep_shows.answers_eq (hmemory hcalls)]
  · rw [L.answers_eq ⟨_, hdurable hothers⟩, L.answers_eq ⟨_, hdurable hcalls⟩]
  · rw [MemoryStore.lockstep_shows.answers_eq (hmemory hcalls), L.answers_eq ⟨_, hdurable hcalls⟩]

/-- The older record of an identity comes again after the newer one was evicted. -/
theorem holds_freshest_of_evicted :
    let old : Record := { identity := "a", publicKey := "k", lastSeen := 1 }
    let new : Record := { old with lastSeen := 2, port := 1 }
    let other : Record := { old with identity := "b", lastSeen := 3 }
    let records : List Record := [old, new, other]
    let calls : List Call := [.merge new, .merge other, .trim, .merge old]
    Gossiped records ∧ Delivers calls records ∧ freshest 1 records = [other] ∧
      Holds (after (MemoryStore.empty 1) (calls ++ [.trim])) [other] := by
  intro old new other records calls
  have hrecords : Gossiped records := ⟨by decide, by decide, by decide, by decide⟩
  have hcalls : Delivers calls records := ⟨by decide, by decide⟩
  have hnewest : newest records = [new, other] := by decide
  have hfreshest : freshest 1 records = [other] := by
    have hlater : ¬other.stamp ≤ new.stamp := by decide
    simp [freshest, hnewest, List.mergeSort, hlater]
  exact ⟨hrecords, hcalls, hfreshest, hfreshest ▸ (holds_freshest 1 hrecords hcalls).1⟩

end PeerBook
