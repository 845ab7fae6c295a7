import PeerBook.Proofs.Store.CacheLike
import PeerBook.Proofs.Store.Merging
import PeerBook.Proofs.Store.Pinning

namespace PeerBook

open StoreKind

/-- A kind of store that cannot be told apart from the list of its records, and that stays as it is
where a merge is turned away or a trim evicts nothing. -/
class SteadyStore (σ : Type) extends CacheLike σ where
  eq_of_rejected {s t : σ} {r : Record} {report : MergeReport}
    (h : RecordStore.merge s r = .ok (report, t)) (hreport : report.outcome ≠ .applied) : t = s
  eq_of_trim {s t : σ} (h : RecordStore.trim s = .ok (0, t)) : t = s

instance : SteadyStore MemoryStore where
  eq_of_rejected := MergingStore.eq_of_rejected
  eq_of_trim {s t} h := by
    simp only [RecordStore.trim, MemoryStore.trim, Except.ok.injEq, Prod.mk.injEq] at h
    obtain ⟨hnone, rfl⟩ := h
    rw [List.length_eq_zero_iff.mp hnone]
    rfl

instance : SteadyStore DurableStore where
  eq_of_rejected := MergingStore.eq_of_rejected
  eq_of_trim {s t} h := by
    simp only [RecordStore.trim, Except.ok.injEq, Prod.mk.injEq] at h
    obtain ⟨hnone, rfl⟩ := h
    have hsame : (s.tables.trim s.capacity).2 = s.tables := by
      rw [Tables.trim] at hnone ⊢
      split
      · rfl
      · rename_i hover
        rw [if_neg hover] at hnone
        dsimp only at hnone ⊢
        rw [List.length_eq_zero_iff.mp hnone]
        rfl
    rw [hsame]
    rfl

namespace Cache

variable {C : Cache} {r u : Record} {us : List Record} {identity : String}

theorem find?_after_merges_of_ne (h : ∀ u ∈ us, u.identity ≠ identity) :
    (after C (us.map .merge)).find? identity = C.find? identity := by
  induction us generalizing C with
  | nil => rfl
  | cons u us ih =>
      obtain ⟨hu, hus⟩ := List.forall_mem_cons.mp h
      rw [List.map_cons, after_cons, ih hus, find?_perform_merge_of_ne hu]

/-- Records with different identities are merged independently of each other. -/
theorem find?_after_merges (hdistinct : (us.map Record.identity).Nodup) (hr : r ∈ us)
    (hnamed : r.identity ≠ "") : (after C (us.map .merge)).find? r.identity =
      some (Record.mergedInto (C.find? r.identity) r) := by
  induction us generalizing C with
  | nil => cases hr
  | cons u us ih =>
      obtain ⟨hu, hus⟩ := List.nodup_cons.mp hdistinct
      rw [List.map_cons, after_cons]
      rcases List.mem_cons.mp hr with rfl | hr
      · have hothers : ∀ v ∈ us, v.identity ≠ r.identity :=
          fun v hv he => hu (List.mem_map.mpr ⟨v, hv, he⟩)
        rw [find?_after_merges_of_ne hothers, find?_perform_merge hnamed]
      · have hne : u.identity ≠ r.identity := fun he => hu (List.mem_map.mpr ⟨r, hr, he.symm⟩)
        rw [ih hus hr, find?_perform_merge_of_ne hne]

def Outranks (C : Cache) (r : Record) : Prop :=
  ∃ held, C.find? r.identity = some held ∧ held.Outranks r

theorem outranks_perform_merge (hnamed : r.identity ≠ "") : (perform C (.merge r)).2.Outranks r :=
  ⟨_, find?_perform_merge hnamed, Record.mergedInto_outranks _ r⟩

theorem Outranks.perform_merge (h : C.Outranks r) (u : Record) :
    (perform C (.merge u)).2.Outranks r := by
  obtain ⟨held, hheld, houtranks⟩ := h
  by_cases hsame : u.identity = r.identity
  · by_cases hnamed : u.identity = ""
    · rw [perform_nameless rfl hnamed]
      exact ⟨held, hheld, houtranks⟩
    · refine ⟨held.absorb u, ?_, houtranks.absorb u⟩
      rw [← hsame, find?_perform_merge hnamed, hsame, hheld]
      rfl
  · exact ⟨held, (find?_perform_merge_of_ne hsame).trans hheld, houtranks⟩

theorem Outranks.after_merges (h : C.Outranks r) (us : List Record) :
    (after C (us.map .merge)).Outranks r := by
  induction us generalizing C with
  | nil => exact h
  | cons u us ih => exact ih (h.perform_merge u)

theorem outranks_after_merges (hr : r ∈ us) (hnamed : r.identity ≠ "") :
    (after C (us.map .merge)).Outranks r := by
  induction us generalizing C with
  | nil => cases hr
  | cons u us ih =>
      rw [List.map_cons, after_cons]
      rcases List.mem_cons.mp hr with rfl | hr
      · exact (outranks_perform_merge hnamed).after_merges us
      · exact ih hr

end Cache

namespace SteadyStore

variable {σ : Type} [SteadyStore σ] {s : σ} {C : Cache} {r : Record}

open CacheLike

theorem merge_of_outranked (hC : shows s C) (h : C.Outranks r) (hnamed : r.identity ≠ "") :
    ∃ report, RecordStore.merge s r = .ok (report, s) ∧ report.outcome ≠ .applied := by
  obtain ⟨held, hheld, houtranks⟩ := h
  have halike := lockstep.merge hC r
  simp only [RecordStore.merge, if_neg hnamed, hheld] at halike
  obtain ⟨t, hmerge, -⟩ := halike.exists_ok
  have hrejected := Record.outcome_ne_applied_iff.mpr houtranks
  exact ⟨_, by rw [hmerge, eq_of_rejected hmerge hrejected], hrejected⟩

end SteadyStore

end PeerBook
