import PeerBook.Store.Durable
import PeerBook.Store.Faulty
import PeerBook.Store.Memory

namespace PeerBook

class MergingStore (σ : Type) extends RecordStore σ where
  held? : σ → (identity : String) → Option Record
  report_eq {s t : σ} {r : Record} {report : MergeReport} (h : merge s r = .ok (report, t)) :
    report = ⟨(resolveMerge (held? s r.identity) r).outcome, held? s r.identity⟩
  eq_of_rejected {s t : σ} {r : Record} {report : MergeReport} (h : merge s r = .ok (report, t))
    (hreport : report.outcome ≠ .applied) : t = s

theorem Resolution.record?_eq_none {resolution : Resolution} (h : resolution.outcome ≠ .applied) :
    resolution.record? = none := by
  cases resolution with
  | insert | replace => exact (h rfl).elim
  | reject => rfl

namespace MemoryStore

instance : MergingStore MemoryStore where
  held? := find?
  report_eq {s t r report} h := by
    simp only [RecordStore.merge, merge] at h
    split at h <;> cases h
    rfl
  eq_of_rejected {s t r report} h hreport := by
    simp only [RecordStore.merge, merge] at h
    split at h <;> cases h
    rw [Resolution.record?_eq_none hreport]
    rfl

end MemoryStore

namespace DurableStore

theorem merge_eq_ok {s t : DurableStore} {r : Record} {report : MergeReport}
    (h : RecordStore.merge s r = .ok (report, t)) :
    ∃ previous, s.tables.load? r.identity = .ok previous ∧
      report = ⟨(resolveMerge previous r).outcome, previous⟩ ∧
      t = s.withTables ((resolveMerge previous r).record?.elim s.tables
        (s.tables.write previous)) := by
  simp only [RecordStore.merge, Tables.merge] at h
  by_cases hempty : r.identity = ""
  · rw [if_pos hempty] at h
    cases h
  · rw [if_neg hempty] at h
    cases hload : s.tables.load? r.identity with
    | error fault =>
        rw [hload] at h
        cases h
    | ok previous =>
        rw [hload] at h
        cases h
        exact ⟨previous, rfl, rfl, rfl⟩

instance : MergingStore DurableStore where
  held? s identity := (s.tables.load? identity).toOption.join
  report_eq {s t r report} h := by
    obtain ⟨previous, hload, hreport, -⟩ := merge_eq_ok h
    rw [hload]
    exact hreport
  eq_of_rejected {s t r report} h hreport := by
    obtain ⟨previous, -, rfl, rfl⟩ := merge_eq_ok h
    rw [Resolution.record?_eq_none hreport]
    rfl

end DurableStore

namespace FaultyStore

variable {σ : Type} [MergingStore σ]

theorem merge_eq_ok {s t : FaultyStore σ} {r : Record} {report : MergeReport}
    (h : RecordStore.merge s r = .ok (report, t)) :
    ∃ inner, RecordStore.merge s.inner r = .ok (report, inner) ∧ t = s.withInner inner := by
  simp only [RecordStore.merge, refuseIf] at h
  split at h
  · cases h
  · cases hmerge : RecordStore.merge s.inner r with
    | error fault =>
        rw [hmerge] at h
        cases h
    | ok result =>
        rw [hmerge] at h
        cases h
        exact ⟨result.2, rfl, rfl⟩

instance : MergingStore (FaultyStore σ) where
  held? s identity := MergingStore.held? s.inner identity
  report_eq {s t r report} h := by
    obtain ⟨inner, hmerge, -⟩ := merge_eq_ok h
    exact MergingStore.report_eq hmerge
  eq_of_rejected {s t r report} h hreport := by
    obtain ⟨inner, hmerge, rfl⟩ := merge_eq_ok h
    rw [MergingStore.eq_of_rejected hmerge hreport]
    rfl

end FaultyStore

end PeerBook
