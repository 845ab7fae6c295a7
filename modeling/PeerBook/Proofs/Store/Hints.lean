import PeerBook.Proofs.Packet.RoundTrip
import PeerBook.Proofs.Store.CacheLike

namespace PeerBook

namespace Record

theorem identity_told (r : Record) : r.told.identity = r.identity := rfl

theorem lastSeen_told (r : Record) : r.told.lastSeen = r.lastSeen := rfl

theorem endpoint?_congr {r s : Record} (haddress : r.address = s.address) (hport : r.port = s.port) :
    r.endpoint? = s.endpoint? := by
  simp only [endpoint?, hasKnownAddress, haddress, hport]

theorem endpoint?_told (r : Record) : r.told.endpoint? = r.endpoint? :=
  endpoint?_congr rfl rfl

theorem contradicts_told (r s : Record) : r.told.contradicts s.told = r.contradicts s := rfl

theorem updated_told (r s : Record) : r.told.updated s.told = (r.updated s).told := rfl

end Record

def Resolution.asTold : Resolution → Resolution
  | insert r => insert r.told
  | replace r => replace r.told
  | reject why => reject why

theorem Resolution.outcome_asTold (resolution : Resolution) :
    resolution.asTold.outcome = resolution.outcome := by
  cases resolution <;> rfl

theorem resolveMerge_told (stored : Option Record) (incoming : Record) :
    resolveMerge (stored.map Record.told) incoming.told = (resolveMerge stored incoming).asTold := by
  cases stored with
  | none => rfl
  | some r =>
      simp only [Option.map_some, resolveMerge, Record.contradicts_told, Record.lastSeen_told,
        Record.updated_told, apply_ite Resolution.asTold]
      rfl

def MergeReport.asTold (report : MergeReport) : MergeReport :=
  { report with previous := report.previous.map Record.told }

namespace Cache

open StoreKind

variable {C : Cache} {r : Record}

def asTold (C : Cache) : Cache where
  capacity := C.capacity
  entries := C.entries.map Record.told
  latestFirst := List.pairwise_map.mpr C.latestFirst
  unique := List.pairwise_map.mpr C.unique

theorem mem_asTold : r ∈ C.asTold.entries ↔ ∃ s ∈ C.entries, s.told = r :=
  List.mem_map

theorem find?_asTold (C : Cache) (identity : String) :
    C.asTold.find? identity = (C.find? identity).map Record.told :=
  List.find?_map ..

theorem put_asTold (C : Cache) (r : Record) : C.asTold.put r.told = (C.put r).asTold := by
  refine eq_of_mem_iff rfl fun s => ?_
  rw [mem_put, mem_asTold, mem_asTold]
  constructor
  · rintro (rfl | ⟨⟨s, hs, rfl⟩, hne⟩)
    · exact ⟨r, mem_put.mpr (.inl rfl), rfl⟩
    · exact ⟨s, mem_put.mpr (.inr ⟨hs, hne⟩), rfl⟩
  · rintro ⟨s, hs, rfl⟩
    rcases mem_put.mp hs with rfl | ⟨hs, hne⟩
    · exact .inl rfl
    · exact .inr ⟨⟨s, hs, rfl⟩, hne⟩

theorem keep_asTold (C : Cache) {p : Record → Bool} (h : ∀ r, p r.told = p r) :
    C.asTold.keep p = (C.keep p).asTold := by
  have hentries : (C.entries.map Record.told).filter p = (C.entries.filter p).map Record.told := by
    rw [List.filter_map]
    congr 1
    exact List.filter_congr fun r _ => h r
  simp only [keep, asTold, hentries]

theorem top_asTold (C : Cache) : C.asTold.top = C.top.asTold := by
  simp only [top, asTold, List.map_take]

end Cache

def Call.asTold : Call → Call
  | upsert r => upsert r.told
  | merge r => merge r.told
  | call => call

def Answer.asTold : Answer → Answer
  | found r => found (r.map Record.told)
  | listed rs => listed (rs.map Record.told)
  | merged report => merged report.asTold
  | answer => answer

namespace Cache

open StoreKind

/-- A cache answers as a cache that holds only what is told. -/
theorem perform_asTold (C : Cache) (call : Call) :
    perform C.asTold call.asTold =
      ((perform C call).1.map Answer.asTold, (perform C call).2.asTold) := by
  cases call with
  | get identity =>
      change (Except.ok (Answer.found (C.asTold.find? identity)), C.asTold) = _
      rw [find?_asTold]
      rfl
  | upsert r =>
      change perform C.asTold (.upsert r.told) = _
      by_cases hnamed : r.identity = ""
      · rw [perform_nameless (r := r.told) rfl hnamed, perform_nameless (r := r) rfl hnamed]
        rfl
      · rw [perform_upsert hnamed, perform_upsert (r := r.told) hnamed, put_asTold]
        rfl
  | merge r =>
      change perform C.asTold (.merge r.told) = _
      by_cases hnamed : r.identity = ""
      · rw [perform_nameless (r := r.told) rfl hnamed, perform_nameless (r := r) rfl hnamed]
        rfl
      · rw [perform_merge hnamed, perform_merge (r := r.told) hnamed, Record.identity_told,
          find?_asTold, resolveMerge_told, Resolution.outcome_asTold]
        cases resolveMerge (C.find? r.identity) r with
        | insert s | replace s => exact congrArg (Prod.mk _) (put_asTold C s)
        | reject why => rfl
  | recent count =>
      change (Except.ok (Answer.listed (C.asTold.entries.take count)), C.asTold) = _
      rw [asTold, ← List.map_take]
      rfl
  | all =>
      change (Except.ok (Answer.listed (C.asTold.entries.take C.capacity)), C.asTold) = _
      rw [asTold, ← List.map_take]
      rfl
  | trim =>
      change (Except.ok (Answer.counted (C.asTold.entries.length - C.capacity)), C.asTold.top) = _
      rw [top_asTold, asTold, List.length_map]
      rfl
  | sweep olderThan =>
      change (Except.ok (Answer.counted (C.asTold.entries.countP fun r => r.lastSeen < olderThan)),
        C.asTold.keep fun r => olderThan ≤ r.lastSeen) = _
      rw [keep_asTold C fun r => rfl, asTold, List.countP_map]
      rfl
  | remove identity =>
      change (Except.ok (Answer.told (C.asTold.find? identity).isSome),
        C.asTold.keep fun r => r.identity ≠ identity) = _
      rw [keep_asTold C fun r => rfl, find?_asTold, Option.isSome_map]
      rfl
  | size =>
      change (Except.ok (Answer.counted C.asTold.entries.length), C.asTold) = _
      rw [asTold, List.length_map]
      rfl
  | isEmpty =>
      change (Except.ok (Answer.told (C.asTold.entries.length == 0)), C.asTold) = _
      rw [asTold, List.length_map]
      rfl
  | reopen new => rfl

end Cache

namespace CacheLike

open StoreKind

variable {σ τ : Type} [CacheLike σ] [CacheLike τ] {s : σ} {t : τ}

def Agree (s : σ) (t : τ) : Prop :=
  ∃ C D, shows s C ∧ shows t D ∧ C.asTold = D.asTold

theorem agree_empty (capacity : Nat) : Agree (empty capacity : σ) (empty capacity : τ) :=
  ⟨_, _, lockstep.empty capacity, lockstep.empty capacity, rfl⟩

namespace Agree

theorem perform (h : Agree s t) {call call' : Call} (hcall : call.asTold = call'.asTold) :
    (perform s call).1.map Answer.asTold = (perform t call').1.map Answer.asTold ∧
      Agree (StoreKind.perform s call).2 (StoreKind.perform t call').2 := by
  obtain ⟨C, D, hC, hD, hsame⟩ := h
  obtain ⟨hanswer, hshown⟩ := lockstep.perform hC call
  obtain ⟨hanswer', hshown'⟩ := lockstep.perform hD call'
  have htold := C.perform_asTold call
  rw [hsame, hcall, D.perform_asTold] at htold
  obtain ⟨htold, hstore⟩ := Prod.mk.inj htold
  rw [hanswer, hanswer']
  exact ⟨htold.symm, _, _, hshown, hshown', hstore.symm⟩

theorem after (h : Agree s t) {calls calls' : List Call}
    (hcalls : calls.map Call.asTold = calls'.map Call.asTold) :
    Agree (after s calls) (StoreKind.after t calls') := by
  induction calls generalizing s t calls' with
  | nil =>
      obtain rfl := List.map_eq_nil_iff.mp hcalls.symm
      exact h
  | cons call calls ih =>
      obtain ⟨call', rest, rfl, hcall, hrest⟩ := List.map_eq_cons_iff.mp hcalls.symm
      exact ih (h.perform hcall.symm).2 hrest.symm

theorem get? (h : Agree s t) (identity : String) : ∃ found found',
    RecordStore.get? s identity = .ok found ∧ RecordStore.get? t identity = .ok found' ∧
      found.map Record.told = found'.map Record.told := by
  obtain ⟨C, D, hC, hD, hsame⟩ := h
  refine ⟨_, _, lockstep.get? hC identity, lockstep.get? hD identity, ?_⟩
  rw [← Cache.find?_asTold, ← Cache.find?_asTold, hsame]

theorem recent (h : Agree s t) (count : Nat) : ∃ records records',
    RecordStore.recent s count = .ok records ∧ RecordStore.recent t count = .ok records' ∧
      records.map Record.told = records'.map Record.told := by
  obtain ⟨C, D, hC, hD, hsame⟩ := h
  refine ⟨_, _, lockstep.recent hC count, lockstep.recent hD count, ?_⟩
  have hentries : C.entries.map Record.told = D.entries.map Record.told :=
    congrArg Cache.entries hsame
  rw [List.map_take, List.map_take, hentries]

theorem all (h : Agree s t) : ∃ records records',
    RecordStore.all s = .ok records ∧ RecordStore.all t = .ok records' ∧
      records.map Record.told = records'.map Record.told := by
  obtain ⟨C, D, hC, hD, hsame⟩ := h
  have hcapacity : RecordStore.capacity s = RecordStore.capacity t :=
    (lockstep.capacity hC).trans ((congrArg Cache.capacity hsame).trans (lockstep.capacity hD).symm)
  rw [RecordStore.all, RecordStore.all, hcapacity]
  exact Agree.recent ⟨C, D, hC, hD, hsame⟩ _

theorem of_settle {α : Type} {answer : α → Answer} {x : Except Fault (α × σ)}
    {y : Except Fault (α × τ)}
    (h : (settle answer s x).1.map Answer.asTold = (settle answer t y).1.map Answer.asTold ∧
      Agree (settle answer s x).2 (settle answer t y).2) :
    (∃ fault, x = .error fault ∧ y = .error fault) ∨
      ∃ a b s' t', x = .ok (a, s') ∧ y = .ok (b, t') ∧
        (answer a).asTold = (answer b).asTold ∧ Agree s' t' := by
  obtain ⟨hanswer, hstore⟩ := h
  cases x with
  | error fault =>
      cases y with
      | error fault' =>
          obtain rfl := Except.error.inj hanswer
          exact .inl ⟨fault, rfl, rfl⟩
      | ok result => cases hanswer
  | ok result =>
      cases y with
      | error fault => cases hanswer
      | ok result' => exact .inr ⟨_, _, _, _, rfl, rfl, Except.ok.inj hanswer, hstore⟩

theorem merge (h : Agree s t) (r : Record) :
    (∃ fault, RecordStore.merge s r = .error fault ∧ RecordStore.merge t r = .error fault) ∨
      ∃ report report' s' t', RecordStore.merge s r = .ok (report, s') ∧
        RecordStore.merge t r = .ok (report', t') ∧ report.asTold = report'.asTold ∧
        Agree s' t' := by
  have hsettled := h.perform (rfl : (Call.merge r).asTold = _)
  refine (of_settle hsettled).imp_right ?_
  rintro ⟨report, report', s', t', hs, ht, htold, hstore⟩
  exact ⟨report, report', s', t', hs, ht, Answer.merged.inj htold, hstore⟩

theorem trim (h : Agree s t) :
    (∃ fault, RecordStore.trim s = .error fault ∧ RecordStore.trim t = .error fault) ∨
      ∃ evicted s' t', RecordStore.trim s = .ok (evicted, s') ∧
        RecordStore.trim t = .ok (evicted, t') ∧ Agree s' t' := by
  have hsettled := h.perform (rfl : Call.trim.asTold = _)
  refine (of_settle hsettled).imp_right ?_
  rintro ⟨evicted, evicted', s', t', hs, ht, hcounted, hstore⟩
  obtain rfl := Answer.counted.inj hcounted
  exact ⟨evicted, s', t', hs, ht, hstore⟩

end Agree

end CacheLike

end PeerBook
