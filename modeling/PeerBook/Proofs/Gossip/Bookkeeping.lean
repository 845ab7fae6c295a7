import PeerBook.Proofs.Gossip.Reception
import PeerBook.Proofs.Packet.RoundTrip
import PeerBook.Proofs.Store.Merging

namespace PeerBook

namespace Visit

theorem length_eq (vs : List Visit) : vs.length =
    count .own vs + (vs.countP fun v => v.fate.isApplied) + count .stale vs +
      count .mismatched vs + count .failed vs := by
  induction vs with
  | nil => rfl
  | cons v vs ih =>
      simp only [count] at ih
      simp only [count, List.length_cons, List.countP_cons, ih]
      cases v.fate <;> simp [Fate.isApplied] <;> omega

theorem count_discovered_le (vs : List Visit) :
    count .discovered vs ≤ vs.countP fun v => v.fate.isApplied :=
  List.countP_mono_left fun v _ h => by
    rw [decide_eq_true_eq] at h
    rw [h]
    rfl

theorem isSome_endpoint? (r : Record) : r.endpoint?.isSome = r.hasKnownAddress := by
  rw [Record.endpoint?]
  cases r.hasKnownAddress with
  | false => rfl
  | true => simp only [Bool.not_true, Bool.false_eq_true, if_false]; split <;> rfl

theorem length_probes (vs : List Visit) : (vs.filterMap probe?).length =
    vs.countP fun v => v.fate.isProbed && v.entry.hasKnownAddress := by
  rw [List.length_filterMap_eq_countP]
  refine List.countP_congr fun v _ => ?_
  rw [probe?, ← isSome_endpoint?]
  cases v.fate.isProbed <;> simp

end Visit

namespace Gossiper

variable {σ : Type} [MergingStore σ]

open RecordStore MergingStore

/-- The entries of a batch and their fates by what the store holds as each is taken in, and the
store before and after them. -/
inductive Course (identity : String) : σ → List Visit → σ → Prop
  | done (s : σ) : Course identity s [] s
  | own {s t : σ} {r : Record} {vs : List Visit} :
      r.identity = identity → Course identity s vs t → Course identity s (⟨r, .own⟩ :: vs) t
  | failed {s t : σ} {r : Record} {vs : List Visit} {fault : Fault} :
      r.identity ≠ identity → merge s r = .error fault →
      Course identity s vs t → Course identity s (⟨r, .failed⟩ :: vs) t
  | mismatched {s t : σ} {r p : Record} {vs : List Visit} :
      r.identity ≠ identity → held? s r.identity = some p → p.contradicts r →
      merge s r = .ok (⟨.rejected .keyMismatch, some p⟩, s) →
      Course identity s vs t → Course identity s (⟨r, .mismatched⟩ :: vs) t
  | stale {s t : σ} {r p : Record} {vs : List Visit} :
      r.identity ≠ identity → held? s r.identity = some p → ¬p.contradicts r →
      r.lastSeen ≤ p.lastSeen → merge s r = .ok (⟨.rejected .stale, some p⟩, s) →
      Course identity s vs t → Course identity s (⟨r, .stale⟩ :: vs) t
  | discovered {s u t : σ} {r : Record} {vs : List Visit} :
      r.identity ≠ identity → held? s r.identity = none → merge s r = .ok (⟨.applied, none⟩, u) →
      Course identity u vs t → Course identity s (⟨r, .discovered⟩ :: vs) t
  | moved {s u t : σ} {r p : Record} {vs : List Visit} :
      r.identity ≠ identity → held? s r.identity = some p → ¬p.contradicts r →
      p.lastSeen < r.lastSeen → p.endpointDiffers r → merge s r = .ok (⟨.applied, some p⟩, u) →
      Course identity u vs t → Course identity s (⟨r, .moved⟩ :: vs) t
  | refreshed {s u t : σ} {r p : Record} {vs : List Visit} :
      r.identity ≠ identity → held? s r.identity = some p → ¬p.contradicts r →
      p.lastSeen < r.lastSeen → ¬p.endpointDiffers r → merge s r = .ok (⟨.applied, some p⟩, u) →
      Course identity u vs t → Course identity s (⟨r, .refreshed⟩ :: vs) t

theorem ofReport_applied (p r : Record) : Fate.ofReport ⟨.applied, some p⟩ r =
    if p.endpointDiffers r then .moved else .refreshed := by
  cases h : p.endpointDiffers r <;>
    simp [Fate.ofReport, MergeReport.firstEncounter, MergeReport.movedEndpoint, h]

/-- The report of a merge tells the fate that what was held decides. -/
theorem course_merge {identity : String} {s u t : σ} {r : Record} {report : MergeReport}
    {vs : List Visit} (hother : r.identity ≠ identity) (hmerge : merge s r = .ok (report, u))
    (h : Course identity u vs t) : Course identity s (⟨r, .ofReport report r⟩ :: vs) t := by
  have hkept := eq_of_rejected hmerge
  obtain rfl := report_eq hmerge
  cases hheld : held? s r.identity with
  | none =>
      rw [hheld] at hmerge
      exact .discovered hother hheld hmerge h
  | some p =>
      rw [hheld] at hmerge hkept
      by_cases hkey : p.contradicts r
      · have hresolved : resolveMerge (some p) r = .reject .keyMismatch := by
          simp [resolveMerge, hkey]
        rw [hresolved] at hmerge hkept ⊢
        obtain rfl := hkept (by simp [Resolution.outcome])
        exact .mismatched hother hheld hkey hmerge h
      · by_cases hseen : r.lastSeen ≤ p.lastSeen
        · have hresolved : resolveMerge (some p) r = .reject .stale := by
            simp [resolveMerge, hkey, hseen]
          rw [hresolved] at hmerge hkept ⊢
          obtain rfl := hkept (by simp [Resolution.outcome])
          exact .stale hother hheld hkey hseen hmerge h
        · have hresolved : resolveMerge (some p) r = .replace (p.updated r) := by
            simp [resolveMerge, hkey, hseen]
          have hlater : p.lastSeen < r.lastSeen := UInt64.not_le.mp hseen
          rw [hresolved] at hmerge ⊢
          rw [Resolution.outcome, ofReport_applied]
          by_cases hmoved : p.endpointDiffers r
          · rw [if_pos hmoved]
            exact .moved hother hheld hkey hlater hmoved hmerge h
          · rw [if_neg hmoved]
            exact .refreshed hother hheld hkey hlater hmoved hmerge h

theorem course_takeIn {identity : String} {s t : σ} {r : Record} {vs : List Visit}
    (h : Course identity (takeIn identity s r).2 vs t) :
    Course identity s ((takeIn identity s r).1 :: vs) t := by
  rw [takeIn] at h ⊢
  by_cases hown : r.identity = identity
  · rw [if_pos hown] at h ⊢
    exact .own hown h
  · rw [if_neg hown] at h ⊢
    cases hmerge : merge s r with
    | error fault =>
        rw [hmerge] at h
        exact .failed hown hmerge h
    | ok result =>
        rw [hmerge] at h
        exact course_merge hown hmerge h

theorem course_visits (identity : String) (s : σ) (records : List Record) :
    Course identity s (visits identity s records).1 (visits identity s records).2 := by
  induction records generalizing s with
  | nil => exact .done s
  | cons r rs ih => exact course_takeIn (ih _)

/-- The books of a batch that led from `g` to `g'`, whose entries met the fates `vs`. -/
structure Booked (g g' : Gossiper σ) (text source : String) (summary : BatchSummary)
    (vs : List Visit) : Prop where
  entries : ∃ members items, Json.ofText? text = some (.obj members) ∧
    Json.lookup "nodes" members = some (.arr items) ∧
    vs.map Visit.entry = items.filterMap Packet.record? ∧
    summary.received = vs.length ∧ summary.received + summary.dropped = items.length
  received : summary.received = summary.skippedSelf + summary.applied + summary.stale +
    summary.keyMismatches + summary.failed
  skippedSelf : summary.skippedSelf = Visit.count .own vs
  applied : summary.applied = vs.countP fun v => v.fate.isApplied
  discovered : summary.discovered = Visit.count .discovered vs
  stale : summary.stale = Visit.count .stale vs
  keyMismatches : summary.keyMismatches = Visit.count .mismatched vs
  failed : summary.failed = Visit.count .failed vs
  store : ∃ t, Course g.localIdentity g.store vs t ∧
    (trim t = .ok (summary.evicted, g'.store) ∨
      (∃ fault, trim t = .error fault) ∧ summary.evicted = 0 ∧ g'.store = t)
  events : g'.events = g.events ++ vs.filterMap (Visit.event? source) ++
    [.batchMerged source summary.applied summary.stale summary.keyMismatches]
  /-- Every probe is handed over once, in the order of the entries. -/
  transport : g'.transport = g.transport.sendEach (vs.filterMap Visit.probe?)
  probesSent : summary.probesSent = (g.transport.taken (vs.filterMap Visit.probe?)).length

theorem booked_of_processed {g : Gossiper σ} {text source : String} {now : Nat}
    {summary : BatchSummary} (h : (g.receive text source now).1 = .processed summary) :
    ∃ vs, Booked g (g.receive text source now).2 text source summary vs := by
  rcases g.receive_cases text source now with ⟨hnot, -⟩ |
    ⟨packet, vs, t, throttle, hdecode, hvisits, hreceive⟩
  · exact (hnot summary h).elim
  · rw [hreceive] at h ⊢
    cases h
    obtain ⟨members, items, hread, hitems, hrecords, htotal⟩ := Packet.decode_eq_ok hdecode
    have hentries : vs.map Visit.entry = packet.records := by
      have hmap := map_entry_visits g.localIdentity g.store packet.records
      rwa [hvisits] at hmap
    have hlength : packet.records.length = vs.length := by rw [← hentries, List.length_map]
    have hcourse := course_visits g.localIdentity g.store packet.records
    rw [hvisits] at hcourse
    have htrimmed : trim t = .ok (trimmed t) ∨
        (∃ fault, trim t = .error fault) ∧ (trimmed t).1 = 0 ∧ (trimmed t).2 = t := by
      rw [trimmed]
      cases trim t with
      | ok result => exact .inl rfl
      | error fault => exact .inr ⟨⟨fault, rfl⟩, rfl, rfl⟩
    have hcount (n : Nat) : 0 + n = n := Nat.zero_add n
    exact ⟨vs, {
      entries := ⟨members, items, hread, hitems, hentries.trans hrecords, hlength, htotal⟩
      received := by simpa [summaryOf, BatchSummary.book, hlength] using Visit.length_eq vs
      skippedSelf := hcount _
      applied := hcount _
      discovered := hcount _
      stale := hcount _
      keyMismatches := hcount _
      failed := hcount _
      store := ⟨t, hcourse, htrimmed⟩
      events := rfl
      transport := rfl
      probesSent := hcount _ }⟩

/-- The books of every batch are exact, and what it sends are its probes, in the order of the
entries, as far as the transport takes them. -/
theorem books_exact {g : Gossiper σ} {text source : String} {now : Nat} {summary : BatchSummary}
    (h : (g.receive text source now).1 = .processed summary) :
    ∃ vs, Booked g (g.receive text source now).2 text source summary vs ∧
      summary.discovered ≤ summary.applied ∧
      (vs.filterMap Visit.probe?).length =
        (vs.countP fun v => v.fate.isProbed && v.entry.hasKnownAddress) ∧
      ∃ queued, (g.receive text source now).2.transport.sent = g.transport.sent ++ queued ∧
        queued.length = summary.probesSent ∧ queued.Sublist (vs.filterMap Visit.probe?) ∧
        ((∀ n, ∀ d ∈ vs.filterMap Visit.probe?, g.transport.takes n d) →
          queued = vs.filterMap Visit.probe?) := by
  obtain ⟨vs, hbooked⟩ := booked_of_processed h
  refine ⟨vs, hbooked, ?_, Visit.length_probes vs, ?_⟩
  · rw [hbooked.discovered, hbooked.applied]
    exact Visit.count_discovered_le vs
  · refine ⟨g.transport.taken (vs.filterMap Visit.probe?), ?_, hbooked.probesSent.symm,
      Transport.taken_sublist, Transport.taken_eq_self⟩
    rw [hbooked.transport]
    rfl

/-- Every fate in one batch, a merge and the trim refused by the store, and the second probe refused
by the transport. -/
theorem books_exact_of_refusals :
    let known : Record :=
      { identity := "known", publicKey := "k", address := "10.0.0.1", port := 1, lastSeen := 5 }
    let new : Record := { known with identity := "new", address := "10.0.0.9", port := 9 }
    let records : List Record :=
      [{ known with identity := "me" }, { known with identity := "bad" }, new,
        { known with address := "10.0.0.2", lastSeen := 6 },
        { known with publicKey := "forged", lastSeen := 7 }, known, { new with lastSeen := 8 },
        { known with identity := "" }]
    let store : FaultyStore MemoryStore :=
      { inner := (MemoryStore.empty 1).put known, merges := ["bad"], trims := true }
    let g : Gossiper (FaultyStore MemoryStore) :=
      { Gossiper.start store "me" {} with transport := { takes := fun n _ => n == 0 } }
    let summary : BatchSummary :=
      { received := 7, dropped := 1, skippedSelf := 1, applied := 3, discovered := 1, stale := 1,
        keyMismatches := 1, probesSent := 1, failed := 1 }
    let text := Packet.encode records
    (g.receive text "peer" 0).1 = .processed summary ∧
      ∃ vs, Booked g (g.receive text "peer" 0).2 text "peer" summary vs := by
  intro known new records store g summary text
  have hrecords : (records.filter Packet.takes).map Record.told = records.take 7 := by
    decide +kernel
  have hdropped : (records.countP fun r => !Packet.takes r) = 1 := by decide +kernel
  have hdecode := Packet.decode_encode records
  rw [hrecords, hdropped] at hdecode
  -- The text is generalized, so that no step has to read it again.
  have hread : ∀ text, Packet.decode text = .ok ⟨records.take 7, 1⟩ →
      (g.receive text "peer" 0).1 = .processed summary := by
    intro text htext
    simp only [receive, htext]
    decide +kernel
  have hprocessed := hread text hdecode
  obtain ⟨vs, hbooked, -⟩ := books_exact hprocessed
  exact ⟨hprocessed, vs, hbooked⟩

end Gossiper

end PeerBook
