import PeerBook.Proofs.Gossip.Reception
import PeerBook.Proofs.Packet.RoundTrip
import PeerBook.Proofs.Store.Batches

namespace PeerBook

namespace Fate

/-- Nothing comes of an entry with this fate, and it is not the store's fault. -/
def isVoid : Fate → Bool
  | own | stale | mismatched => true
  | failed | discovered | moved | refreshed => false

variable {fate : Fate}

theorem isApplied_of_isVoid (h : fate.isVoid) : fate.isApplied = false := by
  cases fate <;> first | rfl | cases h

theorem isProbed_of_isVoid (h : fate.isVoid) : fate.isProbed = false := by
  cases fate <;> first | rfl | cases h

theorem ofReport_isVoid {report : MergeReport} {r : Record} (h : report.outcome ≠ .applied) :
    (ofReport report r).isVoid := by
  rw [ofReport]
  cases houtcome : report.outcome with
  | applied => exact (h houtcome).elim
  | rejected why => cases why <;> rfl

end Fate

namespace Visit

variable {vs : List Visit}

theorem count_of_isVoid (h : ∀ v ∈ vs, v.fate.isVoid) {fate : Fate} (hfate : fate.isVoid = false) :
    count fate vs = 0 := by
  refine List.countP_eq_zero.mpr fun v hv he => ?_
  have hvoid := h v hv
  rw [of_decide_eq_true he, hfate] at hvoid
  cases hvoid

theorem countP_isApplied_of_isVoid (h : ∀ v ∈ vs, v.fate.isVoid) :
    (vs.countP fun v => v.fate.isApplied) = 0 := by
  refine List.countP_eq_zero.mpr fun v hv => ?_
  rw [Fate.isApplied_of_isVoid (h v hv)]
  exact Bool.false_ne_true

theorem probes_of_isVoid (h : ∀ v ∈ vs, v.fate.isVoid) : vs.filterMap probe? = [] := by
  refine List.filterMap_eq_nil_iff.mpr fun v hv => ?_
  rw [probe?, Fate.isProbed_of_isVoid (h v hv), if_neg Bool.false_ne_true]

end Visit

namespace Gossiper

variable {σ : Type} [SteadyStore σ] {s t : σ} {g g' h : Gossiper σ} {C : Cache} {r : Record}
  {records : List Record} {identity text source other : String} {now later : Nat}
  {summary : BatchSummary}

open CacheLike SteadyStore StoreKind

theorem takeIn_of_outranked (hC : shows s C) (hnamed : r.identity ≠ "")
    (h : r.identity ≠ identity → C.Outranks r) :
    ∃ v, takeIn identity s r = (v, s) ∧ v.fate.isVoid := by
  rw [takeIn]
  split
  · exact ⟨_, rfl, rfl⟩
  · rename_i hother
    obtain ⟨report, hmerge, hrejected⟩ := merge_of_outranked hC (h hother) hnamed
    rw [hmerge]
    exact ⟨_, rfl, Fate.ofReport_isVoid hrejected⟩

theorem visits_of_outranked (hC : shows s C)
    (h : ∀ r ∈ records, r.identity ≠ "" ∧ (r.identity ≠ identity → C.Outranks r)) :
    ∃ vs, visits identity s records = (vs, s) ∧ ∀ v ∈ vs, v.fate.isVoid := by
  induction records with
  | nil => exact ⟨[], rfl, nofun⟩
  | cons r rs ih =>
      obtain ⟨⟨hnamed, hr⟩, hrs⟩ := List.forall_mem_cons.mp h
      obtain ⟨v, htake, hv⟩ := takeIn_of_outranked hC hnamed hr
      obtain ⟨vs, hvisits, hvs⟩ := ih hrs
      refine ⟨v :: vs, ?_, List.forall_mem_cons.mpr ⟨hv, hvs⟩⟩
      rw [visits_cons, htake]
      dsimp only
      rw [hvisits]

theorem trimmed_of_room (h : (trimmed t).1 = 0) : trimmed t = (0, t) := by
  rw [trimmed] at h ⊢
  cases htrim : RecordStore.trim t with
  | error fault => rfl
  | ok result =>
      obtain ⟨evicted, u⟩ := result
      rw [htrim] at h
      obtain rfl : evicted = 0 := h
      rw [eq_of_trim htrim]

/-- A batch that evicts nothing leaves what its merges have left. -/
theorem receive_of_room (hC : shows g.store C)
    (h : g.receive text source now = (.processed summary, g')) (hroom : summary.evicted = 0) :
    ∃ packet, Packet.decode text = .ok packet ∧ trimmed g'.store = (0, g'.store) ∧
      shows g'.store (after C
        ((packet.records.filter fun r => r.identity ≠ g.localIdentity).map .merge)) := by
  rcases g.receive_cases text source now with ⟨hnot, -⟩ |
    ⟨packet, vs, t, throttle, hdecode, hvisits, hreceive⟩
  · exact (hnot summary (congrArg Prod.fst h)).elim
  · rw [hreceive] at h
    cases h
    have htrimmed := trimmed_of_room hroom
    have hmerged := snd_visits g.localIdentity g.store packet.records
    rw [hvisits] at hmerged
    dsimp only at hmerged ⊢
    refine ⟨packet, hdecode, ?_, ?_⟩
    · rw [htrimmed]
      exact htrimmed
    · rw [htrimmed, hmerged]
      exact lockstep.after hC _

/-- A packet that was taken in without an eviction does nothing when it comes again, whoever it
comes from: it is read once more, and what is stored and what is sent stays as it is. -/
theorem replay_does_nothing (hC : shows g.store C)
    (hfirst : g.receive text source now = (.processed summary, g')) (hroom : summary.evicted = 0)
    (hstore : h.store = g'.store) (hown : h.localIdentity = g.localIdentity)
    (hheard : h.throttle.admits other later) :
    ∃ again h', h.receive text other later = (.processed again, h') ∧
      (again.applied = 0 ∧ again.discovered = 0 ∧ again.probesSent = 0 ∧ again.failed = 0 ∧
        again.evicted = 0) ∧
      h'.store = h.store ∧ h'.transport = h.transport := by
  obtain ⟨packet, hdecode, htrimmed, hshows⟩ := receive_of_room hC hfirst hroom
  rw [← hstore] at htrimmed hshows
  have houtranked : ∀ r ∈ packet.records, r.identity ≠ "" ∧ (r.identity ≠ h.localIdentity →
      (after C ((packet.records.filter fun r => r.identity ≠ g.localIdentity).map
        .merge)).Outranks r) := by
    intro r hr
    have hnamed := Packet.identity_ne_of_takes (Packet.takes_of_mem_decode hdecode hr).1
    refine ⟨hnamed, fun hother => Cache.outranks_after_merges ?_ hnamed⟩
    exact List.mem_filter.mpr ⟨hr, decide_eq_true (hown ▸ hother)⟩
  obtain ⟨vs, hvisits, hvoid⟩ := visits_of_outranked hshows houtranked
  have hprobes := Visit.probes_of_isVoid hvoid
  have hadmitted := (Throttle.fst_hear h.throttle other later).trans hheard
  refine ⟨_, _, receive_of_packet hadmitted hdecode hvisits, ⟨?_, ?_, ?_, ?_, ?_⟩, ?_, ?_⟩
  · exact (Nat.zero_add _).trans (Visit.countP_isApplied_of_isVoid hvoid)
  · exact (Nat.zero_add _).trans (Visit.count_of_isVoid hvoid rfl)
  · rw [summaryOf, hprobes]
    rfl
  · exact (Nat.zero_add _).trans (Visit.count_of_isVoid hvoid rfl)
  · exact congrArg Prod.fst htrimmed
  · exact congrArg Prod.snd htrimmed
  · dsimp only
    rw [hprobes, Transport.sendEach_nil]

/-- Entries under one identity with two keys and a tie, over a record without a key. What was applied
first is stale when the packet comes again, after a restart of the node. -/
theorem replay_does_nothing_after_restart :
    let held : Record :=
      { identity := "a", publicKey := "", address := "10.0.0.1", port := 1, lastSeen := 8 }
    let keyed : Record := { held with publicKey := "k", address := "10.0.0.2", lastSeen := 10 }
    let records : List Record :=
      [keyed, { keyed with publicKey := "forged", lastSeen := 20 }, { keyed with port := 2 },
        { keyed with identity := "b" }, { keyed with identity := "me" }]
    let g := start ((MemoryStore.empty 2).put held) "me" {}
    let text := Packet.encode records
    let summary : BatchSummary :=
      { received := 5, skippedSelf := 1, applied := 2, discovered := 1, stale := 1,
        keyMismatches := 1, probesSent := 2 }
    ∃ g', g.receive text "peer" 0 = (.processed summary, g') ∧
      let h := start g'.store "me" {}
      h.throttle.admits "other" 0 ∧
      ∃ again h', h.receive text "other" 0 = (.processed again, h') ∧
        (again.applied = 0 ∧ again.discovered = 0 ∧ again.probesSent = 0 ∧ again.failed = 0 ∧
          again.evicted = 0) ∧
        h'.store = h.store ∧ h'.transport = h.transport := by
  intro held keyed records g text summary
  have hrecords : (records.filter Packet.takes).map Record.told = records := by decide +kernel
  have hdropped : (records.countP fun r => !Packet.takes r) = 0 := by decide +kernel
  have hdecode := Packet.decode_encode records
  rw [hrecords, hdropped] at hdecode
  have hread : ∀ text, Packet.decode text = .ok ⟨records, 0⟩ →
      (g.receive text "peer" 0).1 = .processed summary := by
    intro text htext
    simp only [receive, htext]
    decide +kernel
  have hprocessed := hread text hdecode
  -- The state after the packet gets a name, so that no step has to run the batch again.
  obtain ⟨g', hg'⟩ : ∃ g', (g.receive text "peer" 0).2 = g' := ⟨_, rfl⟩
  have hfirst : g.receive text "peer" 0 = (.processed summary, g') := Prod.ext hprocessed hg'
  have hshows : shows g.store ((Cache.empty 2).put held) :=
    (MemoryStore.lockstep_shows.empty 2).put held
  exact ⟨g', hfirst, rfl, replay_does_nothing hshows hfirst rfl rfl rfl rfl⟩

end Gossiper

end PeerBook
