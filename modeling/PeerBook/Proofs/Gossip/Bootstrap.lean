import PeerBook.Proofs.Gossip.Bookkeeping
import PeerBook.Proofs.Gossip.RoundEffects
import PeerBook.Proofs.Gossip.Targets

namespace PeerBook

structure GossipConfig.Reaches (c : GossipConfig) : Prop where
  fanout : 1 ≤ c.fanout
  packet : 1 ≤ c.maxNodesPerPacket
  sample : 1 ≤ c.bootstrapSample

namespace Gossiper

structure Secluded {σ : Type} (g : Gossiper σ) (C : Cache) (now : Nat) : Prop where
  none_live : ∀ identity ∈ (g.expireInactive now).2.activePeers, identity = g.localIdentity
  others : ∃ r ∈ C.entries, r.identity ≠ g.localIdentity
  located : ∀ r ∈ C.entries, r.identity ≠ g.localIdentity → r.hasKnownAddress

def strangers {σ : Type} (g : Gossiper σ) (C : Cache) : List Record :=
  (C.entries.take g.config.bootstrapSample.toNat).filter fun r => r.identity ≠ g.localIdentity

/-- The one record that a round looks at is the node's own. -/
def Eclipsed {σ : Type} (g : Gossiper σ) (C : Cache) : Prop :=
  g.config.bootstrapSample = 1 ∧ ∃ own, C.entries.head? = some own ∧ own.identity = g.localIdentity

section Strangers

variable {σ : Type} {g : Gossiper σ} {C : Cache} {r : Record} {now : Nat}

theorem mem_strangers : r ∈ g.strangers C ↔
    r ∈ C.entries.take g.config.bootstrapSample.toNat ∧ r.identity ≠ g.localIdentity := by
  rw [strangers, List.mem_filter, decide_eq_true_eq]

theorem strangers_eq_nil_iff (hconfig : g.config.Reaches)
    (hothers : ∃ r ∈ C.entries, r.identity ≠ g.localIdentity) :
    g.strangers C = [] ↔ g.Eclipsed C := by
  have hone (h : g.config.bootstrapSample = 1) : g.config.bootstrapSample.toNat = 1 :=
    congrArg UInt64.toNat h
  rw [Eclipsed, List.eq_nil_iff_forall_not_mem]
  simp only [mem_strangers, not_and, not_not]
  constructor
  · intro hown
    obtain ⟨other, hother, hne⟩ := hothers
    obtain ⟨count, hcount⟩ : ∃ count, g.config.bootstrapSample.toNat = count + 1 :=
      Nat.exists_eq_succ_of_ne_zero (Nat.ne_of_gt (UInt64.le_iff_toNat_le.mp hconfig.sample))
    rw [hcount] at hown
    cases hentries : C.entries with
    | nil =>
        rw [hentries] at hother
        cases hother
    | cons first rest =>
        rw [hentries] at hown hother
        have hfirst : first.identity = g.localIdentity := hown first List.mem_cons_self
        refine ⟨?_, first, rfl, hfirst⟩
        -- A second look would find another record, since the own one is stored once.
        cases count with
        | zero => exact UInt64.toNat_inj.mp hcount
        | succ count =>
            cases rest with
            | nil =>
                obtain rfl := List.mem_singleton.mp hother
                exact (hne hfirst).elim
            | cons second rest =>
                have hunique := C.unique
                rw [hentries] at hunique
                have hdistinct := List.rel_of_pairwise_cons hunique List.mem_cons_self
                have hsecond := hown second (List.mem_cons_of_mem _ List.mem_cons_self)
                exact (hdistinct (hfirst.trans hsecond.symm)).elim
  · rintro ⟨hsample, own, hown, hidentity⟩ r hr
    rw [hone hsample, List.take_one, hown, Option.toList_some, List.mem_singleton] at hr
    rw [hr, hidentity]

theorem secluded_start {store : σ} {identity : String} {config : GossipConfig}
    (hothers : ∃ r ∈ C.entries, r.identity ≠ identity)
    (hlocated : ∀ r ∈ C.entries, r.identity ≠ identity → r.hasKnownAddress) :
    (start store identity config).Secluded C now where
  none_live peer hpeer := by
    obtain ⟨live, hlive⟩ := Option.isSome_iff_exists.mp
      (Std.TreeMap.mem_iff_isSome_getElem?.mp hpeer)
    have hknown := (activePeers_expireInactive.mp hlive).1
    simp [start] at hknown
  others := hothers
  located := hlocated

theorem secluded_of_pair {store : σ} {config : GossipConfig} {capacity : Nat} (own : Record)
    {other : Record} (hother : other.identity ≠ own.identity) (hknown : other.hasKnownAddress) :
    (start store own.identity config).Secluded (((Cache.empty capacity).put own).put other) now := by
  refine secluded_start ⟨other, Cache.mem_put.mpr (.inl rfl), hother⟩ fun r hr hne => ?_
  rcases Cache.mem_put.mp hr with rfl | ⟨hr, -⟩
  · exact hknown
  · rcases Cache.mem_put.mp hr with rfl | ⟨hr, -⟩
    · exact (hne rfl).elim
    · cases hr

end Strangers

section Sends

variable {σ : Type} [CacheLike σ] {g : Gossiper σ} {C : Cache} {draws : Draws} {now : Nat}

open CacheLike

theorem handed_eq (hC : shows g.store C) : g.handed draws =
    sample g.config.maxNodesPerPacket.toNat draws.records (C.entries.take C.capacity) := by
  rw [handed, all_eq hC]

theorem exists_addressOf (hC : shows g.store C) {r : Record} (hr : r ∈ C.entries)
    (hother : r.identity ≠ g.localIdentity) (hknown : r.hasKnownAddress) :
    ∃ address, g.addressOf r.identity = .ok (some address) := by
  have hendpoint : r.endpoint?.isSome := (Visit.isSome_endpoint? r).trans hknown
  obtain ⟨endpoint, hendpoint⟩ := Option.isSome_iff_exists.mp hendpoint
  rw [addressOf, if_neg hother]
  split
  · rename_i address _
    exact ⟨address, rfl⟩
  · refine ⟨endpoint, ?_⟩
    rw [lockstep.get? hC]
    change Except.ok ((C.find? r.identity).bind Record.endpoint?) = _
    rw [Cache.find?_self hr, Option.bind_some, hendpoint]

theorem addressOf_ne_error (hC : shows g.store C) (target : String) (fault : Fault) :
    g.addressOf target ≠ .error fault := by
  intro h
  rw [addressOf, lockstep.get? hC] at h
  split at h
  · cases h
  · split at h <;> cases h

omit [CacheLike σ] in
theorem length_destinations [RecordStore σ] {targets : List String}
    (h : ∀ target ∈ targets, ∃ address, g.addressOf target = .ok (some address)) :
    (g.destinations targets).length = targets.length := by
  rw [destinations, List.length_filterMap_eq_countP, List.countP_eq_length]
  intro target htarget
  obtain ⟨address, haddress⟩ := h target htarget
  rw [haddress]
  rfl

theorem candidates_of_secluded (hC : shows g.store C) (h : g.Secluded C now) :
    ∃ candidates, (g.expireInactive now).2.candidates = .ok candidates ∧
      candidates.Perm ((g.strangers C).map Record.identity) := by
  obtain ⟨candidates, hcandidates, hnodup, -, -, hrecent⟩ :=
    candidates_eq_ok (g := (g.expireInactive now).2) hC
  have hnone : ¬∃ identity ∈ (g.expireInactive now).2.activePeers, identity ≠ g.localIdentity := by
    rintro ⟨identity, hmem, hne⟩
    exact hne (h.none_live identity hmem)
  have hdistinct : ((g.strangers C).map Record.identity).Nodup := by
    refine C.nodup_identities.sublist (List.Sublist.map _ ?_)
    exact List.filter_sublist.trans (List.take_sublist _ _)
  refine ⟨candidates, hcandidates, (List.perm_ext_iff_of_nodup hnodup hdistinct).mpr fun c => ?_⟩
  rw [hrecent hnone c, List.mem_map]
  constructor
  · rintro ⟨hne, r, hr, rfl⟩
    exact ⟨r, mem_strangers.mpr ⟨hr, hne⟩, rfl⟩
  · rintro ⟨r, hr, rfl⟩
    obtain ⟨hr, hne⟩ := mem_strangers.mp hr
    exact ⟨hne, r, hr, rfl⟩

end Sends

section Rounds

variable {σ : Type} [CacheLike σ] {g : Gossiper σ} {C : Cache} {draws : Draws} {now : Nat}

open CacheLike

theorem handed_ne_nil (hC : shows g.store C) (hconfig : g.config.Reaches) (hcapacity : 0 < C.capacity)
    (hstored : C.entries ≠ []) : g.handed draws ≠ [] := by
  have hpacket : 1 ≤ g.config.maxNodesPerPacket.toNat := UInt64.le_iff_toNat_le.mp hconfig.packet
  have hentries := List.length_pos_iff.mpr hstored
  rw [handed_eq hC, ← List.length_pos_iff, length_sample, List.length_take]
  omega

theorem length_datagrams (hC : shows g.store C) (h : g.Secluded C now) :
    let live := (g.expireInactive now).2
    (live.datagrams draws (live.targets draws)).length =
      min g.config.fanout.toNat (g.strangers C).length := by
  intro live
  obtain ⟨candidates, hcandidates, hperm⟩ := candidates_of_secluded hC h
  have htargets : live.targets draws = sample g.config.fanout.toNat draws.targets candidates := by
    rw [targets, hcandidates]
    rfl
  have haddress : ∀ target ∈ live.targets draws,
      ∃ address, live.addressOf target = .ok (some address) := by
    intro target htarget
    rw [htargets] at htarget
    obtain ⟨r, hr, rfl⟩ := List.mem_map.mp (hperm.mem_iff.mp (mem_of_mem_sample htarget))
    obtain ⟨hlatest, hother⟩ := mem_strangers.mp hr
    have hr := List.mem_of_mem_take hlatest
    exact exists_addressOf (g := live) hC hr hother (h.located r hr hother)
  rw [datagrams, addressed, List.length_map, length_destinations haddress, htargets, length_sample,
    hperm.length_eq, List.length_map]

theorem candidates_eq_nil_iff (hC : shows g.store C) (hconfig : g.config.Reaches)
    (h : g.Secluded C now) :
    (g.expireInactive now).2.candidates = .ok [] ↔ g.Eclipsed C := by
  obtain ⟨candidates, hcandidates, hperm⟩ := candidates_of_secluded hC h
  rw [hcandidates, Except.ok.injEq, ← strangers_eq_nil_iff hconfig h.others,
    ← List.length_eq_zero_iff, hperm.length_eq, List.length_map, List.length_eq_zero_iff]

theorem round_of_not_eclipsed (hC : shows g.store C) (hconfig : g.config.Reaches)
    (hcapacity : 0 < C.capacity) (h : g.Secluded C now) (hseen : ¬g.Eclipsed C) (draws : Draws) :
    let live := (g.expireInactive now).2
    let sent := (live.transport.taken (live.datagrams draws (live.targets draws))).length
    live.handed draws ≠ [] ∧ g.round draws now =
      (.ok sent, (live.handOver draws (live.targets draws)).emit
        (.roundCompleted sent (live.handed draws).length)) := by
  intro live sent
  have hhanded : live.handed draws ≠ [] := by
    obtain ⟨r, hr, -⟩ := h.others
    exact handed_ne_nil (g := live) hC hconfig hcapacity (List.ne_nil_of_mem hr)
  refine ⟨hhanded, ?_⟩
  rcases g.round_cases draws now with ⟨fault, hfault | hfault, -⟩ | ⟨reason, hempty | hempty, -⟩ |
    ⟨-, ⟨fault, reached, target, -, hfault, -⟩ | hround⟩
  · obtain ⟨candidates, hcandidates, -⟩ := candidates_of_secluded hC h
    rw [hcandidates] at hfault
    cases hfault
  · rw [all_eq (s := live.store) hC] at hfault
    cases hfault
  · exact absurd ((candidates_eq_nil_iff hC hconfig h).mp hempty) hseen
  · exact absurd hempty hhanded
  · exact absurd hfault (addressOf_ne_error (g := live) hC target fault)
  · exact hround

/-- A round of a secluded node reaches as many of the latest others as it may. It is skipped only if
the single record that it looks at is the node's own. -/
theorem round_of_secluded (hconfig : g.config.Reaches) (hC : shows g.store C)
    (hcapacity : 0 < C.capacity) (htakes : ∀ n d, g.transport.takes n d) (h : g.Secluded C now)
    (draws : Draws) :
    let g' := (g.round draws now).2
    (g.Eclipsed C → (g.round draws now).1 = .ok 0 ∧ g'.transport = g.transport ∧
      g'.events = g.events ++ [.roundSkipped .noCandidates]) ∧
    (¬g.Eclipsed C → ∃ sent records queued, (g.round draws now).1 = .ok sent ∧ 0 < sent ∧
      sent = min g.config.fanout.toNat (g.strangers C).length ∧
      Completed g g' C sent records queued) := by
  intro g'
  let live := (g.expireInactive now).2
  constructor
  · intro heclipsed
    have hround : g.round draws now = (.ok 0, live.emit (.roundSkipped .noCandidates)) := by
      rw [round, (candidates_eq_nil_iff hC hconfig h).mpr heclipsed]
    have hend : g' = live.emit (.roundSkipped .noCandidates) := congrArg Prod.snd hround
    rw [hround, hend]
    exact ⟨rfl, rfl, rfl⟩
  · intro hseen
    obtain ⟨hhanded, hround⟩ := round_of_not_eclipsed hC hconfig hcapacity h hseen draws
    let queued := live.transport.taken (live.datagrams draws (live.targets draws))
    have htaken : queued = live.datagrams draws (live.targets draws) :=
      Transport.taken_eq_self fun n d _ => htakes n d
    have hlength : queued.length = min g.config.fanout.toNat (g.strangers C).length := by
      rw [htaken]
      exact length_datagrams hC h
    have hstrangers : 0 < (g.strangers C).length :=
      List.length_pos_iff.mpr (mt (strangers_eq_nil_iff hconfig h.others).mp hseen)
    have hpos : 0 < queued.length := by
      rw [hlength]
      exact Nat.lt_min.mpr ⟨UInt64.le_iff_toNat_le.mp hconfig.fanout, hstrangers⟩
    have hend : g' = (live.handOver draws (live.targets draws)).emit
        (.roundCompleted queued.length (live.handed draws).length) := congrArg Prod.snd hround
    refine ⟨queued.length, live.handed draws, queued, congrArg Prod.fst hround, hpos, hlength, ?_⟩
    rw [hend]
    exact completed_handOver hC hhanded

/-- A node whose own record is the latest of two. -/
theorem round_of_secluded_pair :
    let own : Record :=
      { identity := "me", publicKey := "k", address := "10.0.0.1", port := 8888, lastSeen := 20 }
    let other : Record := { own with identity := "b", address := "10.0.0.2", lastSeen := 10 }
    let g := start (((MemoryStore.empty 10).put own).put other) "me" {}
    let C := ((Cache.empty 10).put own).put other
    g.config.Reaches ∧ shows g.store C ∧ 0 < C.capacity ∧ (∀ n d, g.transport.takes n d) ∧
      g.Secluded C 0 ∧ ¬g.Eclipsed C ∧
      ∃ records queued, Completed g (g.round {} 0).2 C 1 records queued := by
  intro own other g C
  have hreaches : g.config.Reaches := ⟨by decide, by decide, by decide⟩
  have hshows : shows g.store C :=
    ((MemoryStore.lockstep_shows.empty 10).put own).put other
  have hcapacity : 0 < C.capacity := Nat.zero_lt_succ 9
  have htakes : ∀ n d, g.transport.takes n d := fun _ _ => rfl
  have hsecluded : g.Secluded C 0 := secluded_of_pair own (by decide) (by decide)
  have hseen : ¬g.Eclipsed C := fun h => absurd h.1 (by decide)
  have hone : (g.round {} 0).1 = .ok 1 := by decide +kernel
  obtain ⟨sent, records, queued, hsent, -, -, hcompleted⟩ :=
    (round_of_secluded hreaches hshows hcapacity htakes hsecluded {}).2 hseen
  obtain rfl := Except.ok.inj (hsent.symm.trans hone)
  exact ⟨hreaches, hshows, hcapacity, htakes, hsecluded, hseen, records, queued, hcompleted⟩

/-- What a round is there for: if others are stored, it talks to one of them. -/
def FindsSomebody : Prop :=
  ∀ {σ : Type} [CacheLike σ] (g : Gossiper σ) (C : Cache) (draws : Draws) (now : Nat),
    g.config.validate = .ok () → g.config.Reaches → shows g.store C → 0 < C.capacity →
    (∀ n d, g.transport.takes n d) → g.Secluded C now →
    ∃ queued events, (g.round draws now).2.transport.sent = g.transport.sent ++ queued ∧
      (∃ d ∈ queued, d.kind = syncKind) ∧ (g.round draws now).2.events = g.events ++ events ∧
      ∀ reason, .roundSkipped reason ∉ events

theorem not_findsSomebody : ¬FindsSomebody := by
  intro h
  let own : Record :=
    { identity := "me", publicKey := "k", address := "10.0.0.1", port := 8888, lastSeen := 20 }
  let other : Record := { own with identity := "b", address := "10.0.0.2", lastSeen := 10 }
  let g := start (((MemoryStore.empty 10).put own).put other) "me" { bootstrapSample := 1 }
  have hshows : shows g.store (((Cache.empty 10).put own).put other) :=
    ((MemoryStore.lockstep_shows.empty 10).put own).put other
  have hskipped : (@round _ CacheLike.toStoreKind.toRecordStore g {} 0).2.events =
      [.roundSkipped .noCandidates] := by decide +kernel
  have hsecluded : g.Secluded (((Cache.empty 10).put own).put other) 0 :=
    secluded_of_pair own (by decide) (by decide)
  obtain ⟨queued, events, -, -, hevents, hnone⟩ := h g _ {} 0 rfl ⟨by decide, by decide, by decide⟩
    hshows (Nat.zero_lt_succ 9) (fun _ _ => rfl) hsecluded
  have hsame : events = [.roundSkipped .noCandidates] := by
    rw [hskipped] at hevents
    exact hevents.symm
  exact hnone .noCandidates (hsame ▸ List.mem_cons_self)

end Rounds

end Gossiper

end PeerBook
