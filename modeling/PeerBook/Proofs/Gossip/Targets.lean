import PeerBook.Proofs.Gossip.Liveness
import PeerBook.Proofs.Record.Endpoint
import PeerBook.Proofs.Store.CacheLike

namespace PeerBook

theorem mem_toList_ofList {texts : List String} {text : String} :
    text ∈ (Std.TreeSet.ofList texts).toList ↔ text ∈ texts := by
  rw [Std.TreeSet.mem_toList, Std.TreeSet.mem_ofList, List.contains_iff_mem]

theorem nodup_toList (texts : Std.TreeSet String) : texts.toList.Nodup :=
  texts.distinct_toList.imp fun hne he => hne (Std.compare_eq_iff_eq.mpr he)

namespace Gossiper

/-- Whom a round is meant for and where it goes, given who is live and what is stored. -/
structure Aimed (config : GossipConfig) (own : String) (Live : String → String → Prop) (D : Cache)
    (targets : List String) (sends : List (String × String)) : Prop where
  others : own ∉ targets
  distinct : targets.Nodup
  few : targets.length ≤ config.fanout.toNat
  live : (∃ identity address, identity ≠ own ∧ Live identity address) →
    ∀ target ∈ targets, ∃ address, Live target address
  recent : (¬∃ identity address, identity ≠ own ∧ Live identity address) →
    ∀ target ∈ targets, ∃ r ∈ D.entries.take config.bootstrapSample.toNat, r.identity = target
  targeted : (sends.map Prod.fst).Sublist targets
  located : ∀ s ∈ sends, Live s.1 s.2 ∧ isRoutable s.2 ∨
    (¬∃ address, Live s.1 address ∧ isRoutable address) ∧
      ∃ r, D.find? s.1 = some r ∧ r.endpoint? = some s.2

section Round

variable {σ : Type} [RecordStore σ] {g : Gossiper σ} {target address : String}

theorem addressOf_eq_some (h : g.addressOf target = .ok (some address)) :
    g.activePeers[target]?.map ActivePeer.address = some address ∧ isRoutable address ∨
      (∀ a, g.activePeers[target]?.map ActivePeer.address = some a → ¬isRoutable a) ∧
        ∃ r, RecordStore.get? g.store target = .ok (some r) ∧ r.endpoint? = some address := by
  rw [addressOf] at h
  split at h
  · cases h
  · split at h
    · rename_i live hlive
      cases h
      exact .inl (Option.filter_eq_some_iff.mp hlive)
    · rename_i hnone
      refine .inr ⟨fun a ha => Option.filter_eq_none_iff.mp hnone a ha, ?_⟩
      cases hget : RecordStore.get? g.store target with
      | error fault =>
          rw [hget] at h
          cases h
      | ok found =>
          rw [hget] at h
          obtain ⟨r, rfl, hendpoint⟩ := Option.bind_eq_some_iff.mp (Except.ok.inj h)
          exact ⟨r, rfl, hendpoint⟩

theorem isRoutable_of_addressOf (h : g.addressOf target = .ok (some address)) :
    isRoutable address := by
  rcases addressOf_eq_some h with ⟨-, hroutable⟩ | ⟨-, r, -, hendpoint⟩
  · exact hroutable
  · exact Record.isRoutable_of_endpoint? hendpoint

end Round

section Candidates

variable {σ : Type} [CacheLike σ] {g : Gossiper σ} {D : Cache}

theorem candidates_eq_ok (hD : CacheLike.shows g.store D) :
    ∃ candidates, g.candidates = .ok candidates ∧ candidates.Nodup ∧
      g.localIdentity ∉ candidates ∧
      ((∃ identity ∈ g.activePeers, identity ≠ g.localIdentity) →
        ∀ c ∈ candidates, c ∈ g.activePeers) ∧
      ((¬∃ identity ∈ g.activePeers, identity ≠ g.localIdentity) → ∀ c, c ∈ candidates ↔
        c ≠ g.localIdentity ∧
          ∃ r ∈ D.entries.take g.config.bootstrapSample.toNat, r.identity = c) := by
  have hactive : (∃ identity ∈ g.activePeers, identity ≠ g.localIdentity) ↔
      (g.activePeers.keys.filter (· != g.localIdentity)).isEmpty = false := by
    simp [Std.TreeMap.mem_keys]
  rw [candidates, CacheLike.lockstep.recent hD, hactive]
  dsimp only [RecordStore.recent]
  cases (g.activePeers.keys.filter (· != g.localIdentity)).isEmpty with
  | false =>
      refine ⟨_, rfl, (nodup_keys _).filter _, by simp, fun _ c hc => ?_, nofun⟩
      exact Std.TreeMap.mem_keys.mp (List.mem_filter.mp hc).1
  | true =>
      refine ⟨_, rfl, nodup_toList _, ?_, nofun, fun _ c => ?_⟩
      · rw [mem_toList_ofList]
        simp
      · rw [mem_toList_ofList, List.mem_filter, List.mem_map, bne_iff_ne, and_comm]

theorem aimed_of_active {Live : String → String → Prop} {draws : Draws}
    {sends : List (String × String)} (hD : CacheLike.shows g.store D)
    (hlive : ∀ identity address,
      g.activePeers[identity]?.map ActivePeer.address = some address ↔ Live identity address)
    (htargeted : (sends.map Prod.fst).Sublist (g.targets draws))
    (haddress : ∀ s ∈ sends, g.addressOf s.1 = .ok (some s.2)) :
    Aimed g.config g.localIdentity Live D (g.targets draws) sends := by
  obtain ⟨candidates, hcandidates, hnodup, hothers, hactive, hrecent⟩ := candidates_eq_ok hD
  have htargets : g.targets draws = sample g.config.fanout.toNat draws.targets candidates := by
    rw [targets, hcandidates]
  have hmem (identity : String) : identity ∈ g.activePeers ↔ ∃ address, Live identity address := by
    simp only [mem_activePeers_iff, hlive]
  have hany : (∃ identity ∈ g.activePeers, identity ≠ g.localIdentity) ↔
      ∃ identity address, identity ≠ g.localIdentity ∧ Live identity address := by
    simp only [hmem]
    constructor
    · rintro ⟨i, ⟨a, ha⟩, hne⟩
      exact ⟨i, a, hne, ha⟩
    · rintro ⟨i, a, hne, ha⟩
      exact ⟨i, ⟨a, ha⟩, hne⟩
  have hsubset : ∀ target ∈ g.targets draws, target ∈ candidates := by
    intro target htarget
    exact mem_of_mem_sample (htargets ▸ htarget)
  constructor
  case others => exact fun hown => hothers (hsubset _ hown)
  case distinct => exact htargets ▸ nodup_sample hnodup
  case few =>
    rw [htargets, length_sample]
    exact Nat.min_le_left _ _
  case live =>
    intro hsome target htarget
    exact (hmem target).mp (hactive (hany.mpr hsome) target (hsubset target htarget))
  case recent =>
    intro hnone target htarget
    exact ((hrecent (mt hany.mp hnone) target).mp (hsubset target htarget)).2
  case targeted => exact htargeted
  case located =>
    intro s hs
    rcases addressOf_eq_some (haddress s hs) with ⟨hhere, hroutable⟩ | ⟨hnowhere, r, hget, hendpoint⟩
    · exact .inl ⟨(hlive _ _).mp hhere, hroutable⟩
    · rw [CacheLike.lockstep.get? hD] at hget
      refine .inr ⟨?_, r, Except.ok.inj hget, hendpoint⟩
      rintro ⟨address, hthere, hroutable⟩
      exact hnowhere address ((hlive _ _).mpr hthere) hroutable

end Candidates

section Transport

variable {σ : Type} [StoreKind σ]

theorem transport_receive (g : Gossiper σ) (text source : String) (now : Nat) :
    ∃ datagrams, (g.receive text source now).2.transport = g.transport.sendEach datagrams ∧
      ∀ d ∈ datagrams, isRoutable d.address := by
  rcases g.receive_cases text source now with ⟨-, throttle, events, h⟩ |
    ⟨packet, vs, t, throttle, -, -, h⟩
  · exact ⟨[], by rw [h, Transport.sendEach_nil], nofun⟩
  · refine ⟨vs.filterMap Visit.probe?, by rw [h], fun d hd => ?_⟩
    obtain ⟨v, -, hv⟩ := List.mem_filterMap.mp hd
    rw [Visit.probe?] at hv
    split at hv
    · obtain ⟨address, hendpoint, rfl⟩ := Option.map_eq_some_iff.mp hv
      exact Record.isRoutable_of_endpoint? hendpoint
    · cases hv

theorem isRoutable_of_mem_addressed {g : Gossiper σ} {packet : String}
    {sends : List (String × String)} (h : ∀ s ∈ sends, g.addressOf s.1 = .ok (some s.2)) :
    ∀ d ∈ addressed packet sends, isRoutable d.address := by
  intro d hd
  obtain ⟨s, hs, rfl⟩ := List.mem_map.mp hd
  exact isRoutable_of_addressOf (h s hs)

theorem transport_act (g : Gossiper σ) (a : Act) :
    ∃ datagrams, (g.act a).2.transport = g.transport.sendEach datagrams ∧
      ∀ d ∈ datagrams, isRoutable d.address := by
  cases a with
  | receive text source now => exact g.transport_receive text source now
  | round draws now =>
      obtain ⟨events, packet, sends, -, haddress, -, hround⟩ := g.round_eq_sends draws now
      refine ⟨addressed packet sends, ?_, isRoutable_of_mem_addressed haddress⟩
      change (g.round draws now).2.transport = _
      rw [hround]
      rfl
  | markActive | markInactive | expire | call => exact ⟨[], (Transport.sendEach_nil).symm, nofun⟩

theorem transport_run (g : Gossiper σ) (acts : List Act) :
    ∃ datagrams, (g.run acts).transport = g.transport.sendEach datagrams ∧
      ∀ d ∈ datagrams, isRoutable d.address := by
  induction acts generalizing g with
  | nil => exact ⟨[], (Transport.sendEach_nil).symm, nofun⟩
  | cons a acts ih =>
      obtain ⟨first, hfirst, hroutable⟩ := g.transport_act a
      obtain ⟨rest, hrest, hroutable'⟩ := ih (g.act a).2
      refine ⟨first ++ rest, ?_, fun d hd => ?_⟩
      · rw [run_cons, hrest, hfirst, Transport.sendEach_append]
      · exact (List.mem_append.mp hd).elim (hroutable d) (hroutable' d)

end Transport

section Run

variable {σ : Type} [CacheLike σ] {g : Gossiper σ} {C : Cache} {acts : List Act} {now : Nat}

theorem shown_act (hC : CacheLike.shows g.store C) (a : Act) :
    ∃ D, CacheLike.shows (g.act a).2.store D := by
  cases a with
  | receive text source now =>
      refine ⟨StoreKind.after C (g.callsOfText text source now), ?_⟩
      change CacheLike.shows (g.receive text source now).2.store _
      rw [store_receive]
      exact CacheLike.lockstep.after hC _
  | round draws now =>
      obtain ⟨activePeers, events, datagrams, hround, -⟩ := g.round_eq draws now
      refine ⟨C, ?_⟩
      change CacheLike.shows (g.round draws now).2.store C
      rwa [hround]
  | call c => exact ⟨_, (CacheLike.lockstep.perform hC c).2⟩
  | markActive | markInactive | expire => exact ⟨C, hC⟩

theorem shown_run (hC : CacheLike.shows g.store C) (acts : List Act) :
    ∃ D, CacheLike.shows (g.run acts).store D := by
  induction acts generalizing g C with
  | nil => exact ⟨C, hC⟩
  | cons a acts ih =>
      obtain ⟨D, hD⟩ := shown_act hC a
      exact ih hD

/-- In any run, each datagram of a round goes to one of its targets, to the address at which that is
live or else to the endpoint in its record, and the targets are live ones if there are any. Neither
rounds nor probes are ever sent to a blank address or an unknown one. -/
theorem aimed_round (hnew : g.activePeers.isEmpty) (hC : CacheLike.shows g.store C)
    (htimes : (acts.filterMap Act.time? ++ [now]).Pairwise (· ≤ ·)) (draws : Draws) :
    let h := g.run acts
    ∃ D packet sends, CacheLike.shows h.store D ∧
      (h.round draws now).2.transport = h.transport.sendEach (addressed packet sends) ∧
      Aimed g.config g.localIdentity
        (LiveAt (secondsToMillis g.config.activePeerTimeoutSecs) acts now) D
        ((h.expireInactive now).2.targets draws) sends ∧
      ∃ datagrams, (h.round draws now).2.transport = g.transport.sendEach datagrams ∧
        ∀ d ∈ datagrams, (∃ c ∈ d.address.toList, ¬Text.isBlankChar c) ∧
          Text.trim d.address ≠ "0.0.0.0" := by
  intro h
  obtain ⟨D, hD⟩ := shown_run hC acts
  obtain ⟨hconfig, hown⟩ := g.settings_run acts
  obtain ⟨events, packet, sends, htargeted, haddress, -, hround⟩ := h.round_eq_sends draws now
  have hsends : (h.round draws now).2.transport = h.transport.sendEach (addressed packet sends) := by
    rw [hround]
    rfl
  have haimed : Aimed h.config h.localIdentity _ D ((h.expireInactive now).2.targets draws) sends :=
    aimed_of_active (g := (h.expireInactive now).2) hD
      (fun _ _ => activePeers_expireInactive_run hnew htimes) htargeted haddress
  rw [hconfig, hown] at haimed
  obtain ⟨datagrams, hall, hroutable⟩ := g.transport_run (acts ++ [.round draws now])
  rw [run_concat] at hall
  exact ⟨D, packet, sends, hD, hsends, haimed, datagrams, hall,
    fun d hd => isRoutable_iff.mp (hroutable d hd)⟩

/-- A peer that is still live, at an address of no use, and one that has taken its leave. -/
theorem aimed_round_of_listener :
    let b : Record :=
      { identity := "b", publicKey := "k", address := " 10.0.0.2", port := 7, lastSeen := 1 }
    let calls : List Call := [.upsert b, .upsert { b with identity := "c", lastSeen := 2 }]
    let g := start (StoreKind.after (MemoryStore.empty 10) calls) "me" {}
    let acts : List Act := [.markActive "c" "10.0.0.3:3" 0, .markActive "b" "0.0.0.0" 1000,
      .markActive "me" "10.0.0.1:1" 1000, .markInactive "c"]
    let h := g.run acts
    (acts.filterMap Act.time? ++ [180999]).Pairwise (· ≤ ·) ∧
      (h.expireInactive 180999).2.targets {} = ["b"] ∧
      LiveAt 180000 acts 180999 "b" "0.0.0.0" ∧
      (h.round {} 180999).2.transport.sent.map Outbound.address = ["10.0.0.2:7"] ∧
      ∃ D sends, Aimed {} "me" (LiveAt 180000 acts 180999) D ["b"] sends := by
  intro b calls g acts h
  have htimes : (acts.filterMap Act.time? ++ [180999]).Pairwise (· ≤ ·) := by decide
  have htargets : (h.expireInactive 180999).2.targets {} = ["b"] := by decide +kernel
  have hsent : (h.round {} 180999).2.transport.sent.map Outbound.address = ["10.0.0.2:7"] := by
    decide +kernel
  have hshows : CacheLike.shows g.store _ := MemoryStore.shows_after 10 calls
  have hlive : LiveAt 180000 acts 180999 "b" "0.0.0.0" := by
    refine ⟨1000, ⟨acts.take 1, acts.drop 2, rfl, ?_⟩, by decide⟩
    decide
  obtain ⟨D, packet, sends, -, -, haimed, -⟩ := aimed_round rfl hshows htimes {}
  exact ⟨htimes, htargets, hlive, hsent, D, sends, htargets ▸ haimed⟩

end Run

end Gossiper

end PeerBook
