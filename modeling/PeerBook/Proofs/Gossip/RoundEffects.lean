import PeerBook.Proofs.Gossip.Liveness
import PeerBook.Proofs.Store.Warrants

namespace PeerBook

namespace Gossiper

section Outcomes

variable {σ : Type} (g g' : Gossiper σ)

structure Passed (now : Nat) : Prop where
  store : g'.store = g.store
  throttle : g'.throttle = g.throttle
  activePeers (identity : String) (peer : ActivePeer) :
    g'.activePeers[identity]? = some peer ↔ g.activePeers[identity]? = some peer ∧
      now - peer.lastHeard < secondsToMillis g.config.activePeerTimeoutSecs

structure Skipped (sent : Nat) : Prop where
  event : ∃ reason, g'.events = g.events ++ [.roundSkipped reason]
  transport : g'.transport = g.transport
  none_sent : sent = 0

/-- The records are stored, under as many identities, and among the latest within the capacity. -/
structure Picked (C : Cache) (limit : Nat) (records : List Record) : Prop where
  count : records.length = min limit (min C.entries.length C.capacity)
  distinct : (records.map Record.identity).Nodup
  stored : ∀ r ∈ records, r ∈ C.entries ∧ C.above r < C.capacity

structure Completed (C : Cache) (sent : Nat) (records : List Record) (queued : List Outbound) :
    Prop where
  event : g'.events = g.events ++ [.roundCompleted sent records.length]
  queue : g'.transport.sent = g.transport.sent ++ queued
  length_queued : queued.length = sent
  few : sent ≤ g.config.fanout.toNat
  packets : ∀ d ∈ queued, d.kind = syncKind ∧ d.body = Packet.encode records
  records_ne_nil : 0 < records.length
  records_picked : Picked C g.config.maxNodesPerPacket.toNat records

end Outcomes

section Sends

variable {σ : Type} [RecordStore σ] {g : Gossiper σ} {draws : Draws}

theorem length_targets_le (g : Gossiper σ) (draws : Draws) :
    (g.targets draws).length ≤ g.config.fanout.toNat := by
  rw [targets]
  split
  · rw [length_sample]
    exact Nat.min_le_left _ _
  · exact Nat.zero_le _

theorem length_datagrams_le (g : Gossiper σ) (draws : Draws) (targets : List String) :
    (g.datagrams draws targets).length ≤ targets.length := by
  have hsub := (g.map_fst_destinations_sublist targets).length_le
  rw [List.length_map] at hsub
  rwa [datagrams, addressed, List.length_map]

theorem packet_of_mem_datagrams {targets : List String} {d : Outbound}
    (h : d ∈ g.datagrams draws targets) :
    d.kind = syncKind ∧ d.body = Packet.encode (g.handed draws) := by
  obtain ⟨s, -, rfl⟩ := List.mem_map.mp h
  exact ⟨rfl, rfl⟩

/-- All that a round sends is the packet of the records that it hands over. -/
theorem exists_queued_round (g : Gossiper σ) (draws : Draws) (now : Nat) :
    ∃ queued, (g.round draws now).2.transport.sent = g.transport.sent ++ queued ∧
      ∀ d ∈ queued, d.kind = syncKind ∧ d.body = Packet.encode (g.handed draws) := by
  let live := (g.expireInactive now).2
  have htaken (targets : List String) : ∀ d ∈ live.transport.taken (live.datagrams draws targets),
      d.kind = syncKind ∧ d.body = Packet.encode (g.handed draws) :=
    fun d hd => packet_of_mem_datagrams (g := live) (Transport.taken_sublist.subset hd)
  rcases g.round_cases draws now with ⟨fault, -, hround⟩ | ⟨reason, -, hround⟩ |
    ⟨-, ⟨fault, reached, target, -, -, hround⟩ | hround⟩ <;> rw [hround]
  · exact ⟨[], (List.append_nil _).symm, nofun⟩
  · exact ⟨[], (List.append_nil _).symm, nofun⟩
  · exact ⟨_, rfl, htaken reached⟩
  · exact ⟨_, rfl, htaken (live.targets draws)⟩

omit [RecordStore σ] in
theorem passed_expireInactive (g : Gossiper σ) (now : Nat) :
    g.Passed (g.expireInactive now).2 now where
  store := rfl
  throttle := rfl
  activePeers identity peer := by rw [activePeers_expireInactive, isLive, decide_eq_true_eq]

end Sends

variable {σ : Type} [RefusingStore σ] {g : Gossiper σ} {C : Cache} {draws : Draws}

open RefusingStore

theorem picked_handed (hC : shows g.store C) (h : g.handed draws ≠ []) :
    Picked C g.config.maxNodesPerPacket.toNat (g.handed draws) := by
  have hhanded : g.handed draws =
      sample g.config.maxNodesPerPacket.toNat draws.records (C.entries.take C.capacity) := by
    rw [handed] at h ⊢
    cases hstored : RecordStore.all g.store with
    | error fault =>
        rw [hstored] at h
        exact (h rfl).elim
    | ok stored => rw [all_eq hC hstored]
  rw [hhanded]
  constructor
  case count => rw [length_sample, List.length_take, Nat.min_comm C.capacity]
  case distinct =>
    rw [← sample_map, List.map_take]
    exact nodup_sample (C.nodup_identities.sublist (List.take_sublist _ _))
  case stored => exact fun r hr => Cache.mem_top.mp (mem_of_mem_sample hr)

theorem completed_handOver (hC : shows g.store C) {now : Nat} :
    let live := (g.expireInactive now).2
    let queued := live.transport.taken (live.datagrams draws (live.targets draws))
    live.handed draws ≠ [] →
      Completed g ((live.handOver draws (live.targets draws)).emit
        (.roundCompleted queued.length (live.handed draws).length)) C queued.length
        (live.handed draws) queued := by
  intro live queued hhanded
  have hsub : queued.Sublist (live.datagrams draws (live.targets draws)) := Transport.taken_sublist
  constructor
  case event => rfl
  case queue => rfl
  case length_queued => rfl
  case few =>
    calc queued.length
      _ ≤ (live.datagrams draws (live.targets draws)).length := hsub.length_le
      _ ≤ (live.targets draws).length := live.length_datagrams_le draws _
      _ ≤ g.config.fanout.toNat := live.length_targets_le draws
  case packets => exact fun d hd => packet_of_mem_datagrams (hsub.subset hd)
  case records_ne_nil => exact List.length_pos_iff.mpr hhanded
  case records_picked => exact picked_handed (g := live) hC hhanded

/-- A round that does not fail is skipped or completed. Either is reported by one event, and nothing
is stored, throttled or forgotten but the peers that are no longer live. -/
theorem skipped_or_completed (hC : shows g.store C) {now sent : Nat}
    (h : (g.round draws now).1 = .ok sent) :
    let g' := (g.round draws now).2
    Passed g g' now ∧
      (Skipped g g' sent ∨ ∃ records queued, Completed g g' C sent records queued) := by
  intro g'
  let live := (g.expireInactive now).2
  have hlive : g.Passed live now := g.passed_expireInactive now
  rcases g.round_cases draws now with ⟨fault, -, hround⟩ | ⟨reason, -, hround⟩ |
    ⟨hhanded, ⟨fault, reached, target, -, -, hround⟩ | hround⟩
  · rw [hround] at h
    cases h
  · have hend : g' = live.emit (.roundSkipped reason) := congrArg Prod.snd hround
    rw [hround] at h
    cases h
    rw [hend]
    exact ⟨⟨rfl, rfl, hlive.activePeers⟩, .inl ⟨⟨reason, rfl⟩, rfl, rfl⟩⟩
  · rw [hround] at h
    cases h
  · let queued := live.transport.taken (live.datagrams draws (live.targets draws))
    have hend : g' = (live.handOver draws (live.targets draws)).emit
        (.roundCompleted queued.length (live.handed draws).length) := congrArg Prod.snd hround
    rw [hround] at h
    cases h
    rw [hend]
    refine ⟨⟨rfl, rfl, hlive.activePeers⟩, .inr ⟨live.handed draws, queued, ?_⟩⟩
    exact completed_handOver hC hhanded

/-- A store over its capacity, a target without an address, and a transport that takes one datagram. -/
theorem skipped_or_completed_of_refusal :
    let b : Record :=
      { identity := "b", publicKey := "k", address := "10.0.0.2", port := 7, lastSeen := 2 }
    let calls : List Call := [.upsert b, .upsert { b with identity := "c", lastSeen := 3 },
      .upsert { b with identity := "d", address := "0.0.0.0", lastSeen := 1 }]
    let g : Gossiper MemoryStore :=
      { start (StoreKind.after (.empty 2) calls) "me" { fanout := 3 } with
        transport := { takes := fun n _ => n == 0 } }
    let C := StoreKind.after (Cache.empty 2) calls
    shows g.store C ∧ (g.round {} 0).1 = .ok 1 ∧
      (g.round {} 0).2.events = [.roundCompleted 1 2] ∧ Passed g (g.round {} 0).2 0 ∧
      ∃ records queued, Completed g (g.round {} 0).2 C 1 records queued := by
  intro b calls g C
  have hshows : shows g.store C := MemoryStore.shows_after 2 calls
  have hsent : (g.round {} 0).1 = .ok 1 := by decide +kernel
  have hevents : (g.round {} 0).2.events = [.roundCompleted 1 2] := by decide +kernel
  obtain ⟨hpassed, hskipped | hcompleted⟩ := skipped_or_completed hshows hsent
  · exact absurd hskipped.none_sent (by decide)
  · exact ⟨hshows, hsent, hevents, hpassed, hcompleted⟩

end Gossiper

end PeerBook
