import PeerBook.Proofs.Gossip.Acts
import PeerBook.Proofs.Store.Hints

namespace PeerBook

theorem Packet.encode_told (records : List Record) :
    encode (records.map Record.told) = encode records := by
  rw [encode, List.map_map]
  rfl

theorem Fate.ofReport_asTold (report : MergeReport) (r : Record) :
    ofReport report.asTold r = ofReport report r := by
  cases report with
  | mk outcome previous => cases outcome <;> cases previous <;> rfl

namespace Gossiper

def Act.asTold : Act → Act
  | call c => call c.asTold
  | act => act

def Outcome.asTold : Outcome → Outcome
  | answered answer => answered (answer.map Answer.asTold)
  | outcome => outcome

variable {σ τ : Type}

def withStore (g : Gossiper σ) (t : τ) : Gossiper τ :=
  { g with store := t }

open CacheLike StoreKind

variable [CacheLike σ] [CacheLike τ] {g : Gossiper σ} {s : σ} {t : τ}

theorem candidates_withStore (h : Agree g.store t) : (g.withStore t).candidates = g.candidates := by
  obtain ⟨records, records', hrecent, hrecent', htold⟩ := h.recent g.config.bootstrapSample.toNat
  have hidentities : records'.map Record.identity = records.map Record.identity := by
    have hmap := congrArg (List.map Record.identity) htold
    rw [List.map_map, List.map_map] at hmap
    exact hmap.symm
  simp only [candidates, withStore, hrecent, hrecent', hidentities, bind, Except.bind]

theorem addressOf_withStore (h : Agree g.store t) (target : String) :
    (g.withStore t).addressOf target = g.addressOf target := by
  obtain ⟨found, found', hget, hget', htold⟩ := h.get? target
  have hendpoint : found'.bind Record.endpoint? = found.bind Record.endpoint? := by
    have hbind := congrArg (Option.bind · Record.endpoint?) htold
    simpa only [Option.bind_map, Function.comp_def, Record.endpoint?_told] using hbind.symm
  simp only [addressOf, withStore, hget, hget', Except.map, hendpoint]

omit [CacheLike σ] [CacheLike τ] in
theorem send_withStore (g : Gossiper σ) (t : τ) (datagram : Outbound) :
    (g.withStore t).send datagram = (g.send datagram).map id (·.withStore t) := by
  rw [send_eq, send_eq]
  rfl

theorem sendAll_withStore (h : Agree g.store t) (packet : String) (targets : List String)
    (sent : Nat) : sendAll packet targets sent (g.withStore t) =
      (sendAll packet targets sent g).map id (·.withStore t) := by
  induction targets generalizing sent g with
  | nil => rfl
  | cons target targets ih =>
      rw [sendAll, sendAll, addressOf_withStore h]
      cases g.addressOf target with
      | error fault => rfl
      | ok address =>
          cases address with
          | none => exact ih h sent
          | some address =>
              have hstore : (g.send ⟨address, syncKind, packet⟩).2.store = g.store := by
                rw [send_eq]
              dsimp only
              rw [send_withStore]
              exact ih (hstore ▸ h) _

theorem round_withStore (h : Agree g.store t) (draws : Draws) (now : Nat) :
    (g.withStore t).round draws now = (g.round draws now).map id (·.withStore t) := by
  -- A round begins with expiry, which leaves the stores as they are.
  have hlive : ((g.withStore t).expireInactive now).2 = (g.expireInactive now).2.withStore t := rfl
  have hstore : Agree (g.expireInactive now).2.store t := h
  rw [round, round, hlive]
  generalize (g.expireInactive now).2 = g at hstore
  dsimp only
  rw [candidates_withStore hstore]
  cases g.candidates with
  | error fault => rfl
  | ok candidates =>
      cases candidates with
      | nil => rfl
      | cons candidate candidates =>
          obtain ⟨records, records', hall, hall', htold⟩ := hstore.all
          have hsample := congrArg
            (sample g.config.maxNodesPerPacket.toNat draws.records) htold.symm
          rw [sample_map, sample_map] at hsample
          have hpacket := congrArg Packet.encode hsample
          rw [Packet.encode_told, Packet.encode_told] at hpacket
          have hlength := congrArg List.length hsample
          rw [List.length_map, List.length_map] at hlength
          have hempty := congrArg List.isEmpty hsample
          rw [List.isEmpty_map, List.isEmpty_map] at hempty
          have hall' : RecordStore.all (g.withStore t).store = .ok records' := hall'
          have hconfig : (g.withStore t).config = g.config := rfl
          dsimp only
          rw [hall, hall', hconfig]
          dsimp only
          rw [hlength, hempty, hpacket, sendAll_withStore hstore]
          split
          · rfl
          · cases hsent : sendAll (Packet.encode (sample g.config.maxNodesPerPacket.toNat
                draws.records records)) (sample g.config.fanout.toNat draws.targets
                  (candidate :: candidates)) 0 g with
            | mk result last => cases result <;> rfl

theorem takeIn_agree (h : Agree s t) (identity : String) (r : Record) :
    (takeIn identity s r).1 = (takeIn identity t r).1 ∧
      Agree (takeIn identity s r).2 (takeIn identity t r).2 := by
  rw [takeIn, takeIn]
  split
  · exact ⟨rfl, h⟩
  · rcases h.merge r with ⟨fault, hs, ht⟩ | ⟨report, report', s', t', hs, ht, htold, hstore⟩
    · rw [hs, ht]
      exact ⟨rfl, h⟩
    · have hfate : Fate.ofReport report r = Fate.ofReport report' r := by
        rw [← Fate.ofReport_asTold, htold, Fate.ofReport_asTold]
      rw [hs, ht]
      exact ⟨congrArg (Visit.mk r) hfate, hstore⟩

theorem visits_agree (h : Agree s t) (identity : String) (records : List Record) :
    (visits identity s records).1 = (visits identity t records).1 ∧
      Agree (visits identity s records).2 (visits identity t records).2 := by
  induction records generalizing s t with
  | nil => exact ⟨rfl, h⟩
  | cons r rs ih =>
      obtain ⟨hvisit, hstore⟩ := takeIn_agree h identity r
      obtain ⟨hvisits, hlast⟩ := ih hstore
      rw [visits_cons, visits_cons, hvisit, hvisits]
      exact ⟨rfl, hlast⟩

theorem trimmed_agree (h : Agree s t) :
    (trimmed s).1 = (trimmed t).1 ∧ Agree (trimmed s).2 (trimmed t).2 := by
  rw [trimmed, trimmed]
  rcases h.trim with ⟨fault, hs, ht⟩ | ⟨evicted, s', t', hs, ht, hstore⟩
  · rw [hs, ht]
    exact ⟨rfl, h⟩
  · rw [hs, ht]
    exact ⟨rfl, hstore⟩

theorem receive_withStore (h : Agree g.store t) (text source : String) (now : Nat) :
    ∃ u : τ, Agree (g.receive text source now).2.store u ∧
      (g.withStore t).receive text source now =
        (g.receive text source now).map id (·.withStore u) := by
  have hheard : ((g.withStore t).throttle.hear source now).1 = (g.throttle.hear source now).1 := rfl
  cases hheard' : (g.throttle.hear source now).1 with
  | false =>
      rw [receive_of_refused hheard', receive_of_refused (hheard.trans hheard')]
      exact ⟨t, h, rfl⟩
  | true =>
      cases hdecode : Packet.decode text with
      | error fault =>
          rw [receive_of_unreadable hheard' hdecode,
            receive_of_unreadable (hheard.trans hheard') hdecode]
          exact ⟨t, h, rfl⟩
      | ok packet =>
          obtain ⟨hvisits, hstore⟩ := visits_agree h g.localIdentity packet.records
          cases hleft : visits g.localIdentity g.store packet.records with
          | mk vs s' =>
              cases hright : visits g.localIdentity t packet.records with
              | mk vs' t' =>
                  rw [hleft, hright] at hvisits hstore
                  obtain rfl : vs = vs' := hvisits
                  obtain ⟨hevicted, hlast⟩ := trimmed_agree hstore
                  have hsummary : (g.withStore t).summaryOf packet vs t' =
                      g.summaryOf packet vs s' := by
                    rw [summaryOf, summaryOf, hevicted]
                    rfl
                  have hpacket : (g.withStore t).receive text source now = _ :=
                    receive_of_packet (hheard.trans hheard') hdecode hright
                  rw [receive_of_packet hheard' hdecode hleft, hpacket, hsummary]
                  exact ⟨_, hlast, rfl⟩

theorem Act.eq_of_asTold {a a' : Act} (h : a.asTold = a'.asTold) (hother : ∀ c, a ≠ .call c) :
    a' = a := by
  cases a with
  | call c => exact absurd rfl (hother c)
  | receive | round | markActive | markInactive | expire =>
      cases a' with
      | call c' => cases h
      | receive | round | markActive | markInactive | expire => exact h.symm

theorem act_withStore (h : Agree g.store t) {a a' : Act} (ha : a.asTold = a'.asTold) :
    ∃ u : τ, Agree (g.act a).2.store u ∧ ((g.withStore t).act a').2 = (g.act a).2.withStore u ∧
      ((g.withStore t).act a').1.asTold = (g.act a).1.asTold := by
  cases a with
  | call c =>
      cases a' with
      | call c' =>
          obtain ⟨hanswer, hstore⟩ := h.perform (Act.call.inj ha)
          exact ⟨_, hstore, rfl, congrArg Outcome.answered hanswer.symm⟩
      | receive | round | markActive | markInactive | expire => cases ha
  | receive text source now =>
      obtain rfl := Act.eq_of_asTold ha nofun
      obtain ⟨u, hstore, hreceive⟩ := receive_withStore h text source now
      refine ⟨u, hstore, ?_, ?_⟩ <;> rw [act, hreceive] <;> rfl
  | round draws now =>
      obtain rfl := Act.eq_of_asTold ha nofun
      have hstore : (g.round draws now).2.store = g.store := by
        obtain ⟨activePeers, events, datagrams, hround, -⟩ := g.round_eq draws now
        rw [hround]
      refine ⟨t, hstore ▸ h, ?_, ?_⟩ <;> rw [act, round_withStore h] <;> rfl
  | markActive | markInactive | expire =>
      obtain rfl := Act.eq_of_asTold ha nofun
      exact ⟨t, h, rfl, rfl⟩

/-- The nodes are the same but for hints and marks in their stores. -/
structure Agrees (g : Gossiper σ) (h : Gossiper τ) : Prop where
  store : Agree g.store h.store
  others : h = g.withStore h.store

variable {h : Gossiper τ}

theorem Agrees.act (hagree : g.Agrees h) {a a' : Act} (ha : a.asTold = a'.asTold) :
    (g.act a).2.Agrees (h.act a').2 ∧ (h.act a').1.asTold = (g.act a).1.asTold := by
  obtain ⟨u, hstore, hstate, houtcome⟩ := act_withStore hagree.store ha
  rw [← hagree.others] at hstate houtcome
  refine ⟨⟨?_, ?_⟩, houtcome⟩
  · rw [hstate]
    exact hstore
  · rw [hstate]
    rfl

theorem Agrees.run (hagree : g.Agrees h) {acts acts' : List Act}
    (hacts : acts.map Act.asTold = acts'.map Act.asTold) :
    (g.run acts).Agrees (h.run acts') ∧
      (h.history acts').map (fun e => e.2.asTold) = (g.history acts).map fun e => e.2.asTold := by
  induction acts generalizing g h acts' with
  | nil =>
      obtain rfl := List.map_eq_nil_iff.mp hacts.symm
      exact ⟨hagree, rfl⟩
  | cons a acts ih =>
      obtain ⟨a', rest, rfl, ha, hrest⟩ := List.map_eq_cons_iff.mp hacts.symm
      obtain ⟨hnext, houtcome⟩ := hagree.act ha.symm
      obtain ⟨hlast, houtcomes⟩ := ih hnext hrest.symm
      refine ⟨hlast, ?_⟩
      rw [history, history, List.map_cons, List.map_cons, houtcome, houtcomes]

/-- Nodes that differ in hints and marks alone send the same datagrams, report the same events and
give the same answers, whatever happens to them and whatever hints come into their stores. -/
theorem run_tells_no_hints (hagree : g.Agrees h) {acts acts' : List Act}
    (hacts : acts.map Act.asTold = acts'.map Act.asTold) :
    (h.run acts').transport.sent = (g.run acts).transport.sent ∧
      (h.run acts').events = (g.run acts).events ∧
      (h.history acts').map (fun e => e.2.asTold) = (g.history acts).map (fun e => e.2.asTold) ∧
      (g.run acts).Agrees (h.run acts') := by
  obtain ⟨hlast, houtcomes⟩ := hagree.run hacts
  refine ⟨?_, ?_, houtcomes, hlast⟩
  · rw [hlast.others]
    rfl
  · rw [hlast.others]
    rfl

/-- A node in memory and one on tables, which know different numbers of their peers. -/
theorem run_tells_no_hints_of_numbers :
    let r : Record :=
      { identity := "a", publicKey := "k", address := "10.0.0.1", port := 1, lastSeen := 5 }
    let known (hint : String) : Record := { r with contactHint := some hint }
    let heard (synced : Bool) : Record := { r with lastSeen := 6, synced }
    let g := start (after (MemoryStore.empty 1) [.upsert (known "+100")]) "me" {}
    let h := start (after (DurableStore.empty 1) [.upsert (known "+200")]) "me" {}
    let acts (synced : Bool) : List Act :=
      [.markActive "b" "10.0.0.2:2" 0, .round {} 1, .call (.merge (heard synced)), .round {} 2]
    g.Agrees h ∧ (acts true).map Act.asTold = (acts false).map Act.asTold ∧
      (g.run (acts true)).transport.sent ≠ [] ∧
      (h.run (acts false)).transport.sent = (g.run (acts true)).transport.sent := by
  intro r known heard g h acts
  have hcalls : [Call.upsert (known "+100")].map Call.asTold =
      [Call.upsert (known "+200")].map Call.asTold := rfl
  have hagree : g.Agrees h := ⟨(agree_empty 1).after hcalls, rfl⟩
  have hacts : (acts true).map Act.asTold = (acts false).map Act.asTold := rfl
  have hspoken : (g.run (acts true)).transport.sent ≠ [] := by decide +kernel
  have hsent := (run_tells_no_hints hagree hacts).1
  refine ⟨hagree, hacts, hspoken, ?_⟩
  rw [hsent]

end Gossiper

end PeerBook
