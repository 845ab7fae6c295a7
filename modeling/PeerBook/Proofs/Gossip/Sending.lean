import Mathlib.Data.List.Perm.Subperm
import PeerBook.Gossip

namespace PeerBook

theorem sample_subperm {α : Type} (count : Nat) (draws : List Nat) (xs : List α) :
    (sample count draws xs).Subperm xs := by
  induction count generalizing draws xs with
  | zero => exact List.nil_subperm
  | succ count ih =>
      rw [sample]
      split
      · exact List.nil_subperm
      · rename_i x hx
        obtain ⟨hlt, rfl⟩ := List.getElem?_eq_some_iff.mp hx
        exact ((List.subperm_cons _).mpr (ih _ _)).trans
          (List.getElem_cons_eraseIdx_perm hlt).subperm

theorem mem_of_mem_sample {α : Type} {x : α} {count : Nat} {draws : List Nat} {xs : List α}
    (h : x ∈ sample count draws xs) : x ∈ xs :=
  (sample_subperm count draws xs).subset h

theorem nodup_sample {α : Type} {count : Nat} {draws : List Nat} {xs : List α} (h : xs.Nodup) :
    (sample count draws xs).Nodup := by
  obtain ⟨ys, hperm, hsub⟩ := sample_subperm count draws xs
  exact hperm.nodup_iff.mp (h.sublist hsub)

theorem length_sample {α : Type} (count : Nat) (draws : List Nat) (xs : List α) :
    (sample count draws xs).length = min count xs.length := by
  induction count generalizing draws xs with
  | zero => rw [sample, List.length_nil, Nat.zero_min]
  | succ count ih =>
      rw [sample]
      split
      · rename_i hnone
        have hlength := List.getElem?_eq_none_iff.mp hnone
        have hempty : xs.length = 0 := by
          by_contra hne
          exact absurd (Nat.mod_lt _ (Nat.pos_of_ne_zero hne)) (Nat.not_lt.mpr hlength)
        rw [hempty, List.length_nil, Nat.min_zero]
      · rename_i hsome
        obtain ⟨hlt, -⟩ := List.getElem?_eq_some_iff.mp hsome
        rw [List.length_cons, ih, List.length_eraseIdx_of_lt hlt]
        omega

theorem eraseIdx_map {α β : Type} (f : α → β) (xs : List α) (i : Nat) :
    (xs.map f).eraseIdx i = (xs.eraseIdx i).map f := by
  simp only [List.eraseIdx_eq_take_drop_succ, List.map_append, List.map_take, List.map_drop]

theorem sample_map {α β : Type} (f : α → β) (count : Nat) (draws : List Nat) (xs : List α) :
    sample count draws (xs.map f) = (sample count draws xs).map f := by
  induction count generalizing draws xs with
  | zero => rfl
  | succ count ih =>
      rw [sample, sample, List.length_map, List.getElem?_map]
      cases xs[draws.headD 0 % xs.length]? with
      | none => rfl
      | some x => simp only [Option.map_some, List.map_cons, eraseIdx_map, ih]

namespace Transport

variable {t : Transport} {datagrams more : List Outbound}

/-- Which of the datagrams are taken if they are handed over one after the other. -/
def taken (t : Transport) (datagrams : List Outbound) : List Outbound :=
  ((datagrams.zipIdx t.attempts).filter fun d => t.takes d.2 d.1).map Prod.fst

def sendEach (t : Transport) (datagrams : List Outbound) : Transport :=
  { t with attempts := t.attempts + datagrams.length, sent := t.sent ++ t.taken datagrams }

@[simp] theorem sendEach_nil : t.sendEach [] = t := by
  simp [sendEach, taken]

theorem taken_append : t.taken (datagrams ++ more) =
    t.taken datagrams ++ (t.sendEach datagrams).taken more := by
  simp [taken, sendEach, List.zipIdx_append, List.filter_append]

theorem sendEach_append : t.sendEach (datagrams ++ more) =
    (t.sendEach datagrams).sendEach more := by
  simp [sendEach, taken_append, Nat.add_assoc]

theorem sendEach_cons (t : Transport) (datagram : Outbound) (datagrams : List Outbound) :
    t.sendEach (datagram :: datagrams) = (t.sendEach [datagram]).sendEach datagrams := by
  rw [← sendEach_append, List.singleton_append]

theorem send_eq (datagram : Outbound) : t.send datagram =
    (t.takes t.attempts datagram, t.sendEach [datagram]) := by
  cases h : t.takes t.attempts datagram <;> simp [send, sendEach, taken, h]

theorem length_taken_singleton (datagram : Outbound) :
    (t.taken [datagram]).length = (t.takes t.attempts datagram).toNat := by
  cases h : t.takes t.attempts datagram <;> simp [taken, h]

theorem taken_sublist : (t.taken datagrams).Sublist datagrams := by
  have h : (t.taken datagrams).Sublist ((datagrams.zipIdx t.attempts).map Prod.fst) :=
    List.filter_sublist.map Prod.fst
  rwa [List.zipIdx_map_fst] at h

/-- A transport that refuses none of the datagrams takes them all. -/
theorem taken_eq_self (h : ∀ n, ∀ d ∈ datagrams, t.takes n d) : t.taken datagrams = datagrams := by
  have hall : (datagrams.zipIdx t.attempts).filter (fun d => t.takes d.2 d.1) =
      datagrams.zipIdx t.attempts := by
    refine List.filter_eq_self.mpr fun d hd => h d.2 d.1 ?_
    rw [List.fst_eq_of_mem_zipIdx hd]
    exact List.getElem_mem _
  rw [taken, hall, List.zipIdx_map_fst]

theorem mem_sent_sendEach {d : Outbound} (h : d ∈ (t.sendEach datagrams).sent) :
    d ∈ t.sent ∨ d ∈ datagrams :=
  (List.mem_append.mp h).imp_right fun hd => taken_sublist.subset hd

end Transport

namespace Gossiper

variable {σ : Type} {g : Gossiper σ}

theorem send_eq (datagram : Outbound) : g.send datagram =
    (g.transport.takes g.transport.attempts datagram,
      { g with transport := g.transport.sendEach [datagram] }) := by
  rw [send, Transport.send_eq]

variable [RecordStore σ]

def addressed (packet : String) (sends : List (String × String)) : List Outbound :=
  sends.map fun s => ⟨s.2, syncKind, packet⟩

def destinations (g : Gossiper σ) (targets : List String) : List (String × String) :=
  targets.filterMap fun target => (g.addressOf target).toOption.join.map (target, ·)

theorem mem_destinations {targets : List String} {s : String × String} :
    s ∈ g.destinations targets ↔ s.1 ∈ targets ∧ g.addressOf s.1 = .ok (some s.2) := by
  obtain ⟨target, address⟩ := s
  rw [destinations, List.mem_filterMap]
  constructor
  · rintro ⟨target', htarget, hs⟩
    obtain ⟨address', haddress, hpair⟩ := Option.map_eq_some_iff.mp hs
    cases hpair
    refine ⟨htarget, ?_⟩
    cases hresult : g.addressOf target with
    | error fault => simp [hresult, Except.toOption] at haddress
    | ok found => exact congrArg Except.ok (by simpa [hresult, Except.toOption] using haddress)
  · rintro ⟨htarget, haddress⟩
    exact ⟨target, htarget, by simp [haddress, Except.toOption]⟩

theorem map_fst_destinations_sublist (targets : List String) :
    ((g.destinations targets).map Prod.fst).Sublist targets := by
  induction targets with
  | nil => exact List.nil_sublist _
  | cons target targets ih =>
      rw [destinations, List.filterMap_cons]
      cases (g.addressOf target).toOption.join with
      | none => exact ih.cons target
      | some address => exact ih.cons_cons target

/-- Sending goes through the targets in their order, and stops where an address cannot be read. -/
theorem sendAll_cases (packet : String) (targets : List String) (sent : Nat) (g : Gossiper σ) :
    (∃ fault reached target, reached <+: targets ∧ g.addressOf target = .error fault ∧
      sendAll packet targets sent g = (.error fault,
        { g with transport :=
            g.transport.sendEach (addressed packet (g.destinations reached)) })) ∨
    sendAll packet targets sent g =
      (.ok (sent + (g.transport.taken (addressed packet (g.destinations targets))).length),
        { g with transport :=
            g.transport.sendEach (addressed packet (g.destinations targets)) }) := by
  induction targets generalizing sent g with
  | nil => exact .inr (by simp [sendAll, destinations, addressed, Transport.taken])
  | cons target targets ih =>
      rw [sendAll]
      cases haddress : g.addressOf target with
      | error fault =>
          exact .inl ⟨fault, [], target, List.nil_prefix, haddress,
            by simp [destinations, addressed]⟩
      | ok found =>
          cases found with
          | none =>
              have hskip (more : List String) :
                  g.destinations (target :: more) = g.destinations more := by
                simp [destinations, haddress, Except.toOption]
              rw [hskip]
              rcases ih sent g with ⟨fault, reached, failing, hreached, hfailing, hsend⟩ | hsend
              · refine .inl ⟨fault, target :: reached, failing, ?_, hfailing, ?_⟩
                · exact List.cons_prefix_cons.mpr ⟨rfl, hreached⟩
                · rw [hskip]
                  exact hsend
              · exact .inr hsend
          | some address =>
              have hfirst (more : List String) : addressed packet (g.destinations (target :: more)) =
                  ⟨address, syncKind, packet⟩ :: addressed packet (g.destinations more) := by
                simp [destinations, addressed, haddress, Except.toOption]
              -- What was sent before has no say in where the rest goes.
              let h : Gossiper σ :=
                { g with transport := g.transport.sendEach [⟨address, syncKind, packet⟩] }
              have hsame (more : List String) : h.destinations more = g.destinations more := rfl
              have hcount (more : List Outbound) :
                  (if g.transport.takes g.transport.attempts ⟨address, syncKind, packet⟩ then sent + 1
                    else sent) + (h.transport.taken more).length =
                  sent + (g.transport.taken (⟨address, syncKind, packet⟩ :: more)).length := by
                rw [← List.singleton_append, Transport.taken_append, List.length_append,
                  Transport.length_taken_singleton]
                cases g.transport.takes g.transport.attempts ⟨address, syncKind, packet⟩ <;>
                  simp [h, Nat.add_assoc]
              dsimp only
              rw [send_eq]
              rcases ih _ h with ⟨fault, reached, failing, hreached, hfailing, hsend⟩ | hsend
              · refine .inl ⟨fault, target :: reached, failing, ?_, hfailing, hsend.trans ?_⟩
                · exact List.cons_prefix_cons.mpr ⟨rfl, hreached⟩
                · rw [hsame, hfirst, g.transport.sendEach_cons]
              · refine .inr (hsend.trans ?_)
                rw [hsame, hfirst, hcount, g.transport.sendEach_cons _ (addressed packet _)]

def IsPacketOf (store : σ) (d : Outbound) : Prop :=
  d.kind = syncKind ∧ ∃ stored records, RecordStore.all store = .ok stored ∧ records ⊆ stored ∧
    d.body = Packet.encode records

def targets (g : Gossiper σ) (draws : Draws) : List String :=
  match g.candidates with
  | .ok candidates => sample g.config.fanout.toNat draws.targets candidates
  | .error _ => []

def handed (g : Gossiper σ) (draws : Draws) : List Record :=
  match RecordStore.all g.store with
  | .ok stored => sample g.config.maxNodesPerPacket.toNat draws.records stored
  | .error _ => []

def datagrams (g : Gossiper σ) (draws : Draws) (targets : List String) : List Outbound :=
  addressed (Packet.encode (g.handed draws)) (g.destinations targets)

def handOver (g : Gossiper σ) (draws : Draws) (targets : List String) : Gossiper σ :=
  { g with transport := g.transport.sendEach (g.datagrams draws targets) }

theorem isPacketOf_of_mem_datagrams {draws : Draws} {targets : List String} {d : Outbound}
    (h : g.handed draws ≠ []) (hd : d ∈ g.datagrams draws targets) : IsPacketOf g.store d := by
  obtain ⟨s, -, rfl⟩ := List.mem_map.mp hd
  rw [handed] at h ⊢
  cases hstored : RecordStore.all g.store with
  | error fault =>
      rw [hstored] at h
      exact (h rfl).elim
  | ok stored => exact ⟨rfl, stored, _, hstored, fun r hr => mem_of_mem_sample hr, rfl⟩

/-- A round first forgets who has been silent for too long. Then it fails to read the store, or is
skipped, or sends one packet of records to its targets, or to some of them if an address cannot be
read. -/
theorem round_cases (g : Gossiper σ) (draws : Draws) (now : Nat) :
    let h := (g.expireInactive now).2
    let sent := (h.transport.taken (h.datagrams draws (h.targets draws))).length
    (∃ fault, (h.candidates = .error fault ∨ RecordStore.all h.store = .error fault) ∧
      g.round draws now = (.error fault, h)) ∨
    (∃ reason, (h.candidates = .ok [] ∨ h.handed draws = []) ∧
      g.round draws now = (.ok 0, h.emit (.roundSkipped reason))) ∨
    h.handed draws ≠ [] ∧
      ((∃ fault reached target, reached <+: h.targets draws ∧ h.addressOf target = .error fault ∧
        g.round draws now = (.error fault, h.handOver draws reached)) ∨
      g.round draws now = (.ok sent, (h.handOver draws (h.targets draws)).emit
        (.roundCompleted sent (h.handed draws).length))) := by
  intro h sent
  rw [round, show (g.expireInactive now).2 = h from rfl]
  dsimp only
  cases hcandidates : h.candidates with
  | error fault => exact .inl ⟨fault, .inl rfl, rfl⟩
  | ok candidates =>
      cases candidates with
      | nil => exact .inr (.inl ⟨_, .inl rfl, rfl⟩)
      | cons candidate candidates =>
          have htargets : h.targets draws =
              sample h.config.fanout.toNat draws.targets (candidate :: candidates) := by
            rw [targets, hcandidates]
          dsimp only
          cases hstored : RecordStore.all h.store with
          | error fault => exact .inl ⟨fault, .inr rfl, rfl⟩
          | ok stored =>
              have hhanded : h.handed draws =
                  sample h.config.maxNodesPerPacket.toNat draws.records stored := by
                rw [handed, hstored]
              dsimp only
              rw [← hhanded, ← htargets]
              split
              · rename_i hempty
                exact .inr (.inl ⟨_, .inr (List.isEmpty_iff.mp hempty), rfl⟩)
              · rename_i hsome
                refine .inr (.inr ⟨fun hnil => hsome (List.isEmpty_iff.mpr hnil), ?_⟩)
                rcases sendAll_cases (Packet.encode (h.handed draws)) (h.targets draws) 0 h with
                  ⟨fault, reached, target, hreached, hfailing, hsend⟩ | hsend
                · rw [hsend]
                  exact .inl ⟨fault, reached, target, hreached, hfailing, rfl⟩
                · rw [hsend, Nat.zero_add]
                  exact .inr rfl

/-- A round forgets who has been silent for too long, and hands one packet to its targets. It touches
neither the store nor what identifies the node. -/
theorem round_eq_sends (g : Gossiper σ) (draws : Draws) (now : Nat) :
    let h := (g.expireInactive now).2
    ∃ events packet sends, (sends.map Prod.fst).Sublist (h.targets draws) ∧
      (∀ s ∈ sends, h.addressOf s.1 = .ok (some s.2)) ∧
      (∀ d ∈ addressed packet sends, IsPacketOf h.store d) ∧
      (g.round draws now).2 =
        { h with events, transport := h.transport.sendEach (addressed packet sends) } := by
  intro h
  have hnone (events : List GossipEvent) : { h with events } =
      { h with events, transport := h.transport.sendEach (addressed "" []) } := by
    simp [addressed]
  have hsome (hhanded : h.handed draws ≠ []) (reached : List String)
      (hreached : reached.Sublist (h.targets draws)) :
      ((h.destinations reached).map Prod.fst).Sublist (h.targets draws) ∧
        (∀ s ∈ h.destinations reached, h.addressOf s.1 = .ok (some s.2)) ∧
        ∀ d ∈ h.datagrams draws reached, IsPacketOf h.store d :=
    ⟨(map_fst_destinations_sublist reached).trans hreached, fun s hs => (mem_destinations.mp hs).2,
      fun d hd => isPacketOf_of_mem_datagrams hhanded hd⟩
  rcases g.round_cases draws now with ⟨fault, -, hround⟩ | ⟨reason, -, hround⟩ | ⟨hhanded, hround⟩
  · rw [hround]
    exact ⟨_, "", [], List.nil_sublist _, nofun, nofun, hnone h.events⟩
  · rw [hround]
    exact ⟨_, "", [], List.nil_sublist _, nofun, nofun, hnone _⟩
  · rcases hround with ⟨fault, reached, target, hreached, -, hround⟩ | hround
    · obtain ⟨hsub, haddress, hpackets⟩ := hsome hhanded reached hreached.sublist
      rw [hround]
      exact ⟨h.events, _, h.destinations reached, hsub, haddress, hpackets, rfl⟩
    · obtain ⟨hsub, haddress, hpackets⟩ := hsome hhanded _ (List.Sublist.refl _)
      rw [hround]
      exact ⟨_, _, h.destinations (h.targets draws), hsub, haddress, hpackets, rfl⟩

theorem round_eq (g : Gossiper σ) (draws : Draws) (now : Nat) :
    ∃ activePeers events datagrams, (g.round draws now).2 =
        { g with activePeers, events, transport := g.transport.sendEach datagrams } ∧
      ∀ d ∈ datagrams, IsPacketOf g.store d := by
  obtain ⟨events, packet, sends, -, -, hpackets, hround⟩ := g.round_eq_sends draws now
  exact ⟨_, events, _, hround, hpackets⟩

end Gossiper

end PeerBook
