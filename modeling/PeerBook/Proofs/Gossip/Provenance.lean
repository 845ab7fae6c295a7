import PeerBook.Proofs.Gossip.Network
import PeerBook.Proofs.Packet.RoundTrip

namespace PeerBook

structure Sighting where
  identity : String
  address : String
  port : UInt16
  publicKey : String
  lastSeen : Timestamp
  deriving DecidableEq, Repr

def Record.sighting (r : Record) : Sighting :=
  ⟨r.identity, r.address, r.port, r.publicKey, r.lastSeen⟩

@[simp] theorem Record.sighting_told (r : Record) : r.told.sighting = r.sighting := rfl

/-- The key that is stored is the incoming one wherever the incoming record is taken in. -/
theorem sighting_of_resolveMerge {stored : Option Record} {incoming merged : Record}
    (hstored : ∀ s ∈ stored, s.identity = incoming.identity) (hkey : incoming.publicKey ≠ "")
    (h : (resolveMerge stored incoming).record? = some merged) :
    merged.sighting = incoming.sighting := by
  cases stored with
  | none =>
      cases h
      rfl
  | some stored =>
      rw [resolveMerge] at h
      split at h
      · cases h
      · rename_i hagrees
        split at h
        · cases h
        · cases h
          have hpinned : (if stored.publicKey = "" then incoming.publicKey else stored.publicKey) =
              incoming.publicKey := by
            split
            · rfl
            · rename_i hpin
              simpa [Record.contradicts, hpin, hkey] using hagrees
          simp [Record.sighting, Record.updated, hpinned, hstored stored rfl]

namespace Packet

theorem mem_decode_encode {records : List Record} {packet : Packet} {r : Record}
    (h : decode (encode records) = .ok packet) (hr : r ∈ packet.records) :
    ∃ s ∈ records, takes s ∧ s.told = r := by
  rw [decode_encode] at h
  cases h
  obtain ⟨s, hs, rfl⟩ := List.mem_map.mp hr
  obtain ⟨hs, htakes⟩ := List.mem_filter.mp hs
  exact ⟨s, hs, htakes, rfl⟩

end Packet

namespace Cache

open StoreKind

variable {C : Cache} {P : Sighting → Prop}

theorem sighting_perform (hC : ∀ s ∈ C.entries, P s.sighting) {call : Call}
    (hwritten : ∀ r ∈ call.written?, P r.sighting)
    (hkey : ∀ r, call = .merge r → r.publicKey ≠ "") :
    ∀ s ∈ (perform C call).2.entries, P s.sighting := by
  have hput {r merged : Record} (hr : P r.sighting) (hmerged : merged.sighting = r.sighting) :
      ∀ s ∈ (C.put merged).entries, P s.sighting := by
    intro s hs
    rcases mem_put.mp hs with rfl | ⟨hs, -⟩
    · rwa [hmerged]
    · exact hC s hs
  rcases perform_cases C call with ⟨r, -, hr, hnamed, -⟩ | hsubset
  · cases call with
    | upsert r =>
        cases hr
        rw [perform_upsert hnamed]
        exact hput (hwritten r rfl) rfl
    | merge r =>
        cases hr
        rw [perform_merge hnamed]
        cases hmerged : (resolveMerge (C.find? r.identity) r).record? with
        | none => exact hC
        | some merged =>
            exact hput (hwritten r rfl)
              (sighting_of_resolveMerge find?_identity (hkey r rfl) hmerged)
    | _ => cases hr
  · exact fun s hs => hC s (hsubset s hs)

theorem sighting_after (hC : ∀ s ∈ C.entries, P s.sighting) {calls : List Call}
    (hcalls : ∀ call ∈ calls, (∀ r ∈ call.written?, P r.sighting) ∧
      ∀ r, call = .merge r → r.publicKey ≠ "") :
    ∀ s ∈ (after C calls).entries, P s.sighting := by
  induction calls generalizing C with
  | nil => exact hC
  | cons call calls ih =>
      obtain ⟨hcall, hrest⟩ := List.forall_mem_cons.mp hcalls
      exact ih (sighting_perform hC hcall.1 hcall.2) hrest

end Cache

namespace Network

variable {ι : Type} {σ : ι → Type} [∀ i, CacheLike (σ i)] {net : Network σ}

open CacheLike RecordStore

def Traced (sources records : List Record) : Prop :=
  ∀ r ∈ records, ∃ s ∈ sources, s.sighting = r.sighting

theorem Traced.mono {sources records : List Record} (h : Traced sources records)
    (more : List Record) : Traced (sources ++ more) records := by
  intro r hr
  obtain ⟨s, hs, he⟩ := h r hr
  exact ⟨s, List.mem_append_left _ hs, he⟩

theorem Traced.decode {sources records : List Record} {packet : Packet}
    (h : Traced sources records) (hdecode : Packet.decode (Packet.encode records) = .ok packet) :
    Traced sources packet.records := by
  intro r hr
  obtain ⟨s, hs, -, rfl⟩ := Packet.mem_decode_encode hdecode hr
  exact h s hs

structure Traceable (net : Network σ) (sources : List Record) : Prop where
  held (i : ι) : ∃ C, shows (net i).store C ∧ Traced sources C.entries
  sent (text : String) : net.Sent text →
    ∃ records, text = Packet.encode records ∧ Traced sources records

namespace Traceable

variable {sources : List Record}

theorem mono (h : Traceable net sources) (more : List Record) :
    Traceable net (sources ++ more) := by
  constructor
  · intro i
    obtain ⟨C, hshows, hC⟩ := h.held i
    exact ⟨C, hshows, hC.mono more⟩
  · intro text htext
    obtain ⟨records, he, hrecords⟩ := h.sent text htext
    exact ⟨records, he, hrecords.mono more⟩

theorem of_fresh (h : net.Fresh) : Traceable net [] := by
  constructor
  · intro i
    obtain ⟨capacity, hstore⟩ := h.store i
    exact ⟨.empty capacity, hstore ▸ lockstep.empty capacity, nofun⟩
  · rintro text ⟨i, d, hd, -⟩
    rw [h.sent i] at hd
    cases hd

variable [DecidableEq ι]

theorem update (h : Traceable net sources) {i : ι} {g : Gossiper (σ i)}
    (hstore : ∃ C, shows g.store C ∧ Traced sources C.entries)
    (hsent : ∀ d ∈ g.transport.sent, d ∈ (net i).transport.sent ∨ (d.kind = syncKind →
      ∃ records, d.body = Packet.encode records ∧ Traced sources records)) :
    Traceable (Function.update net i g) sources := by
  constructor
  · intro j
    by_cases hj : j = i
    · subst hj
      rwa [Function.update_self]
    · rw [Function.update_of_ne hj]
      exact h.held j
  · rintro text ⟨j, d, hd, hkind, rfl⟩
    by_cases hj : j = i
    · subst hj
      rw [Function.update_self] at hd
      rcases hsent d hd with hold | hnew
      · exact h.sent d.body ⟨j, d, hold, hkind, rfl⟩
      · exact hnew hkind
    · rw [Function.update_of_ne hj] at hd
      exact h.sent d.body ⟨j, d, hd, hkind, rfl⟩

theorem perform (h : Traceable net sources) (i : ι) {call : Call}
    (hwritten : Traced sources call.written?.toList)
    (hkey : ∀ r, call = .merge r → r.publicKey ≠ "") :
    Traceable (net.setStore i (StoreKind.perform (net i).store call).2) sources := by
  obtain ⟨C, hshows, hC⟩ := h.held i
  refine h.update ⟨_, (lockstep.perform hshows call).2, ?_⟩ fun d hd => .inl hd
  exact Cache.sighting_perform (P := fun x => ∃ s ∈ sources, s.sighting = x) hC
    (fun r hr => hwritten r (Option.mem_toList.mpr hr)) hkey

theorem tick (h : Traceable net sources) (i : ι) (draws : Draws) (now : Nat) :
    Traceable (Function.update net i ((net i).round draws now).2) sources := by
  obtain ⟨activePeers, events, datagrams, hround, hpackets⟩ := (net i).round_eq draws now
  obtain ⟨C, hshows, hC⟩ := h.held i
  rw [hround]
  refine h.update ⟨C, hshows, hC⟩ fun d hd => ?_
  rcases Transport.mem_sent_sendEach hd with hold | hnew
  · exact .inl hold
  · refine .inr fun _ => ?_
    obtain ⟨-, stored, records, hall, hsubset, hbody⟩ := hpackets d hnew
    refine ⟨records, hbody, fun r hr => hC r ?_⟩
    rw [all_eq hshows] at hall
    cases hall
    exact List.mem_of_mem_take (hsubset hr)

theorem deliver (h : Traceable net sources) (i : ι) {text : String} (source : String) (now : Nat)
    (hsent : net.Sent text) :
    Traceable (Function.update net i ((net i).receive text source now).2) sources := by
  obtain ⟨records, rfl, hrecords⟩ := h.sent text hsent
  obtain ⟨C, hshows, hC⟩ := h.held i
  refine h.update ⟨_, (net i).store_receive .. ▸ lockstep.after hshows _, ?_⟩ fun d hd =>
    (Gossiper.mem_sent_receive hd).imp_right fun hprobe hsync => ?_
  · refine Cache.sighting_after (P := fun x => ∃ s ∈ sources, s.sighting = x) hC ?_
    intro call hcall
    obtain ⟨packet, hdecode, hbatch⟩ := Gossiper.mem_callsOfText hcall
    rcases Gossiper.mem_batchCalls.mp hbatch with ⟨r, hr, -, rfl⟩ | rfl
    · obtain ⟨s, -, htakes, rfl⟩ := Packet.mem_decode_encode hdecode hr
      refine ⟨fun u hu => ?_, fun u hu => ?_⟩
      · cases hu
        exact hrecords.decode hdecode _ hr
      · cases hu
        exact Packet.publicKey_ne_of_takes htakes
    · exact ⟨nofun, nofun⟩
  · rw [hprobe] at hsync
    exact absurd hsync (by decide)

theorem step (h : Traceable net sources) {act : Act ι} {next : Network σ}
    (hstep : Step net act next) : Traceable next (sources ++ act.stored?.toList) := by
  cases hstep with
  | @upsert i r store hupsert =>
      have hstore : (StoreKind.perform (net i).store (.upsert r)).2 = store := by
        rw [StoreKind.perform_upsert_eq hupsert]
      rw [← hstore]
      refine (h.mono [r]).perform i (fun s hs => ?_) nofun
      obtain rfl := List.mem_singleton.mp hs
      exact ⟨s, List.mem_append_right _ List.mem_cons_self, rfl⟩
  | @tend i call hcall =>
      refine (h.mono _).perform i (by rw [hcall]; exact nofun) ?_
      rintro r rfl
      cases hcall
  | tick i draws now => exact (h.mono _).tick i draws now
  | @deliver i text source now hsent => exact (h.mono _).deliver i source now hsent

theorem run {start : Network σ} {acts : List (Act ι)} (hstart : start.Fresh)
    (hrun : Run start acts net) : Traceable net (origins acts) := by
  induction hrun with
  | start => exact of_fresh hstart
  | @step acts net next act _ hstep ih =>
      have h := ih.step hstep
      cases hact : act.stored? <;> simpa [origins, List.filterMap_append, hact] using h

end Traceable

variable [DecidableEq ι]

/-- Nothing that a node holds or sends was made up: each sighting is one that some node stored at
first hand, as a whole. -/
theorem sightings_original {start : Network σ} {acts : List (Act ι)} (hstart : start.Fresh)
    (hrun : Run start acts net) :
    (∀ i identity, ∃ found, get? (net i).store identity = .ok found ∧
      Traced (origins acts) found.toList) ∧
    (∀ i count, ∃ records, recent (net i).store count = .ok records ∧
      Traced (origins acts) records) ∧
    (∀ text, net.Sent text →
      (∃ records, text = Packet.encode records ∧ Traced (origins acts) records) ∧
      ∃ packet, Packet.decode text = .ok packet ∧ Traced (origins acts) packet.records) ∧
    ∀ identity key, (∀ r ∈ origins acts, r.identity = identity → r.publicKey = key) →
      ∀ i r, get? (net i).store identity = .ok (some r) → r.publicKey = key := by
  have h := Traceable.run hstart hrun
  refine ⟨fun i identity => ?_, fun i count => ?_, fun text htext => ?_,
    fun identity key hkey i r hr => ?_⟩
  · obtain ⟨C, hshows, hC⟩ := h.held i
    refine ⟨_, lockstep.get? hshows identity, fun r hr => hC r ?_⟩
    exact (Cache.find?_eq_some_iff.mp (Option.mem_toList.mp hr)).1
  · obtain ⟨C, hshows, hC⟩ := h.held i
    exact ⟨_, lockstep.recent hshows count, fun r hr => hC r (List.mem_of_mem_take hr)⟩
  · obtain ⟨records, rfl, hrecords⟩ := h.sent text htext
    have hdecode := Packet.decode_encode records
    exact ⟨⟨records, rfl, hrecords⟩, _, hdecode, hrecords.decode hdecode⟩
  · obtain ⟨C, hshows, hC⟩ := h.held i
    rw [lockstep.get? hshows] at hr
    obtain ⟨hmem, rfl⟩ := Cache.find?_eq_some_iff.mp (Except.ok.inj hr)
    obtain ⟨s, hs, he⟩ := hC r hmem
    have hsame : s.publicKey = r.publicKey := congrArg Sighting.publicKey he
    exact hsame ▸ hkey s hs (congrArg Sighting.identity he)

/-- A record is stored at one node, sent by a round to the peer that it is about, and taken in by
another node. -/
theorem sightings_original_of_delivery :
    let r : Record := { identity := "c", publicKey := "k", address := "10.0.0.3", lastSeen := 5 }
    let start : Network fun _ : Bool => MemoryStore :=
      fun i => .start (.empty 4) (if i then "b" else "a") {}
    let text := Packet.encode [r]
    let acts : List (Act Bool) := [.upsert false r, .tick false {} 0, .deliver true text "a" 0]
    ∃ net, start.Fresh ∧ Run start acts net ∧ get? (net true).store "c" = .ok (some r) ∧
      (∃ s ∈ origins acts, s.sighting = r.sighting) ∧
      ∀ i s, get? (net i).store "c" = .ok (some s) → s.publicKey = "k" := by
  intro r start text acts
  have hfresh : start.Fresh := ⟨fun _ => ⟨4, rfl⟩, fun _ => rfl⟩
  let stored := start.setStore false ((start false).store.put r)
  have hupsert : Step start (.upsert false r) stored := .upsert rfl
  let told : Network fun _ : Bool => MemoryStore :=
    Function.update stored false ((stored false).round {} 0).2
  have htick : Step stored (.tick false {} 0) told := .tick false {} 0
  have hsent : told.Sent text := ⟨false, ⟨"10.0.0.3:8888", syncKind, text⟩, by decide +kernel⟩
  let net : Network fun _ : Bool => MemoryStore :=
    Function.update told true ((told true).receive text "a" 0).2
  have hdeliver : Step told (.deliver true text "a" 0) net := .deliver true "a" 0 hsent
  have hrun : Run start acts net := ((Run.start.step hupsert).step htick).step hdeliver
  have hrecords : ([r].filter Packet.takes).map Record.told = [r] := by decide +kernel
  have hdropped : ([r].countP fun r => !Packet.takes r) = 0 := by decide +kernel
  have hdecode := Packet.decode_encode [r]
  rw [hrecords, hdropped] at hdecode
  -- The text is generalized, so that no step has to read it again.
  have hread : ∀ text, Packet.decode text = .ok ⟨[r], 0⟩ →
      get? ((told true).receive text "a" 0).2.store "c" = .ok (some r) := by
    intro text htext
    simp only [Gossiper.receive, htext]
    decide +kernel
  have hnet : net true = ((told true).receive text "a" 0).2 := Function.update_self ..
  have hheld : get? (net true).store "c" = .ok (some r) := by
    rw [hnet]
    exact hread text hdecode
  obtain ⟨hfound, -, -, hpinned⟩ := sightings_original hfresh hrun
  obtain ⟨found, hget, htraced⟩ := hfound true "c"
  obtain rfl := Except.ok.inj (hheld.symm.trans hget)
  exact ⟨net, hfresh, hrun, hheld, htraced r List.mem_cons_self, hpinned "c" "k" (by decide)⟩

end Network

end PeerBook
