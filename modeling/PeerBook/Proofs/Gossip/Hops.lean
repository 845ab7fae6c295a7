import PeerBook.Proofs.Gossip.Replay
import PeerBook.Proofs.Gossip.RoundEffects

namespace PeerBook

namespace Record

/-- How what is held after a hop stands to the record that was handed over and to what was held
before. -/
structure UpToDate (before : Option Record) (r held : Record) : Prop where
  pinned_or_later :
    (held.publicKey ≠ "" ∧ held.publicKey ≠ r.publicKey ∧ before = some held) ∨
      r.lastSeen ≤ held.lastSeen
  copied : (∀ p ∈ before, p.lastSeen < r.lastSeen ∧
      (p.publicKey = r.publicKey ∨ p.publicKey = "")) →
    held.address = r.address ∧ held.port = r.port ∧ held.publicKey = r.publicKey ∧
      held.lastSeen = r.lastSeen

variable {p r : Record}

theorem publicKey_updated_of_not_contradicts (hkey : r.publicKey ≠ "") (h : ¬p.contradicts r) :
    (p.updated r).publicKey = r.publicKey := by
  rw [updated]
  by_cases hkeyless : p.publicKey = ""
  · exact if_pos hkeyless
  · rw [contradicts_iff hkeyless] at h
    rw [if_neg hkeyless]
    by_contra hne
    exact h ⟨hkey, Ne.symm hne⟩

theorem upToDate_mergedInto (hkey : r.publicKey ≠ "") (before : Option Record) :
    UpToDate before r (mergedInto before r) := by
  cases before with
  | none => exact ⟨.inr (UInt64.le_refl _), fun _ => ⟨rfl, rfl, rfl, rfl⟩⟩
  | some p =>
      change UpToDate (some p) r (p.absorb r)
      rcases absorb_cases p r with ⟨hother | hle, h⟩ | ⟨hsame, -, h⟩ <;> rw [h]
      · have hkeyed := publicKey_ne_of_contradicts hother
        have hne : r.publicKey ≠ p.publicKey := ((contradicts_iff hkeyed).mp hother).2
        refine ⟨.inl ⟨hkeyed, hne.symm, rfl⟩, fun hadmitted => ?_⟩
        rcases (hadmitted p rfl).2 with hsame | hempty
        · exact (hne hsame.symm).elim
        · exact (hkeyed hempty).elim
      · exact ⟨.inr hle, fun hadmitted => (UInt64.not_le.mpr (hadmitted p rfl).1 hle).elim⟩
      · exact ⟨.inr (UInt64.le_refl _),
          fun _ => ⟨rfl, rfl, publicKey_updated_of_not_contradicts hkey hsame, rfl⟩⟩

end Record

namespace Gossiper

open CacheLike StoreKind

section Receiver

variable {τ : Type} [SteadyStore τ] {b b' : Gossiper τ} {B : Cache} {records : List Record}
  {source : String} {later : Nat} {summary : BatchSummary} {r : Record}

/-- What a node holds after a packet of records with different identities, from which it had to
evict nothing. -/
theorem get?_of_received (hB : shows b.store B) (hdistinct : (records.map Record.identity).Nodup)
    (hreceive : b.receive (Packet.encode records) source later = (.processed summary, b'))
    (hroom : summary.evicted = 0) (hr : r ∈ records) (htakes : Packet.takes r)
    (hother : r.identity ≠ b.localIdentity) :
    RecordStore.get? b'.store r.identity =
      .ok (some (Record.mergedInto (B.find? r.identity) r.told)) := by
  obtain ⟨packet, hdecode, -, hshows⟩ := receive_of_room hB hreceive hroom
  rw [Packet.decode_encode] at hdecode
  cases hdecode
  have hmerged : r.told ∈ ((records.filter Packet.takes).map Record.told).filter fun r =>
      r.identity ≠ b.localIdentity :=
    List.mem_filter.mpr ⟨List.mem_map.mpr ⟨r, List.mem_filter.mpr ⟨hr, htakes⟩, rfl⟩,
      decide_eq_true hother⟩
  have hidentities : ((((records.filter Packet.takes).map Record.told).filter fun r =>
      r.identity ≠ b.localIdentity).map Record.identity).Nodup := by
    have htold : ((records.filter Packet.takes).map Record.told).map Record.identity =
        (records.filter Packet.takes).map Record.identity := by
      rw [List.map_map]
      rfl
    refine List.Nodup.sublist (List.filter_sublist.map _) ?_
    rw [htold]
    exact hdistinct.sublist (List.filter_sublist.map _)
  rw [lockstep.get? hshows]
  exact congrArg Except.ok
    (Cache.find?_after_merges hidentities hmerged (Packet.identity_ne_of_takes htakes))

end Receiver

variable {σ τ : Type} [CacheLike σ] [SteadyStore τ] {a a' : Gossiper σ} {b : Gossiper τ}
  {A B : Cache} {draws : Draws} {queued : List Outbound} {d : Outbound} {source : String}
  {now later : Nat} {outcome : Except Fault Nat}

/-- A hop brings the receiver up to date: unless it is turned away or crowds something out, it leaves
there each record of the sender's sample that can be taken in, or a later one, or what was held under
another key. -/
theorem hop_brings_up_to_date (hA : shows a.store A) (hB : shows b.store B)
    (hround : a.round draws now = (outcome, a'))
    (hqueued : a'.transport.sent = a.transport.sent ++ queued) (hd : d ∈ queued)
    (hheard : b.throttle.admits source later) :
    d.body = Packet.encode (a.handed draws) ∧
      ∃ summary b', b.receive d.body source later = (.processed summary, b') ∧
        (summary.evicted = 0 → ∀ r ∈ a.handed draws,
          ¬Text.isBlank r.identity → ¬Text.isBlank r.publicKey → r.identity ≠ b.localIdentity →
          ∃ before held, RecordStore.get? b.store r.identity = .ok before ∧
            RecordStore.get? b'.store r.identity = .ok (some held) ∧ held.identity = r.identity ∧
            Record.UpToDate before r held) := by
  obtain ⟨sent, hsent, hpackets⟩ := a.exists_queued_round draws now
  rw [hround] at hsent
  obtain rfl := List.append_cancel_left (hsent.symm.trans hqueued)
  have hbody := (hpackets d hd).2
  have hadmitted := (Throttle.fst_hear b.throttle source later).trans hheard
  have hreceive := receive_of_packet hadmitted (Packet.decode_encode (a.handed draws)) rfl
  refine ⟨hbody, _, _, hbody ▸ hreceive, fun hroom r hr hnamed hkeyed hother => ?_⟩
  have htakes : Packet.takes r := by simp [Packet.takes, hnamed, hkeyed]
  have hpicked := picked_handed hA (List.ne_nil_of_mem hr)
  have hheld := get?_of_received hB hpicked.distinct hreceive hroom hr htakes hother
  have hup := Record.upToDate_mergedInto (r := r.told) (Packet.publicKey_ne_of_takes htakes)
    (B.find? r.identity)
  refine ⟨B.find? r.identity, _, lockstep.get? hB r.identity, hheld, ?_, ⟨hup.1, hup.2⟩⟩
  cases hfound : B.find? r.identity with
  | none => rfl
  | some p => exact Record.identity_absorb.trans (Cache.find?_identity p hfound)

/-- A receiver on tables that holds one record of the sample under another key and an older one of
the other without a key. -/
theorem hop_brings_up_to_date_of_two :
    let x : Record :=
      { identity := "x", publicKey := "k", address := "10.0.0.1", port := 1, lastSeen := 5 }
    let y : Record := { x with identity := "y", port := 2 }
    let pinned : Record := { x with publicKey := "other", lastSeen := 1 }
    let keyless : Record := { y with publicKey := "", port := 3, lastSeen := 1 }
    let a := start (((MemoryStore.empty 10).put x).put y) "a" {}
    let b := start (after (DurableStore.empty 10) [.upsert pinned, .upsert keyless]) "b" {}
    ∃ outcome a' d summary b', a.round {} 0 = (outcome, a') ∧ d ∈ a'.transport.sent ∧
      b.receive d.body "a" 0 = (.processed summary, b') ∧ summary.evicted = 0 ∧
      (∃ held, RecordStore.get? b'.store "x" = .ok (some held) ∧
        Record.UpToDate (some pinned) x held) ∧
      ∃ held, RecordStore.get? b'.store "y" = .ok (some held) ∧
        Record.UpToDate (some keyless) y held := by
  intro x y pinned keyless a b
  have hshows : shows a.store (((Cache.empty 10).put x).put y) :=
    ((MemoryStore.lockstep_shows.empty 10).put x).put y
  have hshows' : shows b.store (after (Cache.empty 10) [.upsert pinned, .upsert keyless]) :=
    lockstep.after (lockstep.empty 10) _
  have hsent : (a.round {} 0).1 = .ok 2 := by decide +kernel
  have hlength : (a.round {} 0).2.transport.sent.length = 2 := by decide +kernel
  have hhanded : a.handed {} = [y, x] := by decide +kernel
  have hpinned : RecordStore.get? b.store "x" = .ok (some pinned) := by decide +kernel
  have hkeyless : RecordStore.get? b.store "y" = .ok (some keyless) := by decide +kernel
  have htaken : ([y, x].filter Packet.takes).map Record.told = [y, x] := by decide +kernel
  have hdropped : ([y, x].countP fun r => !Packet.takes r) = 0 := by decide +kernel
  have hdecode := Packet.decode_encode [y, x]
  rw [htaken, hdropped, ← hhanded] at hdecode
  have hread : ∀ text, Packet.decode text = .ok ⟨a.handed {}, 0⟩ → (b.receive text "a" 0).1 =
      .processed { received := 2, applied := 1, keyMismatches := 1, probesSent := 1 } := by
    intro text htext
    rw [hhanded] at htext
    simp only [receive, htext]
    decide +kernel
  have hsummary := hread _ hdecode
  obtain ⟨a', ha'⟩ : ∃ a', (a.round {} 0).2 = a' := ⟨_, rfl⟩
  have hround : a.round {} 0 = (.ok 2, a') := Prod.ext hsent ha'
  rw [ha'] at hlength
  obtain ⟨d, hd⟩ := List.exists_mem_of_length_pos (hlength ▸ Nat.zero_lt_two)
  have hheard : b.throttle.admits "a" 0 := rfl
  obtain ⟨hbody, summary, b', hreceive, hup⟩ :=
    hop_brings_up_to_date hshows hshows' hround (List.nil_append _).symm hd hheard
  have hroom : summary.evicted = 0 := by
    rw [← hbody, hreceive] at hsummary
    cases hsummary
    rfl
  have hheld := hup hroom
  rw [hhanded] at hheld
  have hmine : y ∈ [y, x] ∧ x ∈ [y, x] :=
    ⟨List.mem_cons_self, List.mem_cons_of_mem _ List.mem_cons_self⟩
  obtain ⟨before, held, hbefore, hget, -, hx⟩ :=
    hheld x hmine.2 (by decide) (by decide) (by decide)
  obtain rfl := Except.ok.inj (hbefore.symm.trans hpinned)
  obtain ⟨before, held', hbefore, hget', -, hy⟩ :=
    hheld y hmine.1 (by decide) (by decide) (by decide)
  obtain rfl := Except.ok.inj (hbefore.symm.trans hkeyless)
  exact ⟨_, a', d, summary, b', hround, hd, hreceive, hroom, ⟨held, hget, hx⟩, held', hget', hy⟩

end Gossiper

end PeerBook
