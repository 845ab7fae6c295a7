import PeerBook.Proofs.Datagram.Authenticity

namespace PeerBook

namespace Datagram

/-- What was sealed is read back as it is, with what was put into it, and it opens as long as the
clocks are at most a minute apart. Otherwise the fault tells how far apart they are. -/
theorem opened_sealed (seed : Seed) (kind body : String) (timestamp now : Timestamp)
    (haccepts : ed25519.accepts (ed25519.publicKey seed)
      (sealed ed25519 seed kind body timestamp).signedOctets
      (ed25519.sign seed (sealed ed25519 seed kind body timestamp).signedOctets)) :
    let d := sealed ed25519 seed kind body timestamp
    let drift := ((now.toNat : Int) - timestamp.toNat).natAbs
    (d.kind = kind ∧ d.body = body ∧ d.timestamp = timestamp) ∧ decode d.encode = .ok d ∧
      ∃ carried : Timestamp, carried.toNat = drift ∧
        opened ed25519 d.encode now =
          if drift ≤ 60000 then .ok d else .error (.clockDrift carried) := by
  intro d drift
  have hdrift : (Timestamp.distance now timestamp).toNat = drift := Timestamp.toNat_distance _ _
  refine ⟨⟨rfl, rfl, rfl⟩, decode_encode d, Timestamp.distance now timestamp, hdrift, ?_⟩
  rw [opened_encode]
  by_cases hclose : Timestamp.distance now timestamp ≤ maxDrift
  · have hle : drift ≤ 60000 := hdrift ▸ UInt64.le_iff_toNat_le.mp hclose
    rw [if_pos hle, verify_sealed hclose haccepts]
    rfl
  · have hlt := UInt64.not_le.mp hclose
    have hgt : 60000 < drift := hdrift ▸ UInt64.lt_iff_toNat_lt.mp hlt
    rw [if_neg (Nat.not_le.mpr hgt), verify_of_drift hlt]
    rfl

/-- A text with a quote, a control character and a letter beyond the first plane, sealed at the
epoch, opens a minute later and is out of date at the end of time. -/
theorem opened_sealed_at_epoch :
    let seed : Seed := ⟨List.replicate 32 42, rfl⟩
    let body := "\"\u0007 😀"
    let d := sealed ed25519 seed "PEER_SYNC" body 0
    d.body = body ∧ opened ed25519 d.encode 60000 = .ok d ∧
      ∃ carried : Timestamp, carried.toNat = 2 ^ 64 - 1 ∧
        opened ed25519 d.encode 18446744073709551615 = .error (.clockDrift carried) := by
  intro seed body d
  have haccepts : ed25519.accepts (ed25519.publicKey seed) d.signedOctets
      (ed25519.sign seed d.signedOctets) := by
    decide +kernel
  obtain ⟨⟨-, hbody, -⟩, -, _, -, hopened⟩ := opened_sealed seed "PEER_SYNC" body 0 60000 haccepts
  obtain ⟨-, -, carried, hcarried, hstale⟩ :=
    opened_sealed seed "PEER_SYNC" body 0 18446744073709551615 haccepts
  rw [if_pos (by decide)] at hopened
  rw [if_neg (by decide)] at hstale
  exact ⟨hbody, hopened, carried, hcarried, hstale⟩

end Datagram

end PeerBook
