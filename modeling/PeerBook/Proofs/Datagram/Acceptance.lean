import PeerBook.Proofs.Datagram.RoundTrip
import PeerBook.Proofs.Identity.Hashes

namespace PeerBook

namespace SignatureScheme

variable {scheme : SignatureScheme} {seed : Seed} {message : Octets}

theorem verify_sign (hkey : (scheme.publicKey seed).length = 32)
    (hpoint : scheme.isKey (scheme.publicKey seed))
    (hsignature : (scheme.sign seed message).length = 64)
    (haccepts : scheme.accepts (scheme.publicKey seed) message (scheme.sign seed message)) :
    scheme.verify (scheme.keyText seed) message (scheme.signText seed message) = .ok () := by
  rw [verify, keyText, signText, Octets.Base64.decode?_encode, Octets.Base64.decode?_encode]
  simp only [hkey, hpoint, hsignature, haccepts]
  rfl

end SignatureScheme

namespace Curve

theorem Point.length_encode (p : Point) : p.encode.length = 32 :=
  Octets.length_littleEndian 32 _

namespace Ed25519

theorem length_publicKey (seed : Octets) : (publicKey seed).length = 32 :=
  Point.length_encode _

theorem length_sign (seed message : Octets) : (sign seed message).length = 64 := by
  rw [sign, List.length_append, Point.length_encode, Octets.length_littleEndian]

theorem isKey_of_accepts {key message signature : Octets} (h : accepts key message signature) :
    isKey key := by
  rw [accepts] at h
  split at h
  · cases h
  · rename_i point hpoint
    rw [isKey, hpoint]
    rfl

end Ed25519

end Curve

namespace Datagram

open Octets

variable {scheme : SignatureScheme} {d : Datagram} {wire : Octets} {now : Timestamp}

theorem of_guarded {α : Type} {p : Prop} [Decidable p] {fault : Fault} {x : Except Fault α} {r : α}
    (h : (if p then .error fault else x) = .ok r) : ¬p ∧ x = .ok r := by
  split at h
  · cases h
  · rename_i hp
    exact ⟨hp, h⟩

theorem accepts_of_verify {publicKey : String} {message : Octets} {signature : String}
    (h : scheme.verify publicKey message signature = .ok ()) : ∃ key octets,
      Base64.decode? publicKey = some key ∧ key.length = 32 ∧
        Base64.decode? signature = some octets ∧ scheme.accepts key message octets := by
  rw [SignatureScheme.verify] at h
  cases hkey : Base64.decode? publicKey with
  | none =>
      rw [hkey] at h
      cases h
  | some key =>
      rw [hkey] at h
      obtain ⟨hlength, h⟩ := of_guarded h
      obtain ⟨-, h⟩ := of_guarded h
      cases hsignature : Base64.decode? signature with
      | none =>
          rw [hsignature] at h
          cases h
      | some octets =>
          rw [hsignature] at h
          obtain ⟨-, h⟩ := of_guarded h
          obtain ⟨haccepts, -⟩ := of_guarded h
          exact ⟨key, octets, rfl, Decidable.not_not.mp hlength, rfl, by simpa using haccepts⟩

theorem verify_eq_ok (h : d.verify scheme now = .ok ()) :
    Timestamp.distance now d.timestamp ≤ maxDrift ∧ d.sender = keyHash d.publicKey ∧
      scheme.verify d.publicKey d.signedOctets d.signature = .ok () := by
  rw [verify] at h
  obtain ⟨hdrift, h⟩ := of_guarded h
  obtain ⟨hsender, h⟩ := of_guarded h
  exact ⟨UInt64.not_lt.mp hdrift, Decidable.not_not.mp hsender, h⟩

theorem bind_eq_ok {α β : Type} {x : Except Fault α} {f : α → Except Fault β} {b : β} :
    x.bind f = .ok b ↔ ∃ a, x = .ok a ∧ f a = .ok b := by
  cases x <;> simp [Except.bind]

theorem map_eq_ok {α β : Type} {x : Except Fault α} {f : α → β} {b : β} :
    x.map f = .ok b ↔ ∃ a, x = .ok a ∧ f a = b := by
  cases x <;> simp [Except.map]

theorem opened_eq_ok_iff : opened scheme wire now = .ok d ↔
    decode wire = .ok d ∧ d.verify scheme now = .ok () := by
  have hopened : opened scheme wire now =
      (decode wire).bind fun e => (e.verify scheme now).map fun _ => e := rfl
  rw [hopened, bind_eq_ok]
  constructor
  · rintro ⟨e, he, h⟩
    obtain ⟨_, hverify, rfl⟩ := map_eq_ok.mp h
    exact ⟨he, hverify⟩
  · rintro ⟨hd, hverify⟩
    exact ⟨d, hd, map_eq_ok.mpr ⟨(), hverify, rfl⟩⟩

theorem opened_encode (scheme : SignatureScheme) (d : Datagram) (now : Timestamp) :
    opened scheme d.encode now = (d.verify scheme now).map fun _ => d := by
  rw [opened, decode_encode]
  rfl

theorem verify_of_drift (h : maxDrift < Timestamp.distance now d.timestamp) :
    d.verify scheme now = .error (.clockDrift (Timestamp.distance now d.timestamp)) := by
  rw [verify]
  exact if_pos h

theorem verify_of_close (h : Timestamp.distance now d.timestamp ≤ maxDrift)
    (hsender : d.sender = keyHash d.publicKey) :
    d.verify scheme now = scheme.verify d.publicKey d.signedOctets d.signature := by
  rw [verify]
  exact (if_neg (UInt64.not_lt.mpr h)).trans (if_neg (not_not_intro hsender))

theorem verify_sealed {seed : Seed} {kind body : String} {timestamp : Timestamp}
    (hclose : Timestamp.distance now timestamp ≤ maxDrift)
    (haccepts : ed25519.accepts (ed25519.publicKey seed)
      (sealed ed25519 seed kind body timestamp).signedOctets
      (ed25519.sign seed (sealed ed25519 seed kind body timestamp).signedOctets)) :
    (sealed ed25519 seed kind body timestamp).verify ed25519 now = .ok () := by
  rw [verify_of_close hclose rfl]
  exact SignatureScheme.verify_sign (Curve.Ed25519.length_publicKey _)
    (Curve.Ed25519.isKey_of_accepts haccepts) (Curve.Ed25519.length_sign _ _) haccepts

end Datagram

end PeerBook
