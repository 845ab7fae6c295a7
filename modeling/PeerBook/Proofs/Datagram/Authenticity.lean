import Mathlib.Algebra.Group.Nat.Defs
import Mathlib.Data.Set.Defs
import PeerBook.Proofs.Datagram.Acceptance

namespace PeerBook

namespace Octets

theorem ofLittleEndian_littleEndian (width n : Nat) :
    ofLittleEndian (littleEndian width n) = n % 256 ^ width := by
  induction width generalizing n with
  | zero => simp [littleEndian, ofLittleEndian, Nat.mod_one]
  | succ width ih =>
      rw [littleEndian, ofLittleEndian, ih, Nat.pow_succ', Nat.mod_mul, UInt8.toNat_ofNat']

end Octets

theorem utf8_injective : Function.Injective utf8 := fun s t h =>
  Option.some.inj ((Octets.text?_utf8 s).symm.trans (h ▸ Octets.text?_utf8 t))

namespace Timestamp

theorem toNat_distance (s t : Timestamp) :
    (distance s t).toNat = ((s.toNat : Int) - t.toNat).natAbs := by
  rw [distance]
  split
  · rename_i hle
    have hle' := UInt64.le_iff_toNat_le.mp hle
    rw [UInt64.toNat_sub_of_le _ _ hle]
    omega
  · rename_i hlt
    have hle := UInt64.le_of_lt (UInt64.not_le.mp hlt)
    have hle' := UInt64.le_iff_toNat_le.mp hle
    rw [UInt64.toNat_sub_of_le _ _ hle]
    omega

theorem toNat_distance_le {s t bound : Timestamp} (h : distance s t ≤ bound) :
    s.toNat ≤ t.toNat + bound.toNat ∧ t.toNat ≤ s.toNat + bound.toNat := by
  have hbound := UInt64.le_iff_toNat_le.mp h
  rw [toNat_distance] at hbound
  omega

end Timestamp

namespace Datagram

open Octets

variable {a b : String} {x y : Octets} {d e : Datagram}

theorem length_mod_of_measured (h : measured a ++ x = measured b ++ y) :
    (utf8 a).length % 2 ^ 32 = (utf8 b).length % 2 ^ 32 := by
  simp only [measured, List.append_assoc] at h
  have hwidths := (length_littleEndian 4 (utf8 a).length).trans
    (length_littleEndian 4 (utf8 b).length).symm
  have hlengths := congrArg ofLittleEndian (List.append_inj h hwidths).1
  rwa [ofLittleEndian_littleEndian, ofLittleEndian_littleEndian] at hlengths

theorem measured_append_inj (hlength : (utf8 a).length = (utf8 b).length)
    (h : measured a ++ x = measured b ++ y) : a = b ∧ x = y := by
  simp only [measured, List.append_assoc, hlength] at h
  obtain ⟨htext, hrest⟩ := List.append_inj (List.append_cancel_left h) hlength
  exact ⟨utf8_injective htext, hrest⟩

def Fits (text : String) : Prop :=
  (utf8 text).length < 2 ^ 32

theorem measured_append_inj_of_fits (ha : Fits a) (hb : Fits b)
    (h : measured a ++ x = measured b ++ y) : a = b ∧ x = y := by
  have hmod := length_mod_of_measured h
  rw [Nat.mod_eq_of_lt ha, Nat.mod_eq_of_lt hb] at hmod
  exact measured_append_inj hmod h

theorem timestamp_append_inj {s t : Timestamp}
    (h : littleEndian 8 s.toNat ++ x = littleEndian 8 t.toNat ++ y) : s = t ∧ x = y := by
  obtain ⟨htime, hrest⟩ := List.append_inj h (by rw [length_littleEndian, length_littleEndian])
  have hvalue := congrArg ofLittleEndian htime
  rw [ofLittleEndian_littleEndian, ofLittleEndian_littleEndian] at hvalue
  have hs := s.toNat_lt_size
  have ht := t.toNat_lt_size
  simp only [UInt64.size] at hs ht
  have hsame : s.toNat = t.toNat := by omega
  exact ⟨UInt64.toNat_inj.mp hsame, hrest⟩

structure Short (d : Datagram) : Prop where
  kind : Fits d.kind
  sender : Fits d.sender
  publicKey : Fits d.publicKey
  body : Fits d.body

theorem eq_of_signedOctets (hd : d.Short) (he : e.Short) (h : d.signedOctets = e.signedOctets) :
    d = { e with signature := d.signature } := by
  simp only [signedOctets, List.append_assoc] at h
  obtain ⟨hkind, h⟩ := measured_append_inj_of_fits hd.kind he.kind h
  obtain ⟨hsender, h⟩ := measured_append_inj_of_fits hd.sender he.sender h
  obtain ⟨hkey, h⟩ := measured_append_inj_of_fits hd.publicKey he.publicKey h
  obtain ⟨htime, h⟩ := timestamp_append_inj h
  rw [← List.append_nil (measured d.body), ← List.append_nil (measured e.body)] at h
  obtain ⟨hbody, -⟩ := measured_append_inj_of_fits hd.body he.body h
  cases d
  cases e
  cases hkind
  cases hsender
  cases hkey
  cases htime
  cases hbody
  rfl

/-- Short fields in one of two datagrams with the same sender are short in the other as well. -/
theorem short_of_signedOctets (he : e.Short) (hsender : d.sender = e.sender)
    (hkey : d.publicKey = e.publicKey) (h : d.signedOctets = e.signedOctets) : d.Short := by
  have htotal := congrArg List.length h
  simp only [signedOctets, measured, List.length_append, length_littleEndian, hsender, hkey]
    at htotal
  simp only [signedOctets, List.append_assoc] at h
  have hmod := length_mod_of_measured h
  obtain ⟨hkind, hsender', hkey', hbody⟩ := he
  rw [Fits] at hkind hbody
  -- A kind that is longer by a multiple of `2 ^ 32` would leave too few octets for the body.
  refine ⟨?_, hsender ▸ hsender', hkey ▸ hkey', ?_⟩
  · rw [Fits]
    omega
  · rw [Fits]
    omega

structure Sealing where
  seed : Seed
  kind : String
  body : String
  timestamp : Timestamp

def Sealing.datagram (scheme : SignatureScheme) (s : Sealing) : Datagram :=
  sealed scheme s.seed s.kind s.body s.timestamp

/-- If its key accepts the signature of a datagram, the holder of the key has sealed these octets. -/
def Unforged (scheme : SignatureScheme) (sealings : Set Sealing) (d : Datagram) : Prop :=
  ∀ key signature, Base64.decode? d.publicKey = some key →
    Base64.decode? d.signature = some signature → scheme.accepts key d.signedOctets signature →
      ∃ s ∈ sealings, scheme.publicKey s.seed = key ∧
        (s.datagram scheme).signedOctets = d.signedOctets

variable {scheme : SignatureScheme} {wire : Octets} {now : Timestamp}

/-- The holder of the key sealed what is accepted, at about the time at which it is. -/
theorem sealed_of_opened {sealings : Set Sealing} (h : opened scheme wire now = .ok d)
    (hunforged : Unforged scheme sealings d)
    (hshort : ∀ s ∈ sealings, (s.datagram scheme).Short) :
    ∃ s ∈ sealings, d = { s.datagram scheme with signature := d.signature } ∧
      scheme.keyText s.seed = d.publicKey ∧ d.sender = keyHash d.publicKey ∧
      now.toNat ≤ d.timestamp.toNat + 60000 ∧ d.timestamp.toNat ≤ now.toNat + 60000 := by
  obtain ⟨hdrift, hsender, hverify⟩ := verify_eq_ok (opened_eq_ok_iff.mp h).2
  obtain ⟨key, signature, hkey, -, hsignature, haccepts⟩ := accepts_of_verify hverify
  obtain ⟨s, hs, rfl, hmessage⟩ := hunforged key signature hkey hsignature haccepts
  have htext : scheme.keyText s.seed = d.publicKey := Base64.encode_of_decode? hkey
  have hholder : d.sender = (s.datagram scheme).sender := by
    rw [hsender, ← htext]
    rfl
  have hd : d.Short := short_of_signedOctets (hshort s hs) hholder htext.symm hmessage.symm
  have hsame := eq_of_signedOctets hd (hshort s hs) hmessage.symm
  exact ⟨s, hs, hsame, htext, hsender, Timestamp.toNat_distance_le hdrift⟩

/-- What is signed tells the signed fields. So a datagram that a receiver accepts, if its signature
is no forgery, was sealed by the named sender with every field as it is. -/
theorem signed_fields_authentic :
    (∀ d e : Datagram, d.Short → e.Short → d.signedOctets = e.signedOctets →
      d.kind = e.kind ∧ d.sender = e.sender ∧ d.publicKey = e.publicKey ∧
        d.timestamp = e.timestamp ∧ d.body = e.body) ∧
    ∀ (scheme : SignatureScheme) (sealings : Set Sealing) (wire : Octets) (now : Timestamp)
      (d : Datagram), opened scheme wire now = .ok d → Unforged scheme sealings d →
      (∀ s ∈ sealings, (s.datagram scheme).Short) →
        ∃ s ∈ sealings, d = { s.datagram scheme with signature := d.signature } ∧
          scheme.keyText s.seed = d.publicKey ∧ d.sender = keyHash d.publicKey ∧
          now.toNat ≤ d.timestamp.toNat + 60000 ∧ d.timestamp.toNat ≤ now.toNat + 60000 := by
  constructor
  · intro d e hd he h
    rw [eq_of_signedOctets hd he h]
    exact ⟨rfl, rfl, rfl, rfl, rfl⟩
  · intro scheme sealings wire now d h hunforged hshort
    exact sealed_of_opened h hunforged hshort

/-- Two sealings under one key, and the later one on the wire. -/
theorem signed_fields_authentic_of_ping :
    let seed : Seed := ⟨List.replicate 32 7, rfl⟩
    let sync : Sealing := ⟨seed, "PEER_SYNC", "\x7b\"nodes\":[]\x7d", 0⟩
    let ping : Sealing := ⟨seed, "PING", "gossip_discovery", 100000⟩
    let d := ping.datagram ed25519
    let e : Datagram := { d with signature := "" }
    d.Short ∧ e.Short ∧ d.signedOctets = e.signedOctets ∧ d.body = e.body ∧
      opened ed25519 d.encode 90000 = .ok d ∧ Unforged ed25519 {sync, ping} d ∧
      ∃ s ∈ ({sync, ping} : Set Sealing),
        d = { s.datagram ed25519 with signature := d.signature } := by
  intro seed sync ping d e
  have hd : d.Short := by
    refine ⟨?_, ?_, ?_, ?_⟩ <;> rw [Fits] <;> decide +kernel
  have he : e.Short := ⟨hd.kind, hd.sender, hd.publicKey, hd.body⟩
  have hfields := signed_fields_authentic.1 d e hd he rfl
  have hunforged : Unforged ed25519 {sync, ping} d := by
    intro key signature hkey _ _
    have hseed := (Base64.decode?_encode (ed25519.publicKey seed)).symm.trans hkey
    exact ⟨ping, .inr rfl, Option.some.inj hseed, rfl⟩
  have hshort : ∀ s ∈ ({sync, ping} : Set Sealing), (s.datagram ed25519).Short := by
    rintro s (rfl | rfl)
    · refine ⟨?_, hd.sender, hd.publicKey, ?_⟩ <;> rw [Fits] <;> decide +kernel
    · exact hd
  have hopened : opened ed25519 d.encode 90000 = .ok d :=
    opened_eq_ok_iff.mpr ⟨decode_encode d, verify_sealed (by decide) (by decide +kernel)⟩
  obtain ⟨s, hs, hsame, -⟩ :=
    signed_fields_authentic.2 ed25519 {sync, ping} d.encode 90000 d hopened hunforged hshort
  exact ⟨hd, he, rfl, hfields.2.2.2.2, hopened, hunforged, s, hs, hsame⟩

end Datagram

end PeerBook
