import PeerBook.Proofs.Datagram.Opening

namespace PeerBook

namespace Octets.Base64

/-- Digits of the alphabet with one sign of padding, where the last digit has no bits left over. -/
def OnePad (text : List Char) (length : Nat) : Prop :=
  ∃ digits last value, text = digits ++ [last, '='] ∧ digits.length + 2 = length ∧
    (∀ c ∈ digits, c ∈ alphabet) ∧ value? last = some value ∧ value % 4 = 0

theorem digit_mem_alphabet {n : Nat} (h : n < 64) : digit n ∈ alphabet := by
  obtain ⟨hlt, hget, -⟩ := List.idxOf?_eq_some_iff.mp (value?_digit h).1
  exact hget ▸ List.getElem_mem hlt

theorem onePad_encodeChars {bytes : Octets} (h : bytes.length % 3 = 2) :
    OnePad (encodeChars bytes) ((bytes.length + 1) / 3 * 4) := by
  fun_induction encodeChars bytes with
  | case1 => cases h
  | case2 a n => cases h
  | case3 a b n =>
      have ha := a.toNat_lt
      have hb := b.toNat_lt
      obtain ⟨hlast, -⟩ := value?_digit (n := n % 16 * 4) (by omega)
      have hfirst : digit (n / 1024) ∈ alphabet := digit_mem_alphabet (by omega)
      have hsecond : digit (n / 16 % 64) ∈ alphabet := digit_mem_alphabet (by omega)
      exact ⟨[digit (n / 1024), digit (n / 16 % 64)], _, _, rfl, by simp,
        by simpa using ⟨hfirst, hsecond⟩, hlast, by omega⟩
  | case4 a b c rest n ih =>
      have ha := a.toNat_lt
      have hb := b.toNat_lt
      have hc := c.toNat_lt
      obtain ⟨digits, last, value, htext, hlength, hdigits, hlast, hbits⟩ :=
        ih (by simp only [List.length_cons] at h; omega)
      let group := [digit (n / 262144), digit (n / 4096 % 64), digit (n / 64 % 64), digit (n % 64)]
      have hgroup : ∀ c ∈ group, c ∈ alphabet := by
        have hdigit (m : Nat) (hm : m < 64) : digit m ∈ alphabet := digit_mem_alphabet hm
        simpa [group] using ⟨hdigit _ (by omega), hdigit _ (by omega), hdigit _ (by omega),
          hdigit _ (by omega)⟩
      refine ⟨group ++ digits, last, value, by rw [htext]; rfl, ?_, fun c hc => ?_, hlast, hbits⟩
      · simp only [group, List.length_append, List.length_cons, List.length_nil] at hlength ⊢
        omega
      · exact (List.mem_append.mp hc).elim (hgroup c) (hdigits c)

end Octets.Base64

namespace Datagram

open Octets

variable {scheme : SignatureScheme} {d e : Datagram} {now later : Timestamp}

structure Presents (scheme : SignatureScheme) (d : Datagram) (key : Octets) : Prop where
  length : key.length = 32
  decoded : Base64.decode? d.publicKey = some key
  spelled : d.publicKey = Base64.encode key
  only (text : String) : Base64.decode? text = some key → text = d.publicKey
  padded : Base64.OnePad d.publicKey.toList 44
  sender : d.sender = keyHash (Base64.encode key)
  /-- Whoever has this key writes it in the same way and goes by the same identity. -/
  holder (seed : Seed) : scheme.publicKey seed = key →
    scheme.keyText seed = d.publicKey ∧ scheme.identity seed = d.sender

theorem exists_presents (h : d.verify scheme now = .ok ()) : ∃ key, d.Presents scheme key := by
  obtain ⟨-, hsender, hverify⟩ := verify_eq_ok h
  obtain ⟨key, -, hkey, hlength, -⟩ := accepts_of_verify hverify
  have htext : Base64.encode key = d.publicKey := Base64.encode_of_decode? hkey
  refine ⟨key, hlength, hkey, htext.symm, fun text hspelled => ?_, ?_, htext ▸ hsender,
    fun seed hseed => ?_⟩
  · exact (Base64.encode_of_decode? hspelled).symm.trans htext
  · rw [← htext, Base64.encode, String.toList_ofList]
    have hpad := Base64.onePad_encodeChars (show key.length % 3 = 2 by rw [hlength])
    rwa [hlength] at hpad
  · have hown : scheme.keyText seed = d.publicKey := by rw [SignatureScheme.keyText, hseed, htext]
    exact ⟨hown, hsender ▸ congrArg keyHash hown⟩

theorem Presents.publicKey_eq {key : Octets} (hd : d.Presents scheme key)
    (he : e.Presents scheme key) : d.publicKey = e.publicKey :=
  hd.spelled.trans he.spelled.symm

theorem Presents.sender_eq {key : Octets} (hd : d.Presents scheme key)
    (he : e.Presents scheme key) : d.sender = e.sender :=
  hd.sender.trans he.sender.symm

/-- Two accepted datagrams whose key texts spell the same octets have the same key text and the same
sender. The text is the one that the holder of the key writes, and no other text spells the key. -/
theorem one_identity_of_key (hd : d.verify scheme now = .ok ())
    (he : e.verify scheme later = .ok ()) :
    (∃ key, d.Presents scheme key) ∧ (∃ key, e.Presents scheme key) ∧
      (Base64.decode? d.publicKey = Base64.decode? e.publicKey →
        d.publicKey = e.publicKey ∧ d.sender = e.sender) := by
  obtain ⟨key, hkey⟩ := exists_presents hd
  obtain ⟨other, hother⟩ := exists_presents he
  refine ⟨⟨key, hkey⟩, ⟨other, hother⟩, fun hsame => ?_⟩
  have hoctets : key = other :=
    Option.some.inj (hkey.decoded.symm.trans (hsame.trans hother.decoded))
  subst hoctets
  exact ⟨hkey.publicKey_eq hother, hkey.sender_eq hother⟩

/-- A sign of life and a packet from one node, each accepted at a time of its own. -/
theorem one_identity_of_key_reused :
    let seed : Seed := ⟨List.replicate 32 7, rfl⟩
    let d := sealed ed25519 seed "PING" "gossip_discovery" 0
    let e := sealed ed25519 seed "PEER_SYNC" "\x7b\"nodes\":[]\x7d" 90000
    d.verify ed25519 60000 = .ok () ∧ e.verify ed25519 30000 = .ok () ∧
      Base64.decode? d.publicKey = Base64.decode? e.publicKey ∧ d.publicKey = e.publicKey ∧
      d.sender = e.sender := by
  intro seed d e
  have hd : d.verify ed25519 60000 = .ok () := verify_sealed (by decide) (by decide +kernel)
  have he : e.verify ed25519 30000 = .ok () := verify_sealed (by decide) (by decide +kernel)
  have hoctets : Base64.decode? d.publicKey = Base64.decode? e.publicKey := rfl
  obtain ⟨-, -, hsame⟩ := one_identity_of_key hd he
  exact ⟨hd, he, hoctets, hsame hoctets⟩

end Datagram

end PeerBook
