import PeerBook.Identity
import PeerBook.Proofs.Octets.Base64

namespace PeerBook

namespace Octets

theorem length_littleEndian (width n : Nat) : (littleEndian width n).length = width := by
  induction width generalizing n with
  | zero => rfl
  | succ width ih => rw [littleEndian, List.length_cons, ih]

theorem length_bigEndian (width n : Nat) : (bigEndian width n).length = width := by
  rw [bigEndian, List.length_reverse, length_littleEndian]

end Octets

theorem Digest.Variant.length_digest {W : Type} (v : Variant W) [Add W] [XorOp W] [AndOp W]
    [Complement W] (message : Octets) : (v.digest message).length = 8 * v.wordOctets := by
  simp only [digest, List.length_flatMap, Octets.length_bigEndian, List.map_cons, List.map_nil,
    List.sum_cons, List.sum_nil]
  omega

theorem Digest.length_sha256 (message : Octets) : (sha256 message).length = 32 :=
  variant32.length_digest message

inductive Issued : String → Prop where
  | key (publicKey : String) : Issued (keyHash publicKey)
  | phone (salt spelling : String) : Issued (Phone.hash salt spelling)

namespace Issued

variable {identity : String}

theorem shape (h : Issued identity) :
    ∃ stem, identity.toList = stem ++ ['='] ∧ stem ≠ [] ∧ '=' ∉ stem := by
  have hencode (message : Octets) :
      ∃ stem, (Octets.Base64.encode (Digest.sha256 message)).toList = stem ++ ['='] ∧
        stem ≠ [] ∧ '=' ∉ stem := by
    rw [Octets.Base64.encode, String.toList_ofList]
    exact Octets.Base64.encodeChars_of_length_mod (by rw [Digest.length_sha256])
  cases h with
  | key publicKey => exact hencode _
  | phone salt spelling => exact hencode _

theorem ne_empty (h : Issued identity) : identity ≠ "" := by
  obtain ⟨stem, hshape, -⟩ := h.shape
  rintro rfl
  simp at hshape

end Issued

end PeerBook
