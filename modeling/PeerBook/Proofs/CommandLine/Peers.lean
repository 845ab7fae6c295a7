import Mathlib.Data.List.TakeWhile
import PeerBook.CommandLine.Command
import PeerBook.Proofs.Identity.Hashes

namespace PeerBook.CommandLine

variable {identity address text : String}

theorem takeWhile_sign {before after : List Char} (h : '=' ∉ before) :
    (before ++ '=' :: after).takeWhile (· != '=') = before := by
  have hbefore : ∀ c ∈ before, (c != '=') = true := by
    intro c hc
    simpa using fun heq : c = '=' => h (heq ▸ hc)
  rw [List.takeWhile_append_of_pos hbefore, List.takeWhile_cons_of_neg (by simp), List.append_nil]

theorem peer?_append {before after : List Char} (hsign : '=' ∉ before) (hbefore : before ≠ [])
    (hafter : after ≠ []) :
    peer? (String.ofList (before ++ '=' :: after)) =
      some (String.ofList before, String.ofList after) := by
  simp only [peer?, String.toList_ofList, takeWhile_sign hsign, List.drop_left]
  simp [hbefore, hafter]

theorem peer?_sign (h : peer? text = some (identity, address)) : '=' ∉ identity.toList := by
  rw [peer?] at h
  split at h
  · cases h
  · split at h
    · cases h
    · cases h
      rw [String.toList_ofList]
      intro hmem
      simpa using List.mem_takeWhile_imp hmem

/--
No argument names a peer by a hash that the program makes: of such a hash and an address, the last
sign of the hash goes to the address.
-/
theorem peer?_of_issued (h : Issued identity) (address : String) :
    peer? (identity ++ "=" ++ address) =
        some (String.ofList identity.toList.dropLast, "=" ++ address) ∧
      ∀ text other, peer? text ≠ some (identity, other) := by
  obtain ⟨stem, hshape, hstem, hsign⟩ := h.shape
  constructor
  · have hidentity : identity = String.ofList (stem ++ ['=']) := by
      rw [← hshape, String.ofList_toList]
    have htext : identity ++ "=" ++ address =
        String.ofList (stem ++ '=' :: '=' :: address.toList) := by
      rw [hidentity]
      apply String.toList_injective
      simp
    have hrest : "=" ++ address = String.ofList ('=' :: address.toList) := by
      apply String.toList_injective
      simp
    rw [htext, hrest, hshape, List.dropLast_concat]
    exact peer?_append hsign hstem (List.cons_ne_nil _ _)
  · intro text other hpeer
    refine peer?_sign hpeer ?_
    rw [hshape]
    exact List.mem_concat_self

theorem peer?_of_issued_node_key :
    keyHash "6kpsY+KcUgq+9VB7Ey7F+ZVHdq6+vnuSQh7qaRRG0iw=" =
        "6ikrqruUBjVuPgrxYL8HBb03ayvZhSnK4MTyDwy5oXk=" ∧
      peer? "6ikrqruUBjVuPgrxYL8HBb03ayvZhSnK4MTyDwy5oXk==10.0.0.2:9000" =
        some ("6ikrqruUBjVuPgrxYL8HBb03ayvZhSnK4MTyDwy5oXk", "=10.0.0.2:9000") := by
  have hkey : keyHash "6kpsY+KcUgq+9VB7Ey7F+ZVHdq6+vnuSQh7qaRRG0iw=" =
      "6ikrqruUBjVuPgrxYL8HBb03ayvZhSnK4MTyDwy5oXk=" := by decide +kernel
  have hissued : Issued "6ikrqruUBjVuPgrxYL8HBb03ayvZhSnK4MTyDwy5oXk=" := hkey ▸ .key _
  exact ⟨hkey, (peer?_of_issued hissued "10.0.0.2:9000").1⟩

/-- What such an argument is there for: the hash in front of the sign is the peer's identity. -/
def SplitsAfterHash : Prop :=
  ∀ identity, Issued identity → ∀ address, address ≠ "" →
    peer? (identity ++ "=" ++ address) = some (identity, address)

theorem not_splitsAfterHash : ¬SplitsAfterHash := by
  intro h
  have hkey : keyHash "6kpsY+KcUgq+9VB7Ey7F+ZVHdq6+vnuSQh7qaRRG0iw=" =
      "6ikrqruUBjVuPgrxYL8HBb03ayvZhSnK4MTyDwy5oXk=" := by decide +kernel
  have hissued := Issued.key "6kpsY+KcUgq+9VB7Ey7F+ZVHdq6+vnuSQh7qaRRG0iw="
  have hsplit := h _ hissued "10.0.0.2:9000" (by decide)
  rw [hkey] at hsplit
  exact absurd hsplit (by decide +kernel)

end PeerBook.CommandLine
