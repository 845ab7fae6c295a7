import PeerBook.Contacts

namespace PeerBook

theorem Phone.digits?_of_digits? {spelling digits : String} (h : digits? spelling = some digits) :
    digits? digits = some digits := by
  rw [digits?] at h
  split at h
  · cases h
  · rename_i hsome
    cases h
    rw [digits?]
    simp only [String.toList_ofList, List.filter_filter, Bool.and_self, if_neg hsome]

theorem Phone.hash_of_digits? (salt : String) {spelling digits : String}
    (h : digits? spelling = some digits) : hash salt digits = hash salt spelling := by
  rw [hash, hash, h, digits?_of_digits? h]

namespace Contacts

/-- Whether an entry of a phone book has these digits, and their hash is the identity. -/
def Lists (salt : String) (phoneBook : List PhoneBookEntry) (digits identity : String) : Prop :=
  ∃ entry ∈ phoneBook, Phone.digits? entry.phone = some digits ∧
    Phone.hash salt entry.phone = identity

theorem lists_of_mem_distinct (salt : String) {phoneBook : List PhoneBookEntry}
    {seen : List String} {name digits : String} (h : (name, digits) ∈ distinct seen phoneBook) :
    Lists salt phoneBook digits (Phone.hash salt digits) := by
  induction phoneBook generalizing seen with
  | nil => cases h
  | cons entry phoneBook ih =>
      have hrest (seen : List String) (h : (name, digits) ∈ distinct seen phoneBook) :
          Lists salt (entry :: phoneBook) digits (Phone.hash salt digits) := by
        obtain ⟨other, hother, hlists⟩ := ih h
        exact ⟨other, List.mem_cons_of_mem entry hother, hlists⟩
      rw [distinct] at h
      split at h
      · exact hrest seen h
      · rename_i found hfound
        split at h
        · exact hrest seen h
        · rcases List.mem_cons.mp h with heq | h
          · cases heq
            exact ⟨entry, List.mem_cons_self, hfound, (Phone.hash_of_digits? salt hfound).symm⟩
          · exact hrest _ h

end Contacts

end PeerBook
