import Mathlib.Data.List.DropRight
import PeerBook.Contacts
import PeerBook.Proofs.Store.CacheLike

namespace PeerBook

namespace Phone

variable {p q digits : String}

/-- Whether two spellings end in the same ten digits, or have the same ones if they are fewer. -/
def SameEnding (p q : String) : Prop :=
  (p.toList.filter Char.isDigit).rtake 10 = (q.toList.filter Char.isDigit).rtake 10

theorem matchKey?_eq (p : String) : matchKey? p =
    if (p.toList.filter Char.isDigit).rtake 10 = [] then none
    else some (String.ofList ((p.toList.filter Char.isDigit).rtake 10)) := by
  have hempty : (p.toList.filter Char.isDigit).rtake 10 = [] ↔
      p.toList.filter Char.isDigit = [] := by
    rw [List.rtake, List.drop_eq_nil_iff, ← List.length_eq_zero_iff]
    omega
  simp only [hempty]
  rw [matchKey?, digits?]
  by_cases h : p.toList.filter Char.isDigit = []
  · simp [h]
  · simp [h, List.rtake, matchDigits]

theorem matchKey?_of_sameEnding (h : SameEnding p q) : matchKey? p = matchKey? q := by
  rw [matchKey?_eq, matchKey?_eq, h]

end Phone

namespace Contacts

variable {σ : Type} [CacheLike σ] {s : σ} {C : Cache} {r : Record} {digits : String}
  {spellings : List String}

/-- A stored record is matched by any spelling that ends like its number, if the store is not over
its capacity. -/
theorem mem_matching (hC : CacheLike.shows s C) (hfits : C.entries.length ≤ C.capacity)
    (hr : r ∈ C.entries) (hhint : r.contactHint = some digits)
    (hdigits : Phone.digits? digits = some digits)
    (hspelled : ∃ p ∈ spellings, Phone.SameEnding p digits) :
    ∃ matched, matching s spellings = .ok matched ∧ r ∈ matched := by
  obtain ⟨p, hp, hending⟩ := hspelled
  obtain ⟨key, hkey⟩ : ∃ key, Phone.matchKey? digits = some key := by
    rw [Phone.matchKey?, hdigits]
    exact ⟨_, rfl⟩
  have hmem : key ∈ spellings.filterMap Phone.matchKey? :=
    List.mem_filterMap.mpr ⟨p, hp, (Phone.matchKey?_of_sameEnding hending).trans hkey⟩
  have hmatches : matchesKey (spellings.filterMap Phone.matchKey?) r := by
    rw [matchesKey, hhint, Option.bind_some, hkey, Option.map_some, Option.getD_some,
      List.contains_iff_mem]
    exact hmem
  have hsome : (spellings.filterMap Phone.matchKey?).isEmpty = false :=
    List.isEmpty_eq_false_iff.mpr (List.ne_nil_of_mem hmem)
  refine ⟨C.entries.filter (matchesKey (spellings.filterMap Phone.matchKey?)), ?_,
    List.mem_filter.mpr ⟨hr, hmatches⟩⟩
  rw [matching, hsome, CacheLike.all_eq hC, List.take_of_length_le hfits]
  rfl

end Contacts

end PeerBook
