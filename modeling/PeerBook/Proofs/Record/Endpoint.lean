import Mathlib.Data.List.DropRight
import PeerBook.Record

namespace PeerBook

namespace Text

variable {cs : List Char} {c : Char}

theorem mem_dropWhile_of_not_blank (hc : c ∈ cs) (hblank : ¬isBlankChar c) :
    c ∈ cs.dropWhile isBlankChar := by
  rw [← cs.takeWhile_append_dropWhile (p := isBlankChar), List.mem_append] at hc
  exact hc.resolve_left fun h => hblank (List.mem_takeWhile_imp h)

theorem mem_trimChars_of_not_blank (hc : c ∈ cs) (hblank : ¬isBlankChar c) :
    c ∈ trimChars cs := by
  rw [trimChars, List.mem_reverse]
  refine mem_dropWhile_of_not_blank ?_ hblank
  rw [List.mem_reverse]
  exact mem_dropWhile_of_not_blank hc hblank

/-- The two ends that trimming cuts off do not touch each other. -/
theorem dropWhile_trimChars (cs : List Char) :
    (trimChars cs).dropWhile isBlankChar = trimChars cs := by
  refine List.dropWhile_eq_self_iff.mpr fun hlength => ?_
  have hleft : trimChars cs <+: cs.dropWhile isBlankChar := List.rdropWhile_prefix _ _
  rw [hleft.getElem]
  exact List.dropWhile_get_zero_not _ _ _

theorem trimChars_trimChars (cs : List Char) : trimChars (trimChars cs) = trimChars cs := by
  rw [trimChars, dropWhile_trimChars]
  exact List.rdropWhile_idempotent _ _

theorem trim_trim (text : String) : trim (trim text) = trim text := by
  rw [trim, trim, String.toList_ofList, trimChars_trimChars]

theorem trim_ne_empty_iff {text : String} :
    trim text ≠ "" ↔ ∃ c ∈ text.toList, ¬isBlankChar c := by
  have hempty : trim text = "" ↔ trimChars text.toList = [] := String.ofList_eq_empty_iff
  rw [Ne, hempty]
  constructor
  · intro hne
    by_contra! hblank
    have hnone : text.toList.dropWhile isBlankChar = [] := List.dropWhile_eq_nil_iff.mpr hblank
    exact hne (by rw [trimChars, hnone]; rfl)
  · rintro ⟨c, hc, hblank⟩
    exact List.ne_nil_of_mem (mem_trimChars_of_not_blank hc hblank)

end Text

/-- A text can be sent to unless it is blank or stands for an unknown address. -/
theorem isRoutable_iff {address : String} : isRoutable address ↔
    (∃ c ∈ address.toList, ¬Text.isBlankChar c) ∧ Text.trim address ≠ unknownAddress := by
  simp only [isRoutable, Bool.and_eq_true, bne_iff_ne, Text.trim_ne_empty_iff]

theorem isRoutable_of_colon {address : String} (h : ':' ∈ address.toList) : isRoutable address := by
  have hblank : ¬Text.isBlankChar ':' := by decide
  refine isRoutable_iff.mpr ⟨⟨':', h, hblank⟩, fun hunknown => ?_⟩
  have hkept := Text.mem_trimChars_of_not_blank h hblank
  have hchars : Text.trimChars address.toList = unknownAddress.toList := by
    rw [← hunknown, Text.trim, String.toList_ofList]
  rw [hchars] at hkept
  exact absurd hkept (by decide)

namespace Record

theorem isRoutable_of_endpoint? {r : Record} {address : String} (h : r.endpoint? = some address) :
    isRoutable address := by
  rw [endpoint?] at h
  split at h
  · cases h
  · rename_i hknown
    have hroutable : isRoutable r.address := by simpa [hasKnownAddress] using hknown
    dsimp only at h
    split at h
    · obtain rfl := Option.some.inj h
      rwa [isRoutable, Text.trim_trim]
    · obtain rfl := Option.some.inj h
      refine isRoutable_of_colon ?_
      rw [String.toList_ofList]
      exact List.mem_append_right _ List.mem_cons_self

end Record

end PeerBook
