import PeerBook.Record.Merge

namespace PeerBook

namespace Record

variable {stored incoming : Record}

def absorb (stored incoming : Record) : Record :=
  (resolveMerge (some stored) incoming).record?.getD stored

theorem contradicts_iff (h : stored.publicKey ≠ "") :
    stored.contradicts incoming ↔
      incoming.publicKey ≠ "" ∧ incoming.publicKey ≠ stored.publicKey := by
  have hcomm : stored.publicKey = incoming.publicKey ↔ incoming.publicKey = stored.publicKey :=
    eq_comm
  simp [contradicts, h, hcomm]

theorem absorb_of_contradicts (h : stored.contradicts incoming) :
    stored.absorb incoming = stored := by
  simp [absorb, resolveMerge, h, Resolution.record?]

theorem absorb_of_le (h : incoming.lastSeen ≤ stored.lastSeen) :
    stored.absorb incoming = stored := by
  by_cases hkey : stored.contradicts incoming
  · exact absorb_of_contradicts hkey
  · simp [absorb, resolveMerge, hkey, h, Resolution.record?]

theorem absorb_of_lt (hkey : ¬stored.contradicts incoming)
    (h : stored.lastSeen < incoming.lastSeen) :
    stored.absorb incoming = stored.updated incoming := by
  have hnot : ¬incoming.lastSeen ≤ stored.lastSeen := UInt64.not_le.mpr h
  simp [absorb, resolveMerge, hkey, hnot, Resolution.record?]

/-- A merge of `incoming` into `stored` is turned away. -/
def Outranks (stored incoming : Record) : Prop :=
  stored.contradicts incoming ∨ incoming.lastSeen ≤ stored.lastSeen

theorem absorb_cases (stored incoming : Record) :
    stored.Outranks incoming ∧ stored.absorb incoming = stored ∨
      ¬stored.contradicts incoming ∧ stored.lastSeen < incoming.lastSeen ∧
        stored.absorb incoming = stored.updated incoming := by
  by_cases hkey : stored.contradicts incoming
  · exact .inl ⟨.inl hkey, absorb_of_contradicts hkey⟩
  · by_cases hle : incoming.lastSeen ≤ stored.lastSeen
    · exact .inl ⟨.inr hle, absorb_of_le hle⟩
    · have hlt := UInt64.not_le.mp hle
      exact .inr ⟨hkey, hlt, absorb_of_lt hkey hlt⟩

@[simp] theorem identity_absorb : (stored.absorb incoming).identity = stored.identity := by
  rcases absorb_cases stored incoming with ⟨-, h⟩ | ⟨-, -, h⟩
  · rw [h]
  · rw [h]
    rfl

theorem publicKey_absorb (h : stored.publicKey ≠ "") :
    (stored.absorb incoming).publicKey = stored.publicKey := by
  rcases absorb_cases stored incoming with ⟨-, habsorb⟩ | ⟨-, -, habsorb⟩
  · rw [habsorb]
  · rw [habsorb, updated, if_neg h]

theorem publicKey_ne_of_contradicts (h : stored.contradicts incoming) : stored.publicKey ≠ "" := by
  rintro hempty
  simp [contradicts, hempty] at h

theorem outcome_ne_applied_iff :
    (resolveMerge (some stored) incoming).outcome ≠ .applied ↔ stored.Outranks incoming := by
  by_cases hkey : stored.contradicts incoming
  · simp [resolveMerge, Outranks, hkey, Resolution.outcome]
  · by_cases h : incoming.lastSeen ≤ stored.lastSeen <;>
      simp [resolveMerge, Outranks, hkey, h, Resolution.outcome]

/-- Whatever is merged into a record that stands against `incoming`, the result still does: its key
has not gone, and its time has not gone back. -/
theorem Outranks.absorb (h : stored.Outranks incoming) (update : Record) :
    (stored.absorb update).Outranks incoming := by
  rcases absorb_cases stored update with ⟨-, habsorb⟩ | ⟨-, hlater, habsorb⟩
  · rwa [habsorb]
  · rcases h with hother | hseen
    · have hkeyed := publicKey_ne_of_contradicts hother
      have hsame : (stored.absorb update).publicKey = stored.publicKey := publicKey_absorb hkeyed
      left
      rwa [contradicts_iff (hsame ▸ hkeyed), hsame, ← contradicts_iff hkeyed]
    · rw [habsorb]
      exact .inr (UInt64.le_trans hseen (UInt64.le_of_lt hlater))

def mergedInto (before : Option Record) (r : Record) : Record :=
  before.elim r (·.absorb r)

theorem mergedInto_outranks (before : Option Record) (r : Record) :
    (mergedInto before r).Outranks r := by
  cases before with
  | none => exact .inr (UInt64.le_refl _)
  | some stored =>
      change (stored.absorb r).Outranks r
      rcases absorb_cases stored r with ⟨houtranks, h⟩ | ⟨-, -, h⟩
      · rwa [h]
      · rw [h]
        exact .inr (UInt64.le_refl _)

end Record

theorem identity_of_resolveMerge {stored : Option Record} {incoming merged : Record}
    (hstored : ∀ s ∈ stored, s.identity = incoming.identity)
    (h : (resolveMerge stored incoming).record? = some merged) :
    merged.identity = incoming.identity := by
  cases stored with
  | none =>
      cases h
      rfl
  | some stored =>
      have habsorb : stored.absorb incoming = merged := by rw [Record.absorb, h, Option.getD_some]
      rw [← habsorb, Record.identity_absorb, hstored stored rfl]

/-- A merge is turned away for its key exactly if the stored record contradicts it. -/
theorem outcome_eq_keyMismatch_iff {stored : Record} {incoming : Record} :
    (resolveMerge (some stored) incoming).outcome = .rejected .keyMismatch ↔
      stored.contradicts incoming := by
  by_cases hkey : stored.contradicts incoming
  · simp [resolveMerge, hkey, Resolution.outcome]
  · by_cases h : incoming.lastSeen ≤ stored.lastSeen <;>
      simp [resolveMerge, hkey, h, Resolution.outcome]

end PeerBook
