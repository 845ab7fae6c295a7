import PeerBook.Proofs.Time.Calendar

namespace PeerBook

namespace CalendarDate

variable {d : CalendarDate} {n year : Int}

theorem dayNumber_newYear (year : Int) :
    (⟨year, 1, 1⟩ : CalendarDate).dayNumber = daysBefore (year - 1) + 306 - epochOffset := by
  simp [dayNumber, marchYear, daysFromMarch, monthsFromMarch]

theorem year_lt_iff (h : d.IsValid) :
    d.year < year ↔ d.dayNumber < (⟨year, 1, 1⟩ : CalendarDate).dayNumber := by
  obtain ⟨hmonths, hfirst, hlast⟩ := daysFromMarch_spec h
  have hmonth := h.month_pos
  have hmonth' := h.month_le
  have hle := daysInMonth_two_le (d.marchYear + 1)
  rw [dayNumber_newYear, dayNumber]
  by_cases hspring : d.month ≤ 2
  · have hyear : d.marchYear = d.year - 1 := if_pos hspring
    have hmonths' : d.monthsFromMarch = d.month + 9 := if_pos hspring
    rw [hyear] at hlast hle ⊢
    simp only [daysBefore]
    omega
  · have hyear : d.marchYear = d.year := if_neg hspring
    have hmonths' : d.monthsFromMarch = d.month - 3 := if_neg hspring
    rw [hyear] at hlast hle ⊢
    simp only [daysBefore]
    omega

theorem year_ofDays_lt_iff (n year : Int) :
    (ofDays n).year < year ↔ n < (⟨year, 1, 1⟩ : CalendarDate).dayNumber := by
  obtain ⟨hvalid, hnumber⟩ := ofDays_spec n
  rw [year_lt_iff hvalid, hnumber]

end CalendarDate

namespace Timestamp

open CalendarDate

variable {t : Timestamp} {instant : Int}

def Tells (text : String) (instant : Int) : Prop :=
  ∃ (day : Int) (date : CalendarDate) (hour minute second rest : Nat),
    FallsOn day date ∧ hour < 24 ∧ minute < 60 ∧ second < 60 ∧ rest < 1000 ∧
      instant = ((((day * 24 + hour) * 60 + minute) * 60 + second) * 1000 + rest : Int) ∧
      text = date.text ++ " " ++ digits 2 hour ++ ":" ++ digits 2 minute ++ ":" ++
        digits 2 second ++ " UTC"

def firstShown : Int := -8334601228800000

def endShown : Int := 8210266876800000

theorem isShownYear_iff (instant : Int) : isShownYear (ofDays (instant / millisPerDay)).year ↔
    firstShown ≤ instant ∧ instant < endShown := by
  have hlow := year_ofDays_lt_iff (instant / millisPerDay) (-262143)
  have hhigh := year_ofDays_lt_iff (instant / millisPerDay) 262143
  rw [show (⟨-262143, 1, 1⟩ : CalendarDate).dayNumber = -96465292 by decide] at hlow
  rw [show (⟨262143, 1, 1⟩ : CalendarDate).dayNumber = 95026237 by decide] at hhigh
  rw [isShownYear, Bool.and_eq_true, decide_eq_true_iff, decide_eq_true_iff, firstShown, endShown]
  rw [millisPerDay] at hlow hhigh ⊢
  omega

theorem dateTime?_eq_none_iff :
    dateTime? instant = none ↔ instant < firstShown ∨ endShown ≤ instant := by
  have hshown := isShownYear_iff instant
  have hnone : dateTime? instant = none ↔
      ¬isShownYear (ofDays (instant / millisPerDay)).year := by
    rw [dateTime?]
    split <;> simp_all
  rw [hnone, hshown]
  omega

theorem tells_of_dateTime? {text : String} (h : dateTime? instant = some text) :
    Tells text instant := by
  have hseconds : (instant % millisPerDay / 1000).toNat < 86400 ∧
      instant = (instant / millisPerDay * 86400 + (instant % millisPerDay / 1000).toNat) * 1000 +
        (instant % 1000).toNat := by
    rw [millisPerDay]
    omega
  rw [dateTime?] at h
  split at h
  · refine ⟨instant / millisPerDay, _, _, _, _, (instant % 1000).toNat, fallsOn_iff.mpr rfl,
      ?_, ?_, ?_, ?_, ?_, (Option.some.inj h).symm⟩
    all_goals omega
  · cases h

theorem signed_eq (t : Timestamp) :
    t.signed = if t.toNat < 9223372036854775808 then (t.toNat : Int)
      else t.toNat - 18446744073709551616 := by
  have hsize : t.toNat < 18446744073709551616 := t.toNat_lt_size
  have hsigned : t.signed = Int.bmod t.toNat UInt64.size := rfl
  rw [hsigned]
  simp only [Int.bmod, UInt64.size]
  omega

theorem display_of_signed (t : Timestamp) :
    firstShown ≤ t.signed ∧ t.signed < endShown ∧ Tells t.display t.signed ∨
      (t.signed < firstShown ∨ endShown ≤ t.signed) ∧ t.display = toString t.toNat := by
  rw [display]
  cases hshown : dateTime? t.signed with
  | none => exact .inr ⟨dateTime?_eq_none_iff.mp hshown, rfl⟩
  | some text =>
      have hrange : ¬(t.signed < firstShown ∨ endShown ≤ t.signed) := fun h => by
        rw [dateTime?_eq_none_iff.mpr h] at hshown
        cases hshown
      exact .inl ⟨by omega, by omega, tells_of_dateTime? hshown⟩

/-- The date and the time are shown of the instants that a timestamp stands for, as far as there are
dates for them. For the highest timestamps those of the instant are shown that lies a whole turn of
the word before, and for all others the bare count. -/
theorem display_eq (t : Timestamp) :
    t.toNat < 8210266876800000 ∧ Tells t.display t.toNat ∨
    8210266876800000 ≤ t.toNat ∧ t.toNat < 18438409472480751616 ∧
      t.display = toString t.toNat ∨
    18438409472480751616 ≤ t.toNat ∧ Tells t.display (t.toNat - 18446744073709551616) := by
  have hsize : t.toNat < 18446744073709551616 := t.toNat_lt_size
  have hsigned := signed_eq t
  have hdisplay := display_of_signed t
  rw [firstShown, endShown] at hdisplay
  rcases hdisplay with ⟨hfirst, hend, htells⟩ | ⟨hrange, hcount⟩
  · by_cases hlow : t.toNat < 9223372036854775808
    · rw [if_pos hlow] at hsigned
      exact .inl ⟨by omega, hsigned ▸ htells⟩
    · rw [if_neg hlow] at hsigned
      exact .inr (.inr ⟨by omega, hsigned ▸ htells⟩)
  · refine .inr (.inl ⟨?_, ?_, hcount⟩)
    all_goals
      split at hsigned <;> omega

/-- Whether what is shown for a timestamp is either the instant that it stands for or the bare
count. -/
def ShowsTruly : Prop :=
  ∀ t : Timestamp, Tells t.display t.toNat ∨ t.display = toString t.toNat

/-- The last timestamp is shown as the second before the Unix epoch. -/
theorem not_showsTruly : ¬ShowsTruly := by
  intro h
  have hlast : display 18446744073709551615 = "1969-12-31 23:59:59 UTC" := by decide +kernel
  have hcount : (18446744073709551615 : Timestamp).toNat = 18446744073709551615 := by decide
  rcases h 18446744073709551615 with htells | hshown
  · rw [hlast, hcount] at htells
    obtain ⟨day, date, hour, minute, second, rest, hdate, hhour, hminute, hsecond, hrest, hinstant,
      htext⟩ := htells
    obtain ⟨rfl, rfl, rfl, rfl⟩ : day = 213503982334 ∧ hour = 14 ∧ minute = 25 ∧ second = 51 := by
      omega
    rw [fallsOn_iff.mp hdate] at htext
    exact absurd htext (by decide +kernel)
  · rw [hlast, hcount] at hshown
    exact absurd hshown (by decide +kernel)

end Timestamp

end PeerBook
