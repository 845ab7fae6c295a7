import Mathlib.Tactic.IntervalCases
import PeerBook.Time.Calendar

namespace PeerBook.CalendarDate

variable {d e : CalendarDate} {n : Int}

def IsLeapYear (year : Int) : Prop :=
  4 ∣ year ∧ (100 ∣ year → 400 ∣ year)

instance : DecidablePred IsLeapYear :=
  fun year => inferInstanceAs (Decidable (4 ∣ year ∧ (100 ∣ year → 400 ∣ year)))

def daysInMonth (year : Int) (month : Nat) : Nat :=
  if month = 2 then if IsLeapYear year then 29 else 28
  else if month = 4 ∨ month = 6 ∨ month = 9 ∨ month = 11 then 30
  else 31

structure IsValid (d : CalendarDate) : Prop where
  month_pos : 1 ≤ d.month
  month_le : d.month ≤ 12
  day_pos : 1 ≤ d.day
  day_le : d.day ≤ daysInMonth d.year d.month

def next (d : CalendarDate) : CalendarDate :=
  if d.day < daysInMonth d.year d.month then { d with day := d.day + 1 }
  else if d.month < 12 then ⟨d.year, d.month + 1, 1⟩
  else ⟨d.year + 1, 1, 1⟩

/-- Whether a day has a date, when days are counted from the Unix epoch, before it too. -/
inductive FallsOn : (day : Int) → CalendarDate → Prop
  | epoch : FallsOn 0 ⟨1970, 1, 1⟩
  | next {n : Int} {d : CalendarDate} (h : FallsOn n d) : FallsOn (n + 1) d.next
  | previous {n : Int} {d : CalendarDate} (hd : d.IsValid) (h : FallsOn (n + 1) d.next) :
      FallsOn n d

def marchYear (d : CalendarDate) : Int :=
  if d.month ≤ 2 then d.year - 1 else d.year

def monthsFromMarch (d : CalendarDate) : Int :=
  if d.month ≤ 2 then d.month + 9 else d.month - 3

def daysFromMarch (d : CalendarDate) : Int :=
  (153 * d.monthsFromMarch + 2) / 5 + d.day - 1

def daysBefore (marchYear : Int) : Int :=
  365 * marchYear + marchYear / 4 - marchYear / 100 + marchYear / 400

def dayNumber (d : CalendarDate) : Int :=
  daysBefore d.marchYear + d.daysFromMarch - epochOffset

theorem daysInMonth_pos (year : Int) (month : Nat) : 1 ≤ daysInMonth year month := by
  rw [daysInMonth]
  repeat' split
  all_goals omega

theorem IsValid.next (h : d.IsValid) : d.next.IsValid := by
  rw [CalendarDate.next]
  split
  · rename_i hday
    exact ⟨h.month_pos, h.month_le, Nat.succ_pos _, hday⟩
  · split
    · rename_i hmonth
      exact ⟨Nat.succ_pos _, hmonth, Nat.le_refl 1, daysInMonth_pos _ _⟩
    · exact ⟨Nat.le_refl 1, Nat.le_add_left 1 11, Nat.le_refl 1, daysInMonth_pos _ _⟩

/-- A year that begins in March ends with the February of the next calendar year. -/
theorem daysBefore_succ (year : Int) :
    daysBefore (year + 1) = daysBefore year + 337 + daysInMonth (year + 1) 2 := by
  by_cases hleap : IsLeapYear (year + 1)
  · rw [daysInMonth, if_pos rfl, if_pos hleap]
    simp only [daysBefore, IsLeapYear] at hleap ⊢
    omega
  · rw [daysInMonth, if_pos rfl, if_neg hleap]
    simp only [daysBefore, IsLeapYear] at hleap ⊢
    omega

theorem dayNumber_next_month {year : Int} {month : Nat} (hpos : 1 ≤ month) (hle : month ≤ 12) :
    (if month < 12 then (⟨year, month + 1, 1⟩ : CalendarDate) else ⟨year + 1, 1, 1⟩).dayNumber =
      (⟨year, month, daysInMonth year month⟩ : CalendarDate).dayNumber + 1 := by
  have hyear := daysBefore_succ (year - 1)
  rw [Int.sub_add_cancel] at hyear
  by_cases hfebruary : month = 2
  · subst hfebruary
    simp [dayNumber, marchYear, daysFromMarch, monthsFromMarch]
    omega
  · interval_cases month <;>
      simp [dayNumber, marchYear, daysFromMarch, monthsFromMarch, daysInMonth] at hfebruary ⊢ <;>
      omega

theorem dayNumber_next (h : d.IsValid) : d.next.dayNumber = d.dayNumber + 1 := by
  by_cases hday : d.day < daysInMonth d.year d.month
  · rw [CalendarDate.next, if_pos hday]
    simp only [dayNumber, marchYear, daysFromMarch, monthsFromMarch]
    omega
  · have hlast : d = ⟨d.year, d.month, daysInMonth d.year d.month⟩ := by
      rw [← Nat.le_antisymm h.day_le (Nat.not_lt.mp hday)]
    rw [CalendarDate.next, if_neg hday, dayNumber_next_month h.month_pos h.month_le, ← hlast]

/-- A day of the cycle of four centuries, by its century, its four years, and its year. -/
theorem exists_parts {day : Int} (hpos : 0 ≤ day) (hlt : day < cycleDays) :
    ∃ century leap year rest : Int,
      day = 36524 * century + 1461 * leap + 365 * year + rest ∧
      (0 ≤ century ∧ century ≤ 3) ∧ (0 ≤ leap ∧ leap ≤ 24) ∧ (0 ≤ year ∧ year ≤ 3) ∧
      (0 ≤ rest ∧ rest ≤ 365) ∧ (rest = 365 → year = 3 ∧ (leap = 24 → century = 3)) := by
  rw [cycleDays] at hlt
  refine ⟨min (day / 36524) 3, (day - 36524 * min (day / 36524) 3) / 1461,
    min ((day - 36524 * min (day / 36524) 3) % 1461 / 365) 3,
    (day - 36524 * min (day / 36524) 3) % 1461 -
      365 * min ((day - 36524 * min (day / 36524) 3) % 1461 / 365) 3, ?_⟩
  omega

theorem yearOfCycle_parts {century leap year rest : Int} (hcentury : 0 ≤ century ∧ century ≤ 3)
    (hleap : 0 ≤ leap ∧ leap ≤ 24) (hyear : 0 ≤ year ∧ year ≤ 3) (hrest : 0 ≤ rest ∧ rest ≤ 365)
    (hlast : rest = 365 → year = 3 ∧ (leap = 24 → century = 3)) :
    yearOfCycle (36524 * century + 1461 * leap + 365 * year + rest) =
      100 * century + 4 * leap + year := by
  -- Every fourth year has a day more, but not every hundredth, while every four-hundredth has.
  have hfour : (36524 * century + 1461 * leap + 365 * year + rest) / 1460 =
      25 * century + leap + (24 * century + leap + 365 * year + rest) / 1460 := by omega
  have hhundred : (36524 * century + 1461 * leap + 365 * year + rest) / 36524 =
      century + (1461 * leap + 365 * year + rest) / 36524 := by omega
  have hcycle : (36524 * century + 1461 * leap + 365 * year + rest) / 146096 =
      (1461 * leap + 365 * year + rest) / 36524 := by omega
  have hpos : 0 ≤ rest - (24 * century + leap + 365 * year + rest) / 1460 := by omega
  have hle : rest - (24 * century + leap + 365 * year + rest) / 1460 ≤ 364 := by omega
  rw [yearOfCycle, hfour, hhundred, hcycle]
  omega

/-- A day of the cycle falls into the year that is computed for it. -/
theorem yearOfCycle_spec {day : Int} (hpos : 0 ≤ day) (hlt : day < cycleDays) :
    0 ≤ yearOfCycle day ∧ yearOfCycle day < 400 ∧ daysBefore (yearOfCycle day) ≤ day ∧
      day < daysBefore (yearOfCycle day) + 337 + daysInMonth (yearOfCycle day + 1) 2 := by
  obtain ⟨century, leap, year, rest, rfl, hcentury, hleap, hyear, hrest, hlast⟩ :=
    exists_parts hpos hlt
  rw [yearOfCycle_parts hcentury hleap hyear hrest hlast, ← daysBefore_succ]
  simp only [daysBefore]
  refine ⟨?_, ?_, ?_, ?_⟩ <;> omega

theorem daysInMonth_cycle (year cycle : Int) (month : Nat) :
    daysInMonth (year + 400 * cycle) month = daysInMonth year month := by
  have hleap : IsLeapYear (year + 400 * cycle) ↔ IsLeapYear year := by
    simp only [IsLeapYear]
    omega
  simp only [daysInMonth, hleap]

theorem daysInMonth_two_le (year : Int) : daysInMonth year 2 ≤ 29 := by
  rw [daysInMonth, if_pos rfl]
  split <;> decide

def ofMarch (year day : Int) : CalendarDate :=
  let month := (5 * day + 2) / 153
  { year := year + if 10 ≤ month then 1 else 0,
    month := (if 10 ≤ month then month - 9 else month + 3).toNat,
    day := (day - (153 * month + 2) / 5 + 1).toNat }

theorem ofMarch_spec {year day : Int} (hpos : 0 ≤ day)
    (hlt : day < 337 + daysInMonth (year + 1) 2) :
    (ofMarch year day).IsValid ∧ (ofMarch year day).marchYear = year ∧
      (ofMarch year day).daysFromMarch = day := by
  have hle := daysInMonth_two_le (year + 1)
  have hmonth : 0 ≤ (5 * day + 2) / 153 ∧ (5 * day + 2) / 153 ≤ 11 := by omega
  obtain ⟨month, hmonth'⟩ : ∃ month, month = (5 * day + 2) / 153 := ⟨_, rfl⟩
  rw [← hmonth'] at hmonth
  simp only [ofMarch, ← hmonth']
  obtain ⟨hfirst, hlast⟩ := hmonth
  by_cases hfebruary : month = 11
  · subst hfebruary
    refine ⟨⟨?_, ?_, ?_, ?_⟩, ?_, ?_⟩ <;>
      simp [marchYear, daysFromMarch, monthsFromMarch] <;> omega
  · interval_cases month <;> refine ⟨⟨?_, ?_, ?_, ?_⟩, ?_, ?_⟩ <;>
      simp [daysInMonth, marchYear, daysFromMarch, monthsFromMarch] at hfebruary ⊢ <;> omega

theorem ofDays_eq (n : Int) :
    let day := (n + epochOffset) % cycleDays
    ofDays n = ofMarch (yearOfCycle day + 400 * ((n + epochOffset) / cycleDays))
      (day - daysBefore (yearOfCycle day)) := by
  intro day
  have hday : 0 ≤ day ∧ day < cycleDays :=
    ⟨Int.emod_nonneg _ (by decide), Int.emod_lt_of_pos _ (by decide)⟩
  obtain ⟨hpos, hlt, -⟩ := yearOfCycle_spec hday.1 hday.2
  have hbefore : daysBefore (yearOfCycle day) =
      365 * yearOfCycle day + yearOfCycle day / 4 - yearOfCycle day / 100 := by
    rw [daysBefore, Int.ediv_eq_zero_of_lt hpos hlt, Int.add_zero]
  rw [hbefore]
  rfl

theorem daysBefore_cycle (year cycle : Int) :
    daysBefore (year + 400 * cycle) = daysBefore year + cycleDays * cycle := by
  simp only [daysBefore, cycleDays]
  omega

theorem ofDays_spec (n : Int) : (ofDays n).IsValid ∧ (ofDays n).dayNumber = n := by
  have hsplit := Int.mul_ediv_add_emod (n + epochOffset) cycleDays
  have hcycle : 0 ≤ (n + epochOffset) % cycleDays := Int.emod_nonneg _ (by decide)
  obtain ⟨hpos, hlt, hfirst, hlast⟩ :=
    yearOfCycle_spec hcycle (Int.emod_lt_of_pos (n + epochOffset) (by decide))
  have hlast' : (n + epochOffset) % cycleDays -
      daysBefore (yearOfCycle ((n + epochOffset) % cycleDays)) <
        337 + daysInMonth (yearOfCycle ((n + epochOffset) % cycleDays) +
          400 * ((n + epochOffset) / cycleDays) + 1) 2 := by
    rw [Int.add_right_comm, daysInMonth_cycle]
    omega
  have hspec := ofMarch_spec (Int.sub_nonneg_of_le hfirst) hlast'
  rw [← ofDays_eq] at hspec
  obtain ⟨hvalid, hyear, hday⟩ := hspec
  refine ⟨hvalid, ?_⟩
  rw [dayNumber, hyear, hday, daysBefore_cycle]
  omega

theorem daysFromMarch_spec (h : d.IsValid) :
    (5 * d.daysFromMarch + 2) / 153 = d.monthsFromMarch ∧ 0 ≤ d.daysFromMarch ∧
      d.daysFromMarch < 337 + daysInMonth (d.marchYear + 1) 2 := by
  obtain ⟨year, month, day⟩ := d
  obtain ⟨hmonth, hmonth', hday, hday'⟩ := h
  have hle := daysInMonth_two_le year
  dsimp only at hmonth hmonth' hday hday'
  by_cases hfebruary : month = 2
  · subst hfebruary
    simp [marchYear, daysFromMarch, monthsFromMarch]
    omega
  · interval_cases month <;>
      simp [daysInMonth, marchYear, daysFromMarch, monthsFromMarch] at hfebruary hday' ⊢ <;> omega

theorem ofMarch_marchYear (h : d.IsValid) : ofMarch d.marchYear d.daysFromMarch = d := by
  have hmonth := h.month_pos
  have hmonth' := h.month_le
  simp only [ofMarch, (daysFromMarch_spec h).1]
  simp only [marchYear, daysFromMarch, monthsFromMarch]
  obtain ⟨year, month, day⟩ := d
  dsimp only at hmonth hmonth'
  simp only [CalendarDate.mk.injEq]
  by_cases hspring : month ≤ 2
  · simp only [if_pos hspring]
    omega
  · simp only [if_neg hspring]
    omega

theorem marchYear_le (hd : d.IsValid) (he : e.IsValid) (h : d.dayNumber ≤ e.dayNumber) :
    d.marchYear ≤ e.marchYear := by
  obtain ⟨-, hdays⟩ := daysFromMarch_spec hd
  obtain ⟨-, hdays'⟩ := daysFromMarch_spec he
  rw [dayNumber, dayNumber] at h
  by_contra hlt
  have hnext := daysBefore_succ e.marchYear
  have hmono : daysBefore (e.marchYear + 1) ≤ daysBefore d.marchYear := by
    simp only [daysBefore]
    omega
  omega

theorem eq_of_dayNumber_eq (hd : d.IsValid) (he : e.IsValid) (h : d.dayNumber = e.dayNumber) :
    d = e := by
  have hyear : d.marchYear = e.marchYear :=
    Int.le_antisymm (marchYear_le hd he h.le) (marchYear_le he hd h.ge)
  have hday : d.daysFromMarch = e.daysFromMarch := by
    rw [dayNumber, dayNumber, hyear] at h
    omega
  rw [← ofMarch_marchYear hd, ← ofMarch_marchYear he, hyear, hday]

theorem ofDays_succ (n : Int) : ofDays (n + 1) = (ofDays n).next := by
  obtain ⟨hvalid, hnumber⟩ := ofDays_spec n
  obtain ⟨hvalid', hnumber'⟩ := ofDays_spec (n + 1)
  refine eq_of_dayNumber_eq hvalid' hvalid.next ?_
  rw [hnumber', dayNumber_next hvalid, hnumber]

/-- Each day has one date, which is the one that is computed for it. -/
theorem fallsOn_iff : FallsOn n d ↔ d = ofDays n := by
  constructor
  · intro h
    induction h with
    | epoch => decide
    | next h ih => rw [ih, ofDays_succ]
    | @previous n d hd h ih =>
        obtain ⟨hvalid, hnumber⟩ := ofDays_spec n
        refine eq_of_dayNumber_eq hd hvalid ?_
        have hnext := congrArg dayNumber ih
        rw [dayNumber_next hd, (ofDays_spec (n + 1)).2] at hnext
        omega
  · rintro rfl
    induction n using Int.induction_on with
    | zero => exact .epoch
    | succ n ih => exact ofDays_succ n ▸ .next ih
    | pred n ih =>
        refine .previous (ofDays_spec _).1 ?_
        rwa [← ofDays_succ, Int.sub_add_cancel]

end PeerBook.CalendarDate
