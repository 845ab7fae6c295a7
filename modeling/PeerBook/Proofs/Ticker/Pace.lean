import PeerBook.Proofs.Ticker.Schedules

namespace PeerBook

/-- The times before `limit` of something that happens first at `first` and then in every `period`. -/
def beats (first period limit : Nat) : List Nat :=
  (List.range (if limit ≤ first then 0 else 1 + (limit - 1 - first) / period)).map
    (first + · * period)

theorem beats_of_le {first period limit : Nat} (h : limit ≤ first) :
    beats first period limit = [] := by
  rw [beats, if_pos h]
  rfl

theorem beats_of_lt {first period limit : Nat} (hperiod : 0 < period) (h : first < limit) :
    beats first period limit = first :: beats (first + period) period limit := by
  have hcount : (limit - 1 - first) / period =
      if limit ≤ first + period then 0 else 1 + (limit - 1 - (first + period)) / period := by
    split
    · exact Nat.div_eq_of_lt (by omega)
    · rw [show limit - 1 - (first + period) = limit - 1 - first - period by omega,
        Nat.div_eq_sub_div hperiod (by omega), Nat.add_comm]
  have hnext (k : Nat) : first + (k + 1) * period = first + period + k * period := by
    rw [Nat.succ_mul]
    omega
  rw [beats, if_neg (Nat.not_le.mpr h), Nat.add_comm, List.range_succ_eq_map, beats, ← hcount,
    List.map_cons, List.map_map]
  congr 1
  · rw [Nat.zero_mul, Nat.add_zero]
  · exact List.map_congr_left fun k _ => hnext k

theorem beats_elapsed (start delay period elapsed : Nat) :
    beats (start + delay) period (start + elapsed + 1) =
      (List.range (if elapsed < delay then 0 else 1 + (elapsed - delay) / period)).map
        (start + delay + · * period) := by
  have hsince : start + elapsed + 1 - 1 - (start + delay) = elapsed - delay := by omega
  have hbefore : start + elapsed + 1 ≤ start + delay ↔ elapsed < delay := by omega
  rw [beats, hsince]
  simp only [hbefore]

namespace Ticker

variable {period : Nat}

theorem poll_fresh (start delay period : Nat) : poll ⟨.fresh delay, start, period, false⟩ start true =
    (false, ⟨.sleeping, start + delay, period, false⟩) := by
  rw [poll, obey_of_untold rfl, if_neg (Nat.lt_irrefl start)]
  rfl

theorem poll_sleeping (due : Nat) (paced : period ≠ 0) :
    poll ⟨.sleeping, due, period, false⟩ due true = (false, ⟨.ticking, due, period, false⟩) := by
  rw [poll, obey_of_untold rfl, if_neg (Nat.lt_irrefl due)]
  exact congrArg (false, ·) (if_neg paced)

theorem poll_ticking (due : Nat) (paced : period ≠ 0) :
    poll ⟨.ticking, due, period, false⟩ due true =
      (true, ⟨.ticking, due + period, period, false⟩) := by
  have hnext : afterTick ⟨.ticking, due, period, false⟩ due =
      ⟨.ticking, due + period, period, false⟩ := by
    rw [afterTick, if_neg (Nat.not_lt.mpr (Nat.le_add_right due lateness))]
  rw [poll, obey_of_untold rfl, if_neg (Nat.lt_irrefl due)]
  exact (if_neg paced).trans (congrArg (true, ·) hnext)

theorem run_ticking (due limit : Nat) (paced : period ≠ 0) :
    (run ⟨.ticking, due, period, false⟩ limit).1 = beats due period limit := by
  by_cases h : due < limit
  · rw [run_of_untold rfl (by simp) h, poll_ticking due paced,
      beats_of_lt (Nat.pos_of_ne_zero paced) h]
    exact congrArg (due :: ·) (run_ticking (due + period) limit paced)
  · rw [run_of_le (Nat.not_lt.mp h), beats_of_le (Nat.not_lt.mp h)]
termination_by limit - due
decreasing_by
  have := Nat.pos_of_ne_zero paced
  omega

theorem run_sleeping (due limit : Nat) (paced : period ≠ 0) :
    (run ⟨.sleeping, due, period, false⟩ limit).1 = beats due period limit := by
  by_cases h : due < limit
  · rw [run_of_untold rfl (by simp) h, poll_sleeping due paced]
    exact run_ticking due limit paced
  · rw [run_of_le (Nat.not_lt.mp h), beats_of_le (Nat.not_lt.mp h)]

/-- A task that is started at `start` acts when its delay is over, and from then on with its period. -/
theorem run_delayed (start delay limit : Nat) (paced : period ≠ 0) :
    ((delayed start delay period).run limit).1 =
      beats (start + delay) period limit := by
  rw [delayed]
  by_cases h : start < limit
  · rw [run_of_untold rfl (by simp) h, poll_fresh]
    exact run_sleeping _ limit paced
  · rw [run_of_le (Nat.not_lt.mp h), beats_of_le (by omega)]

end Ticker

end PeerBook
