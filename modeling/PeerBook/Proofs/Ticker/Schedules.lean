import PeerBook.Proofs.Ticker.Polls
import PeerBook.Ticker.Schedule

namespace PeerBook

namespace Ticker

variable {t : Ticker}

theorem run_of_ended (ended : t.phase = .ended) (limit : Nat) : t.run limit = ([], t) := by
  rw [run, dif_pos ended]

theorem run_of_le {limit : Nat} (h : limit ≤ t.due) : t.run limit = ([], t) := by
  rw [run, dif_pos h]
  exact ite_self _

theorem isRunning_iff : t.isRunning = true ↔ t.phase ≠ .ended := by
  rw [isRunning, bne_iff_ne]

theorem run_of_untold {limit : Nat} (untold : t.cancelled = false) (running : t.phase ≠ .ended)
    (h : t.due < limit) : t.run limit =
      ((if (t.poll t.due true).1 then t.due :: ((t.poll t.due true).2.run limit).1
        else ((t.poll t.due true).2.run limit).1), ((t.poll t.due true).2.run limit).2) := by
  have hobey : (t.poll t.due true).2.obey t.due true = (t.poll t.due true).2 :=
    obey_of_untold ((t.polled t.due true).cancelled_eq.trans untold) t.due true
  rw [run, dif_neg running, dif_neg (Nat.not_le.mpr h), hobey]

theorem due_obey (t : Ticker) (now : Nat) (timerFirst : Bool) :
    (t.obey now timerFirst).due = t.due := by
  rw [obey]
  split <;> rfl

theorem due_le_obeyed (t : Ticker) : t.due ≤ ((t.poll t.due true).2.obey t.due true).due := by
  rw [due_obey]
  exact (t.polled t.due true).due_le

theorem mem_run {limit time : Nat} (h : time ∈ (t.run limit).1) : t.due ≤ time ∧ time < limit := by
  fun_induction run t limit with
  | case1 | case2 => cases h
  | case3 t hp hl times last heq ih =>
      rw [heq] at ih
      have hlater (h : time ∈ times) : t.due ≤ time ∧ time < limit :=
        ⟨Nat.le_trans t.due_le_obeyed (ih h).1, (ih h).2⟩
      dsimp only at h
      split at h
      · rcases List.mem_cons.mp h with rfl | h
        · exact ⟨Nat.le_refl _, Nat.not_le.mp hl⟩
        · exact hlater h
      · exact hlater h

theorem pairwise_run (t : Ticker) (limit : Nat) : (t.run limit).1.Pairwise (· ≤ ·) := by
  fun_induction run t limit with
  | case1 | case2 => exact .nil
  | case3 t hp hl times last heq ih =>
      rw [heq] at ih
      dsimp only
      split
      · refine List.pairwise_cons.mpr ⟨fun time h => ?_, ih⟩
        rw [show times = _ from (congrArg Prod.fst heq).symm] at h
        exact Nat.le_trans t.due_le_obeyed (mem_run h).1
      · exact ih

theorem obey_of_ended {now : Nat} {timerFirst : Bool} (ended : t.phase = .ended) :
    t.obey now timerFirst = t := by
  have hhalt : t.halt = t := by rw [halt, ← ended]
  rw [obey, hhalt]
  exact ite_self _

theorem cancelled_obey (t : Ticker) (now : Nat) (timerFirst : Bool) :
    (t.obey now timerFirst).cancelled = t.cancelled := by
  rw [obey]
  split <;> rfl

theorem cancelled_run (t : Ticker) (limit : Nat) : (t.run limit).2.cancelled = t.cancelled := by
  fun_induction run t limit with
  | case1 | case2 => rfl
  | case3 t hp hl times last heq ih =>
      rw [heq, cancelled_obey, (t.polled t.due true).cancelled_eq] at ih
      exact ih

theorem run_run (t : Ticker) {limit later : Nat} (h : limit ≤ later) : t.run later =
    ((t.run limit).1 ++ ((t.run limit).2.run later).1, ((t.run limit).2.run later).2) := by
  fun_induction run t limit with
  | case1 | case2 => rfl
  | case3 t hp hl times last heq ih =>
      rw [heq] at ih
      rw [run, dif_neg hp, dif_neg fun hlate => hl (Nat.le_trans h hlate), ih]
      refine Prod.ext ?_ rfl
      dsimp only
      split <;> rfl

theorem run_again (t : Ticker) (limit : Nat) :
    (t.run limit).2.run limit = ([], (t.run limit).2) := by
  by_cases ended : (t.run limit).2.phase = .ended
  · exact run_of_ended ended limit
  · exact run_of_le (t.due_run limit (isRunning_iff.mpr ended))

theorem mem_run_later {limit later time : Nat} (h : time ∈ ((t.run limit).2.run later).1) :
    limit ≤ time := by
  by_cases ended : (t.run limit).2.phase = .ended
  · rw [run_of_ended ended] at h
    cases h
  · exact Nat.le_trans (t.due_run limit (isRunning_iff.mpr ended)) (mem_run h).1

end Ticker

namespace Schedule

variable {α : Type} {s : Schedule α}

namespace Task

variable {task : Task α}

theorem due?_eq_some_iff {due : Nat} :
    task.due? = some due ↔ task.ticker.isRunning = true ∧ task.ticker.due = due := by
  rw [due?, Option.ite_none_right_eq_some, Option.some_inj]

theorem due?_eq_none_iff : task.due? = none ↔ task.ticker.phase = .ended := by
  rw [due?, ite_eq_right_iff, Ticker.isRunning_iff]
  simp

theorem isDue_iff {now : Nat} :
    task.isDue now = true ↔ task.ticker.isRunning = true ∧ task.ticker.due ≤ now := by
  simp only [isDue, Option.any_eq_true, due?_eq_some_iff, decide_eq_true_eq]
  grind

theorem isDue_of_ended (ended : task.ticker.phase = .ended) (now : Nat) : task.isDue now = false := by
  rw [isDue, due?_eq_none_iff.mpr ended, Option.any_none]

end Task

theorem mem_turn {now : Nat} {task : Task α} (h : task ∈ (s.turn now).2.tasks) :
    (task ∈ s.tasks ∧ task.isDue now = false) ∨
      ∃ before ∈ s.tasks, before.isDue now = true ∧ task = (before.turn now).2 := by
  rcases List.mem_append.mp h with hwaiting | hpolled
  · exact .inl (by simpa using hwaiting)
  · obtain ⟨outcome, houtcome, rfl⟩ := List.mem_map.mp hpolled
    obtain ⟨before, hbefore, rfl⟩ := List.mem_map.mp houtcome
    obtain ⟨hmem, hdue⟩ := List.mem_filter.mp hbefore
    exact .inr ⟨before, hmem, hdue, rfl⟩

theorem exists_of_nextDue? {now : Nat} (h : s.nextDue? = some now) :
    ∃ task ∈ s.tasks, task.ticker.isRunning = true ∧ task.ticker.due = now := by
  obtain ⟨task, hmem, hdue⟩ := List.mem_filterMap.mp (List.min?_mem h)
  exact ⟨task, hmem, Task.due?_eq_some_iff.mp hdue⟩

theorem le_due_of_mem_run {limit : Nat} {task : Task α} (h : task ∈ (s.run limit).2.tasks)
    (running : task.ticker.isRunning = true) : limit ≤ task.ticker.due := by
  have hmem (s : Schedule α) (h : task ∈ s.tasks) : task.ticker.due ∈ s.tasks.filterMap Task.due? :=
    List.mem_filterMap.mpr ⟨task, h, Task.due?_eq_some_iff.mpr ⟨running, rfl⟩⟩
  fun_induction run s limit with
  | case1 s hs => exact absurd (List.min?_eq_none_iff.mp hs) (List.ne_nil_of_mem (hmem s h))
  | case2 s now hs hl => exact Nat.le_trans hl ((List.min?_eq_some_iff.mp hs).2 _ (hmem s h))
  | case3 s now hs hl later last heq ih =>
      rw [heq] at ih
      exact ih h

section Alone

variable {rest : List (Task α)} {task : Task α} (ended : ∀ other ∈ rest, other.ticker.phase = .ended)

include ended

theorem nextDue?_concat (task : Task α) : nextDue? ⟨rest ++ [task]⟩ = task.due? := by
  have hrest : rest.filterMap Task.due? = [] :=
    List.filterMap_eq_nil_iff.mpr fun other h => Task.due?_eq_none_iff.mpr (ended other h)
  rw [nextDue?, List.filterMap_append, hrest, List.nil_append]
  cases h : task.due? with
  | none => simp [h]
  | some due => simp [h]

theorem turn_concat {now : Nat} (due : task.isDue now = true) :
    turn ⟨rest ++ [task]⟩ now = ((task.turn now).1, ⟨rest ++ [(task.turn now).2]⟩) := by
  have hidle (other : Task α) (h : other ∈ rest) := Task.isDue_of_ended (ended other h) now
  have hpolled : (rest ++ [task]).filter (Task.isDue now) = [task] := by
    rw [List.filter_append, List.filter_eq_nil_iff.mpr fun other h => by simp [hidle other h]]
    simp [due]
  have hwaiting : (rest ++ [task]).filter (fun other => !other.isDue now) = rest := by
    rw [List.filter_append, List.filter_eq_self.mpr fun other h => by simp [hidle other h]]
    simp [due]
  rw [turn, hpolled, hwaiting]
  simp

omit ended in
theorem map_turn {now : Nat} (due : task.ticker.due = now) :
    (task.turn now).1.map (now, ·) = (task.ticker.run (now + 1)).1.map (·, task.duty) := by
  rw [Task.turn, List.map_map]
  refine List.map_congr_left fun time h => ?_
  have := Ticker.mem_run h
  exact congrArg (·, task.duty) (by omega)

theorem obey_concat (untold : task.ticker.cancelled = false) (now : Nat) (timerFirst : Bool) :
    obey ⟨rest ++ [task]⟩ now timerFirst = ⟨rest ++ [task]⟩ := by
  have hrest : rest.map (Task.obey now timerFirst) = rest := by
    refine (List.map_congr_left (g := id) fun other h => ?_).trans (List.map_id rest)
    rw [Task.obey, Ticker.obey_of_ended (ended other h)]
    rfl
  have htask : task.obey now timerFirst = task := by rw [Task.obey, Ticker.obey_of_untold untold]
  rw [obey, List.map_append, hrest, List.map_singleton, htask]

/-- A schedule does what its one running task does. -/
theorem run_concat (task : Task α) (limit : Nat) : run ⟨rest ++ [task]⟩ limit =
    ((task.ticker.run limit).1.map (·, task.duty),
      ⟨rest ++ [{ task with ticker := (task.ticker.run limit).2 }]⟩) := by
  generalize hs : (⟨rest ++ [task]⟩ : Schedule α) = s
  fun_induction run s limit generalizing task with
  | case1 s hnext =>
      subst hs
      rw [nextDue?_concat ended, Task.due?_eq_none_iff] at hnext
      rw [Ticker.run_of_ended hnext]
      rfl
  | case2 s now hnext hl =>
      subst hs
      rw [nextDue?_concat ended, Task.due?_eq_some_iff] at hnext
      obtain ⟨-, rfl⟩ := hnext
      rw [Ticker.run_of_le hl]
      rfl
  | case3 s now hnext hl later last heq ih =>
      subst hs
      rw [nextDue?_concat ended, Task.due?_eq_some_iff] at hnext
      have hturn := turn_concat ended (Task.isDue_iff.mpr ⟨hnext.1, Nat.le_of_eq hnext.2⟩)
      have hlater := ih (task.turn now).2 (congrArg Prod.snd hturn).symm
      obtain ⟨rfl, rfl⟩ := Prod.mk.inj (heq.symm.trans hlater)
      rw [hturn, map_turn hnext.2, task.ticker.run_run (Nat.succ_le_of_lt (Nat.not_le.mp hl)),
        List.map_append]
      rfl

end Alone

end Schedule

end PeerBook
