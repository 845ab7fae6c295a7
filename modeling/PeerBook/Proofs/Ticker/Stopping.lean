import PeerBook.Gossip.Rounds
import PeerBook.Proofs.Ticker.Schedules

namespace PeerBook

namespace Ticker

variable {t : Ticker} {now : Nat} {timerFirst : Bool}

theorem of_heeded (told : t.cancelled = true) (heeded : timerFirst = true → now < t.due)
    (late : List Event) :
    t.acts (.poll now timerFirst :: late) = [] ∧
      (t.after (.poll now timerFirst :: late)).phase = .ended := by
  obtain ⟨hacted, hended⟩ := (t.polled now timerFirst).of_heeded told heeded
  obtain ⟨hacts, hafter⟩ := Ticker.of_ended (t := t.react (.poll now timerFirst)) hended late
  exact ⟨by rw [acts, actsIn_poll, hacted, hacts]; rfl, hafter⟩

/-- Told to stop, a task that is polled whenever its timer rings acts no more than once, and then it
has ended. -/
theorem run_of_cancelled (told : t.cancelled = true) (limit : Nat) :
    ((t.run limit).1 = [] ∨ (t.run limit).1 = [t.due]) ∧
      (t.due < limit → (t.run limit).2.phase = .ended) := by
  fun_induction run t limit with
  | case1 t hp => exact ⟨.inl rfl, fun _ => hp⟩
  | case2 t hp hl => exact ⟨.inl rfl, fun hlt => absurd hlt (Nat.not_lt.mpr hl)⟩
  | case3 t hp hl times last heq ih =>
      have hpolled := t.polled t.due true
      have htold : (t.poll t.due true).2.cancelled = true := hpolled.cancelled_eq.trans told
      by_cases hlater : t.due < (t.poll t.due true).2.due
      · -- The timer is set to a later time, so that the order is found first.
        rw [obey_of_heeded htold fun _ => hlater, run_of_ended rfl] at heq
        obtain ⟨rfl, rfl⟩ := Prod.mk.inj heq
        refine ⟨?_, fun _ => rfl⟩
        dsimp only
        split
        · exact .inr rfl
        · exact .inl rfl
      · have hdue : (t.poll t.due true).2.due = t.due :=
          Nat.le_antisymm (Nat.not_lt.mp hlater) hpolled.due_le
        have hobey : (t.poll t.due true).2.obey t.due true = (t.poll t.due true).2 :=
          obey_of_overtaken fun _ => ⟨rfl, Nat.le_of_eq hdue⟩
        have hidle : (t.poll t.due true).1 = false := by
          refine Bool.eq_false_iff.mpr fun hacted => hlater ?_
          obtain ⟨-, -, hpaced, hnext⟩ := (hacted ▸ hpolled).of_acted
          have := t.due_le_afterTick t.due
          rw [hnext]
          omega
        rw [hobey] at ih heq
        rw [hidle]
        simpa [heq, hdue] using ih htold

theorem acts_of_early {events : List Event} (told : t.cancelled = true)
    (early : ∀ next ∈ events.findSome? Event.time?, next < t.due) : t.acts events = [] := by
  induction events generalizing t with
  | nil => rfl
  | cons e events ih =>
      cases e with
      | cancel => exact ih (t := t.cancel) rfl early
      | poll now timerFirst => exact (of_heeded told (fun _ => early now rfl) events).1

theorem length_acts_le_one {events : List Event} (told : t.cancelled = true)
    (paced : t.period ≠ 0 → lateness < t.period) (prompt : t.Prompt events) :
    (t.acts events).length ≤ 1 := by
  induction events generalizing t with
  | nil => exact Nat.zero_le 1
  | cons e events ih =>
      cases e with
      | cancel => exact ih (t := t.cancel) rfl paced prompt
      | poll now timerFirst =>
          obtain ⟨hagain, hprompt⟩ := prompt
          have hpolled := t.polled now timerFirst
          have htold := hpolled.cancelled_eq.trans told
          rw [acts, actsIn_poll, List.length_append]
          split
          case isTrue hacted =>
            -- The timer is set to a later time, so that the task finds the order when it looks again.
            obtain ⟨hdue, hticking, hpaced, hnext⟩ := (hacted ▸ hpolled).of_acted
            have hrunning : (t.poll now timerFirst).2.phase ≠ .ended := by
              rw [hnext, show (t.afterTick now).phase = t.phase from rfl, hticking]
              decide
            have hlater : now < (t.poll now timerFirst).2.due := by
              have := t.le_due_afterTick now
              have := paced hpaced
              rw [hnext]
              omega
            have hnone : (t.react (.poll now timerFirst)).acts events = [] :=
              acts_of_early htold fun next h => hagain hdue hrunning next h ▸ hlater
            rw [hnone]
            exact Nat.le_refl 1
          case isFalse =>
            rw [List.length_nil, Nat.zero_add]
            exact ih htold (hpolled.period_eq ▸ paced) hprompt

/-- Whole seconds are longer than what a tick may be late. -/
theorem lateness_lt_wait [Timer] {seconds : UInt64}
    (h : Timer.wait (secondsToMillis seconds) ≠ 0) :
    lateness < Timer.wait (secondsToMillis seconds) := by
  have hle := Timer.min_second_le_wait (secondsToMillis seconds)
  have hzero := Timer.wait_le (secondsToMillis seconds)
  simp only [secondsToMillis, lateness] at h hle hzero ⊢
  omega

/--
What a task still does after it has been told to stop. A poll that finds its timer not rung, or takes
the order first, ends it for good. As the task looks again once it has taken its timer, it acts no
more than once; and where it is run, only for a timer that had rung when it was woken and was taken
first.
-/
theorem acts_once_told [Timer] (c : GossipConfig) (start : Nat) (before after : List Event) :
    let told := (c.ticker start).after (before ++ [.cancel])
    (∀ early now timerFirst late, after = early ++ .poll now timerFirst :: late →
      (timerFirst = true → now < (told.after early).due) →
        told.acts after = told.acts early ∧ (told.after after).phase = .ended) ∧
    (told.Prompt after → (told.acts after).length ≤ 1) ∧
    ∀ now timerFirst limit, ((told.obey now timerFirst).run limit).1 = [] ∨
      (timerFirst = true ∧ told.due ≤ now ∧
        ((told.obey now timerFirst).run limit).1 = [told.due]) := by
  intro told
  have htold : told.cancelled = true := by
    rw [show told = ((c.ticker start).after before).cancel from after_append _ before [.cancel]]
    rfl
  refine ⟨?final, ?once, ?run⟩
  case final =>
    rintro early now timerFirst late rfl hheeded
    obtain ⟨hacts, hended⟩ := of_heeded (cancelled_after htold early) hheeded late
    exact ⟨by rw [acts_append, hacts, List.append_nil], by rwa [after_append]⟩
  case once =>
    intro hprompt
    refine length_acts_le_one htold (fun hpaced => ?_) hprompt
    have hperiod : told.period = Timer.wait (secondsToMillis c.syncIntervalSecs) :=
      period_after _ _
    rw [hperiod] at hpaced ⊢
    exact lateness_lt_wait hpaced
  case run =>
    intro now timerFirst limit
    rcases told.obey_cases now timerFirst with ⟨-, -, hobey⟩ | ⟨hovertaken, hobey⟩ <;> rw [hobey]
    · rw [run_of_ended rfl]
      exact .inl rfl
    · obtain ⟨hfirst, hdue⟩ := hovertaken htold
      exact (run_of_cancelled htold limit).1.imp_right fun hacts => ⟨hfirst, hdue, hacts⟩

attribute [local instance] Timer.seconds63

/-- A task whose delay is over when it is told to stop acts once, and ends when it looks again. -/
theorem acts_once_told_late :
    let told := (({} : GossipConfig).ticker 0).after ([.poll 0 true, .poll 0 true] ++ [.cancel])
    let late : List Event := [.poll 5000 true, .poll 5000 true, .poll 5000 true]
    told.Prompt late ∧ told.acts late = [5000] ∧ (told.acts late).length ≤ 1 ∧
      (told.after late).phase = .ended := by
  intro told late
  obtain ⟨hfinal, honce, -⟩ :=
    acts_once_told {} 0 [.poll 0 true, .poll 0 true] late
  obtain ⟨hacts, hended⟩ :=
    hfinal [.poll 5000 true, .poll 5000 true] 5000 true [] rfl (by decide)
  have hprompt : told.Prompt late := by decide
  exact ⟨hprompt, hacts.trans (by decide), honce hprompt, hended⟩

/-- A node with the settings that nobody has changed begins a round although its task has been told
to stop: its delay is over before the task looks again. -/
theorem not_stopIsFinal :
    ¬∀ (c : GossipConfig) (start : Nat) (before after : List Event),
      ((before ++ .cancel :: after).filterMap Event.time?).Pairwise (· ≤ ·) →
      (c.ticker start).Prompt (before ++ .cancel :: after) →
        ((c.ticker start).after (before ++ [.cancel])).acts after = [] := by
  intro h
  have := h {} 0 [.poll 0 true, .poll 0 true] [.poll 5000 true, .poll 5000 true] (by decide)
    (by decide)
  revert this
  decide

end Ticker

namespace Schedule

variable {α : Type} {s : Schedule α} {clock : Nat} {timerFirst : Bool}

def Told (s : Schedule α) (clock : Nat) (timerFirst : Bool) : Prop :=
  ∀ task ∈ s.tasks, task.ticker.isRunning = true →
    task.ticker.cancelled = true ∧ timerFirst = true ∧ task.ticker.due ≤ clock

theorem told_obey (h : ∀ task ∈ s.tasks, task.ticker.cancelled = true) (clock : Nat)
    (timerFirst : Bool) : (s.obey clock timerFirst).Told clock timerFirst := by
  intro task hmem hrunning
  obtain ⟨before, hbefore, rfl⟩ := List.mem_map.mp hmem
  have htold := h before hbefore
  rcases before.ticker.obey_cases clock timerFirst with ⟨-, -, hobey⟩ | ⟨hovertaken, hobey⟩
  · rw [Task.obey, hobey] at hrunning
    cases hrunning
  · rw [Task.obey, hobey]
    exact ⟨htold, hovertaken htold⟩

theorem Told.turn (h : s.Told clock timerFirst) (now : Nat) :
    (s.turn now).2.Told clock timerFirst := by
  intro task hmem hrunning
  rcases mem_turn hmem with ⟨hmem, -⟩ | ⟨before, hbefore, hdue, rfl⟩
  · exact h task hmem hrunning
  · obtain ⟨hwas, hdue⟩ := Task.isDue_iff.mp hdue
    have hended := (Ticker.run_of_cancelled (h before hbefore hwas).1 (now + 1)).2
      (Nat.lt_succ_of_le hdue)
    exact absurd hended (Ticker.isRunning_iff.mp hrunning)

theorem Told.run (h : s.Told clock timerFirst) (limit : Nat) :
    (∀ entry ∈ (s.run limit).1, timerFirst = true ∧ entry.1 ≤ clock) ∧
      (s.run limit).2.Told clock timerFirst := by
  fun_induction Schedule.run s limit with
  | case1 | case2 => exact ⟨List.forall_mem_nil _, h⟩
  | case3 s now hs hl later last heq ih =>
      obtain ⟨hlater, hlast⟩ := ih (h.turn now)
      rw [heq] at hlater hlast
      refine ⟨fun entry hentry => ?_, hlast⟩
      rcases List.mem_append.mp hentry with hnow | hmem
      · obtain ⟨_, -, rfl⟩ := List.mem_map.mp hnow
        obtain ⟨task, hmem, hrunning, rfl⟩ := exists_of_nextDue? hs
        exact (h task hmem hrunning).2
      · exact hlater entry hmem

end Schedule

namespace GossipHost

variable {σ : Type} [RecordStore σ]

/-- Told to stop, the tasks of a node begin no round that was not due at once, and with the next wait
they have ended. -/
theorem ended_of_told (host : GossipHost σ) (draws : Nat → Draws) {limit : Nat}
    (told : ∀ task ∈ host.tasks.tasks, task.ticker.cancelled = true) (later : host.clock < limit) :
    (∃ times, (host.runUntil limit draws).gossiper = host.gossiper.rounds draws times ∧
      ∀ time ∈ times, (draws host.clock).timerFirst = true ∧ time ≤ host.clock) ∧
    ∀ task ∈ (host.runUntil limit draws).tasks.tasks, task.ticker.phase = .ended := by
  obtain ⟨htimes, hlast⟩ :=
    (Schedule.told_obey told host.clock (draws host.clock).timerFirst).run limit
  refine ⟨⟨_, rfl, fun time htime => ?_⟩, fun task hmem => ?_⟩
  · obtain ⟨entry, hentry, rfl⟩ := List.mem_map.mp htime
    exact htimes entry hentry
  · refine Decidable.byContradiction fun hended => ?_
    have hrunning := Ticker.isRunning_iff.mpr hended
    obtain ⟨-, -, hdue⟩ := hlast task hmem hrunning
    have := Schedule.le_due_of_mem_run hmem hrunning
    omega

end GossipHost

end PeerBook
