import PeerBook.Ticker

namespace PeerBook

namespace Ticker

variable {t t' : Ticker} {now : Nat} {timerFirst acted : Bool}

inductive Rung (t : Ticker) (now : Nat) : Bool → Ticker → Prop where
  | begun (delay : Nat) (fresh : t.phase = .fresh delay) : Rung t now false (t.afterStart now delay)
  | woken (asleep : t.phase = .sleeping) : Rung t now false (t.afterSleep now)
  | unpaced (ticking : t.phase = .ticking) (unpaced : t.period = 0) : Rung t now false t.halt
  | acting (ticking : t.phase = .ticking) (paced : t.period ≠ 0) : Rung t now true (t.afterTick now)
  | past (ended : t.phase = .ended) : Rung t now false t

inductive Polled (t : Ticker) (now : Nat) (timerFirst : Bool) : Bool → Ticker → Prop where
  | stopped (told : t.cancelled = true) (heeded : timerFirst = true → now < t.due) :
      Polled t now timerFirst false t.halt
  | waiting (untold : t.cancelled = false) (early : now < t.due) : Polled t now timerFirst false t
  | ringing {acted : Bool} {t' : Ticker} (due : t.due ≤ now)
      (first : t.cancelled = true → timerFirst = true) (rung : Rung t now acted t') :
      Polled t now timerFirst acted t'

theorem obey_of_heeded (told : t.cancelled = true) (heeded : timerFirst = true → now < t.due) :
    t.obey now timerFirst = t.halt := by
  cases timerFirst with
  | false => simp [obey, told]
  | true => simp [obey, told, Nat.not_le.mpr (heeded rfl)]

theorem poll_of_heeded (told : t.cancelled = true) (heeded : timerFirst = true → now < t.due) :
    t.poll now timerFirst = (false, t.halt) := by
  rw [poll, obey_of_heeded told heeded]
  exact ite_self _

theorem obey_of_overtaken (h : t.cancelled = true → timerFirst = true ∧ t.due ≤ now) :
    t.obey now timerFirst = t := by
  cases told : t.cancelled with
  | false => simp [obey, told]
  | true => simp [obey, told, h told]

/-- Either the order is found first, or there is none, or the timer is taken first. -/
theorem obey_cases (t : Ticker) (now : Nat) (timerFirst : Bool) :
    (t.cancelled = true ∧ (timerFirst = true → now < t.due) ∧ t.obey now timerFirst = t.halt) ∨
      ((t.cancelled = true → timerFirst = true ∧ t.due ≤ now) ∧ t.obey now timerFirst = t) := by
  by_cases hheeds : t.cancelled = true ∧ (timerFirst = true → now < t.due)
  · exact .inl ⟨hheeds.1, hheeds.2, obey_of_heeded hheeds.1 hheeds.2⟩
  · have hovertaken (told : t.cancelled = true) : timerFirst = true ∧ t.due ≤ now := by
      simpa [told] using hheeds
    exact .inr ⟨hovertaken, obey_of_overtaken hovertaken⟩

theorem obey_of_untold (untold : t.cancelled = false) (now : Nat) (timerFirst : Bool) :
    t.obey now timerFirst = t :=
  obey_of_overtaken fun told => absurd told (Bool.eq_false_iff.mp untold)

theorem polled (t : Ticker) (now : Nat) (timerFirst : Bool) :
    Polled t now timerFirst (t.poll now timerFirst).1 (t.poll now timerFirst).2 := by
  rcases t.obey_cases now timerFirst with ⟨htold, hheeded, -⟩ | ⟨hovertaken, hobey⟩
  · rw [poll_of_heeded htold hheeded]
    exact .stopped htold hheeded
  · rw [poll, hobey]
    split
    case isTrue hearly =>
      refine .waiting (Bool.eq_false_iff.mpr fun told => ?_) hearly
      exact absurd hearly (Nat.not_lt.mpr (hovertaken told).2)
    case isFalse hlate =>
      refine .ringing (Nat.not_lt.mp hlate) (fun told => (hovertaken told).1) ?_
      split
      case h_1 hfresh => exact .begun _ hfresh
      case h_2 hasleep => exact .woken hasleep
      case h_3 hticking =>
        split
        case isTrue hunpaced => exact .unpaced hticking hunpaced
        case isFalse hpaced => exact .acting hticking hpaced
      case h_4 hended => exact .past hended

section Steps

theorem period_afterSleep (t : Ticker) (now : Nat) : (t.afterSleep now).period = t.period := by
  rw [afterSleep]
  split <;> rfl

theorem cancelled_afterSleep (t : Ticker) (now : Nat) :
    (t.afterSleep now).cancelled = t.cancelled := by
  rw [afterSleep]
  split <;> rfl

theorem due_le_afterSleep (h : t.due ≤ now) : t.due ≤ (t.afterSleep now).due := by
  rw [afterSleep]
  split
  · exact Nat.le_refl _
  · exact h

/-- After it has acted a task waits for a whole period, less at most what it came late. -/
theorem le_due_afterTick (t : Ticker) (now : Nat) :
    now + t.period ≤ (t.afterTick now).due + lateness := by
  rw [afterTick]
  dsimp only
  split <;> omega

theorem due_le_afterTick (t : Ticker) (now : Nat) :
    t.due + t.period ≤ (t.afterTick now).due := by
  rw [afterTick]
  dsimp only
  split <;> omega

theorem Polled.period_eq (h : Polled t now timerFirst acted t') : t'.period = t.period := by
  cases h with
  | stopped | waiting => rfl
  | ringing due first rung =>
      cases rung with
      | begun | unpaced | acting | past => rfl
      | woken => exact t.period_afterSleep now

theorem Polled.cancelled_eq (h : Polled t now timerFirst acted t') : t'.cancelled = t.cancelled := by
  cases h with
  | stopped | waiting => rfl
  | ringing due first rung =>
      cases rung with
      | begun | unpaced | acting | past => rfl
      | woken => exact t.cancelled_afterSleep now

theorem Polled.due_le (h : Polled t now timerFirst acted t') : t.due ≤ t'.due := by
  cases h with
  | stopped | waiting => exact Nat.le_refl _
  | ringing due first rung =>
      cases rung with
      | begun => exact Nat.le_add_right_of_le due
      | woken => exact due_le_afterSleep due
      | unpaced | past => exact Nat.le_refl _
      | acting => exact Nat.le_of_add_right_le (t.due_le_afterTick now)

theorem Polled.of_ended (ended : t.phase = .ended) (h : Polled t now timerFirst acted t') :
    acted = false ∧ t'.phase = .ended := by
  cases h with
  | stopped => exact ⟨rfl, rfl⟩
  | waiting => exact ⟨rfl, ended⟩
  | ringing due first rung =>
      cases rung with
      | past => exact ⟨rfl, ended⟩
      | begun _ hphase | woken hphase | unpaced hphase | acting hphase =>
          rw [ended] at hphase
          contradiction

/-- A task that has been told to stop ends with the poll in which it finds the order. -/
theorem Polled.of_heeded (told : t.cancelled = true) (heeded : timerFirst = true → now < t.due)
    (h : Polled t now timerFirst acted t') : acted = false ∧ t'.phase = .ended := by
  cases h with
  | stopped => exact ⟨rfl, rfl⟩
  | waiting untold => exact absurd told (Bool.eq_false_iff.mp untold)
  | ringing due first => exact absurd (heeded (first told)) (Nat.not_lt.mpr due)

theorem Polled.of_acted (h : Polled t now timerFirst true t') :
    t.due ≤ now ∧ t.phase = .ticking ∧ t.period ≠ 0 ∧ t' = t.afterTick now := by
  cases h with
  | ringing due first rung =>
      cases rung with
      | acting ticking paced => exact ⟨due, ticking, paced, rfl⟩

end Steps

inductive Event where
  | poll (now : Nat) (timerFirst : Bool)
  | cancel

def Event.time? : Event → Option Nat
  | poll now _ => some now
  | cancel => none

def react (t : Ticker) : Event → Ticker
  | .poll now timerFirst => (t.poll now timerFirst).2
  | .cancel => t.cancel

def after (t : Ticker) (events : List Event) : Ticker :=
  events.foldl react t

def actsIn (t : Ticker) : Event → List Nat
  | .poll now timerFirst => if (t.poll now timerFirst).1 then [now] else []
  | .cancel => []

def acts (t : Ticker) : List Event → List Nat
  | [] => []
  | e :: events => t.actsIn e ++ (t.react e).acts events

/-- Once it has taken its timer the task looks again before any time passes. -/
def Prompt (t : Ticker) : List Event → Prop
  | [] => True
  | .cancel :: events => t.cancel.Prompt events
  | .poll now timerFirst :: events =>
    (t.due ≤ now → (t.poll now timerFirst).2.phase ≠ .ended →
      ∀ next ∈ events.findSome? Event.time?, next = now) ∧
    (t.poll now timerFirst).2.Prompt events

instance decidablePrompt : (t : Ticker) → (events : List Event) → Decidable (t.Prompt events)
  | _, [] => .isTrue trivial
  | t, .cancel :: events => decidablePrompt t.cancel events
  | t, .poll now timerFirst :: events =>
    @instDecidableAnd _ _ inferInstance (decidablePrompt (t.poll now timerFirst).2 events)

theorem after_append (t : Ticker) (events more : List Event) :
    t.after (events ++ more) = (t.after events).after more :=
  List.foldl_append

theorem acts_append (t : Ticker) (events more : List Event) :
    t.acts (events ++ more) = t.acts events ++ (t.after events).acts more := by
  induction events generalizing t with
  | nil => rfl
  | cons e events ih =>
      rw [List.cons_append, acts, ih, acts, List.append_assoc]
      rfl

theorem period_react (t : Ticker) (e : Event) : (t.react e).period = t.period := by
  cases e with
  | poll now timerFirst => exact (t.polled now timerFirst).period_eq
  | cancel => rfl

theorem cancelled_react (told : t.cancelled = true) (e : Event) : (t.react e).cancelled = true := by
  cases e with
  | poll now timerFirst => exact (t.polled now timerFirst).cancelled_eq.trans told
  | cancel => rfl

theorem period_after (t : Ticker) (events : List Event) : (t.after events).period = t.period := by
  induction events generalizing t with
  | nil => rfl
  | cons e events ih => exact (ih (t.react e)).trans (t.period_react e)

/-- An order to stop is not taken back. -/
theorem cancelled_after (told : t.cancelled = true) (events : List Event) :
    (t.after events).cancelled = true := by
  induction events generalizing t with
  | nil => exact told
  | cons e events ih => exact ih (cancelled_react told e)

theorem actsIn_poll (t : Ticker) (now : Nat) (timerFirst : Bool) :
    t.actsIn (.poll now timerFirst) = if (t.poll now timerFirst).1 then [now] else [] :=
  rfl

theorem of_ended (ended : t.phase = .ended) (events : List Event) :
    t.acts events = [] ∧ (t.after events).phase = .ended := by
  induction events generalizing t with
  | nil => exact ⟨rfl, ended⟩
  | cons e events ih =>
      have hstep : t.actsIn e = [] ∧ (t.react e).phase = .ended := by
        cases e with
        | cancel => exact ⟨rfl, ended⟩
        | poll now timerFirst =>
            obtain ⟨hacted, hnext⟩ := (t.polled now timerFirst).of_ended ended
            exact ⟨by rw [actsIn_poll, hacted]; rfl, hnext⟩
      obtain ⟨hacts, hafter⟩ := ih hstep.2
      exact ⟨by rw [acts, hstep.1, hacts]; rfl, hafter⟩

theorem exists_events_obey (t : Ticker) (now : Nat) (timerFirst : Bool) :
    ∃ events, t.obey now timerFirst = t.after events ∧ t.acts events = [] := by
  rcases t.obey_cases now timerFirst with ⟨htold, hheeded, hobey⟩ | ⟨-, hobey⟩
  · have hpoll := poll_of_heeded htold hheeded
    refine ⟨[.poll now timerFirst], hobey.trans (congrArg Prod.snd hpoll).symm, ?_⟩
    rw [acts, actsIn_poll, hpoll]
    rfl
  · exact ⟨[], hobey, rfl⟩

theorem exists_events_run (t : Ticker) (limit : Nat) :
    ∃ events, t.run limit = (t.acts events, t.after events) := by
  fun_induction run t limit with
  | case1 | case2 => exact ⟨[], rfl⟩
  | case3 t hp hl times last heq ih =>
      obtain ⟨obeyed, hobey, hidle⟩ := (t.poll t.due true).2.exists_events_obey t.due true
      obtain ⟨later, hlater⟩ := ih
      obtain ⟨rfl, rfl⟩ := Prod.mk.inj (heq.symm.trans hlater)
      refine ⟨.poll t.due true :: (obeyed ++ later), Prod.ext ?_ ?_⟩
      · change _ = t.actsIn _ ++ (t.poll t.due true).2.acts (obeyed ++ later)
        rw [acts_append, hidle, ← hobey, actsIn_poll]
        split <;> rfl
      · change _ = (t.poll t.due true).2.after (obeyed ++ later)
        rw [after_append, ← hobey]

end Ticker

end PeerBook
