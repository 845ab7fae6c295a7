namespace PeerBook

inductive Ticker.Phase where
  | fresh (delay : Nat)
  | sleeping
  | ticking
  | ended
  deriving DecidableEq, Repr

structure Ticker where
  phase : Ticker.Phase
  /-- When the task is to be polled: its timer rings, or it has just been started. -/
  due : Nat
  period : Nat
  cancelled : Bool := false
  deriving DecidableEq, Repr

namespace Ticker

def steady (now period : Nat) : Ticker :=
  ⟨.ticking, now, period, false⟩

def delayed (now delay period : Nat) : Ticker :=
  ⟨.fresh delay, now, period, false⟩

def cancel (t : Ticker) : Ticker :=
  { t with cancelled := true }

def halt (t : Ticker) : Ticker :=
  { t with phase := .ended }

def isRunning (t : Ticker) : Bool :=
  t.phase != .ended

/-- A tick that comes later than this many milliseconds moves all later ones. -/
def lateness : Nat := 5

def afterStart (t : Ticker) (now delay : Nat) : Ticker :=
  { t with phase := .sleeping, due := now + delay }

/-- A pace without a period cannot begin. -/
def afterSleep (t : Ticker) (now : Nat) : Ticker :=
  if t.period = 0 then t.halt else { t with phase := .ticking, due := now }

def afterTick (t : Ticker) (now : Nat) : Ticker :=
  { t with due := (if t.due + lateness < now then now else t.due) + t.period }

/--
A task that has been told to stop ends when it is polled, unless its timer has rung as well and
`timerFirst` settles that this is taken.
-/
def obey (t : Ticker) (now : Nat) (timerFirst : Bool) : Ticker :=
  if t.cancelled && !(timerFirst && decide (t.due ≤ now)) then t.halt else t

def poll (t : Ticker) (now : Nat) (timerFirst : Bool) : Bool × Ticker :=
  let t := t.obey now timerFirst
  if now < t.due then (false, t)
  else
    match t.phase with
    | .fresh delay => (false, t.afterStart now delay)
    | .sleeping => (false, t.afterSleep now)
    | .ticking => if t.period = 0 then (false, t.halt) else (true, t.afterTick now)
    | .ended => (false, t)

def remaining (t : Ticker) (limit : Nat) : Nat :=
  match t.phase with
  | .fresh _ => 2 * (limit - t.due) + 3
  | .sleeping => 2 * (limit - t.due) + 2
  | .ticking => 2 * (limit - t.due) + 1
  | .ended => 0

theorem remaining_obey_le (t : Ticker) (now limit : Nat) (timerFirst : Bool) :
    (t.obey now timerFirst).remaining limit ≤ t.remaining limit := by
  rw [obey]
  split
  · exact Nat.zero_le _
  · exact Nat.le_refl _

theorem remaining_poll_lt (t : Ticker) (limit : Nat) (hp : t.phase ≠ .ended)
    (hl : t.due < limit) :
    (t.poll t.due true).2.remaining limit < t.remaining limit := by
  obtain ⟨phase, due, period, cancelled⟩ := t
  cases phase with
  | ended => exact absurd rfl hp
  | fresh delay =>
    simp_all [poll, obey, afterStart, remaining]
    omega
  | sleeping =>
    by_cases h : period = 0 <;> simp_all [poll, obey, afterSleep, halt, remaining]
  | ticking =>
    by_cases h : period = 0
    · simp_all [poll, obey, halt, remaining]
    · have : ¬ due + lateness < due := by simp [lateness]
      simp_all [poll, obey, afterTick, remaining]
      omega

/--
The times before `limit` at which the task acts, polled whenever its timer rings. If it has been told
to stop, it is run on only as long as its timer is taken first.
-/
def run (t : Ticker) (limit : Nat) : List Nat × Ticker :=
  if _hp : t.phase = .ended then ([], t)
  else if _hl : limit ≤ t.due then ([], t)
  else
    let (times, last) := ((t.poll t.due true).2.obey t.due true).run limit
    (if (t.poll t.due true).1 then t.due :: times else times, last)
termination_by t.remaining limit
decreasing_by
  exact Nat.lt_of_le_of_lt (remaining_obey_le _ t.due limit true)
    (remaining_poll_lt t limit _hp (by omega))

/-- A task that has been run up to `limit` does nothing more before it. -/
theorem due_run (t : Ticker) (limit : Nat) :
    (t.run limit).2.isRunning = true → limit ≤ (t.run limit).2.due := by
  fun_induction run t limit with
  | case1 t hp => simp [isRunning, hp]
  | case2 t hp hl => exact fun _ => hl
  | case3 t hp hl times last heq ih => simpa [heq] using ih

end Ticker

end PeerBook
