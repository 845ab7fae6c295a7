import PeerBook.Ticker

namespace PeerBook

structure Schedule.Task (α : Type) where
  duty : α
  ticker : Ticker
  /-- Only the latest task for a duty can be stopped; those before it go on by themselves. -/
  isHeld : Bool := true

structure Schedule (α : Type) where
  tasks : List (Schedule.Task α) := []

namespace Schedule

variable {α : Type}

namespace Task

def due? (task : Task α) : Option Nat :=
  if task.ticker.isRunning then some task.ticker.due else none

def isDue (now : Nat) (task : Task α) : Bool :=
  task.due?.any fun due => due ≤ now

def turn (now : Nat) (task : Task α) : List α × Task α :=
  let outcome := task.ticker.run (now + 1)
  (outcome.1.map fun _ => task.duty, { task with ticker := outcome.2 })

def obey (now : Nat) (timerFirst : Bool) (task : Task α) : Task α :=
  { task with ticker := task.ticker.obey now timerFirst }

theorem lt_due_turn (now : Nat) (task : Task α) {due : Nat}
    (h : (task.turn now).2.due? = some due) : now < due := by
  by_cases running : (task.ticker.run (now + 1)).2.isRunning = true
  · have later := task.ticker.due_run (now + 1) running
    have next : (task.ticker.run (now + 1)).2.due = due := by
      simpa [turn, due?, running] using h
    omega
  · simp [turn, due?, running] at h

end Task

section Handles

variable [DecidableEq α]

def held? (s : Schedule α) (duty : α) : Option Ticker :=
  (s.tasks.find? fun task => task.isHeld && task.duty = duty).map Task.ticker

def isRunning? (s : Schedule α) (duty : α) : Option Bool :=
  (s.held? duty).map Ticker.isRunning

def start (s : Schedule α) (duty : α) (ticker : Ticker) : Schedule α :=
  let before := s.tasks.map fun task =>
    if task.duty = duty then { task with isHeld := false } else task
  ⟨before ++ [{ duty := duty, ticker := ticker }]⟩

def cancel (s : Schedule α) (duty : α) : Schedule α :=
  ⟨s.tasks.map fun task =>
    if task.isHeld && task.duty = duty then { task with ticker := task.ticker.cancel } else task⟩

def release (s : Schedule α) (duty : α) : Schedule α :=
  ⟨s.tasks.filter fun task => !(task.isHeld && task.duty = duty)⟩

end Handles

def hasDetached (s : Schedule α) : Bool :=
  s.tasks.any fun task => !task.isHeld && task.ticker.isRunning

def nextDue? (s : Schedule α) : Option Nat :=
  (s.tasks.filterMap Task.due?).min?

/-- Polls the due tasks one after another; their timers are then set after those of the others. -/
def turn (s : Schedule α) (now : Nat) : List α × Schedule α :=
  let polled := (s.tasks.filter (Task.isDue now)).map (Task.turn now)
  (polled.flatMap Prod.fst,
    ⟨s.tasks.filter (fun task => !task.isDue now) ++ polled.map Prod.snd⟩)

theorem lt_nextDue_turn (s : Schedule α) {now due : Nat}
    (h : (s.turn now).2.nextDue? = some due) : now < due := by
  obtain ⟨task, hmem, hdue⟩ := List.mem_filterMap.1 (List.min?_mem h)
  rcases List.mem_append.1 hmem with hw | hp
  · have := (List.mem_filter.1 hw).2
    simp_all [Task.isDue]
  · obtain ⟨_, hpolled, rfl⟩ := List.mem_map.1 hp
    obtain ⟨task, _, rfl⟩ := List.mem_map.1 hpolled
    exact Task.lt_due_turn now task hdue

def run (s : Schedule α) (limit : Nat) : List (Nat × α) × Schedule α :=
  match _hs : s.nextDue? with
  | none => ([], s)
  | some now =>
    if _h : limit ≤ now then ([], s)
    else
      let (later, last) := (s.turn now).2.run limit
      ((s.turn now).1.map (now, ·) ++ later, last)
termination_by limit - s.nextDue?.getD limit
decreasing_by
  rw [_hs, Option.getD_some]
  cases h : (s.turn now).2.nextDue? with
  | none => rw [Option.getD_none]; omega
  | some due => have := lt_nextDue_turn s h; rw [Option.getD_some]; omega

def obey (s : Schedule α) (now : Nat) (timerFirst : Bool) : Schedule α :=
  ⟨s.tasks.map (Task.obey now timerFirst)⟩

end Schedule

end PeerBook
