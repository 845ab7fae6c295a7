import PeerBook.Gossip.Rounds
import PeerBook.Proofs.Gossip.Liveness
import PeerBook.Proofs.Ticker.Pace

namespace PeerBook

structure Stretch (σ : Type) where
  deed : Gossiper σ → Gossiper σ
  milliseconds : Nat

inductive Moment (σ : Type) where
  | deed (time : Nat) (f : Gossiper σ → Gossiper σ)
  | round (time : Nat)

namespace Stretch

variable {σ : Type}

def elapsed : List (Stretch σ) → Nat
  | [] => 0
  | s :: stretches => s.milliseconds + elapsed stretches

def deeds (clock : Nat) : List (Stretch σ) → List (Nat × (Gossiper σ → Gossiper σ))
  | [] => []
  | s :: stretches => (clock, s.deed) :: deeds (clock + s.milliseconds) stretches

def moments (t : Ticker) (clock : Nat) : List (Stretch σ) → List (Moment σ)
  | [] => ((t.run clock).2.run (clock + 1)).1.map .round
  | s :: stretches => .deed clock s.deed ::
    (((t.run clock).2.run (clock + s.milliseconds)).1.map .round ++
      moments t (clock + s.milliseconds) stretches)

end Stretch

namespace Moment

variable {σ : Type}

def time : Moment σ → Nat
  | deed time _ => time
  | round time => time

def deed? : Moment σ → Option (Nat × (Gossiper σ → Gossiper σ))
  | deed time f => some (time, f)
  | round _ => none

def round? : Moment σ → Option Nat
  | deed _ _ => none
  | round time => some time

def after [RecordStore σ] (draws : Nat → Draws) (g : Gossiper σ) : Moment σ → Gossiper σ
  | deed _ f => f g
  | round time => g.backgroundRound draws time

end Moment

namespace Stretch

variable {σ : Type}

theorem filterMap_round?_map (times : List Nat) :
    (times.map Moment.round : List (Moment σ)).filterMap Moment.round? = times := by
  rw [List.filterMap_map]
  exact List.filterMap_some

theorem filterMap_deed?_map (times : List Nat) :
    (times.map Moment.round : List (Moment σ)).filterMap Moment.deed? = [] := by
  rw [List.filterMap_map]
  exact List.filterMap_eq_nil_iff.mpr fun _ _ => rfl

theorem deed?_moments (t : Ticker) (clock : Nat) (stretches : List (Stretch σ)) :
    (moments t clock stretches).filterMap Moment.deed? = deeds clock stretches := by
  induction stretches generalizing clock with
  | nil => exact filterMap_deed?_map _
  | cons s stretches ih =>
      rw [moments, List.filterMap_cons, List.filterMap_append, filterMap_deed?_map, ih]
      rfl

/-- The rounds are those of the task, however the time is cut. -/
theorem round?_moments (t : Ticker) (clock : Nat) (stretches : List (Stretch σ)) :
    (t.run clock).1 ++ (moments t clock stretches).filterMap Moment.round? =
      (t.run (clock + elapsed stretches + 1)).1 := by
  induction stretches generalizing clock with
  | nil =>
      rw [moments, filterMap_round?_map]
      exact (congrArg Prod.fst (t.run_run (Nat.le_add_right clock 1))).symm
  | cons s stretches ih =>
      have hparts := congrArg Prod.fst (t.run_run (Nat.le_add_right clock s.milliseconds))
      rw [moments, List.filterMap_cons, List.filterMap_append, filterMap_round?_map, elapsed,
        ← Nat.add_assoc, ← ih, hparts, List.append_assoc]
      rfl

theorem round?_started [Timer] (c : GossipConfig) (clock : Nat) (paced : c.syncIntervalSecs ≠ 0)
    (stretches : List (Stretch σ)) :
    (moments (c.ticker clock) clock stretches).filterMap Moment.round? =
      beats (clock + Timer.wait (secondsToMillis c.startupDelaySecs))
        (Timer.wait (secondsToMillis c.syncIntervalSecs))
        (clock + elapsed stretches + 1) := by
  have hnone : ((c.ticker clock).run clock).1 = [] :=
    congrArg Prod.fst (Ticker.run_of_le (Nat.le_refl _))
  have hpaced : Timer.wait (secondsToMillis c.syncIntervalSecs) ≠ 0 :=
    Timer.wait_ne_zero (Nat.mul_ne_zero (by decide) fun hzero =>
      paced (UInt64.toNat_inj.mp (hzero.trans rfl)))
  have hrounds := round?_moments (c.ticker clock) clock stretches
  rw [hnone, List.nil_append] at hrounds
  rw [hrounds]
  exact Ticker.run_delayed clock _ _ hpaced

theorem moments_singleton (t : Ticker) (clock : Nat) (s : Stretch σ) : moments t clock [s] =
    .deed clock s.deed :: ((t.run clock).2.run (clock + s.milliseconds + 1)).1.map .round := by
  have hlast := congrArg Prod.snd (t.run_run (Nat.le_add_right clock s.milliseconds))
  have hparts := (t.run clock).2.run_run (Nat.le_add_right (clock + s.milliseconds) 1)
  rw [moments, moments, hlast, hparts, List.map_append]

theorem clock_le_of_mem_moments {t : Ticker} {clock : Nat} {stretches : List (Stretch σ)}
    {m : Moment σ} (h : m ∈ moments t clock stretches) : clock ≤ m.time := by
  induction stretches generalizing clock with
  | nil =>
      obtain ⟨time, htime, rfl⟩ := List.mem_map.mp h
      exact Ticker.mem_run_later htime
  | cons s stretches ih =>
      rcases List.mem_cons.mp h with rfl | h
      · exact Nat.le_refl _
      · rcases List.mem_append.mp h with h | h
        · obtain ⟨time, htime, rfl⟩ := List.mem_map.mp h
          exact Ticker.mem_run_later htime
        · exact Nat.le_of_add_right_le (ih h)

theorem map_time_map (times : List Nat) :
    (times.map Moment.round : List (Moment σ)).map Moment.time = times := by
  rw [List.map_map]
  exact List.map_id _

theorem pairwise_moments (t : Ticker) (clock : Nat) (stretches : List (Stretch σ)) :
    ((moments t clock stretches).map Moment.time).Pairwise (· ≤ ·) := by
  induction stretches generalizing clock with
  | nil =>
      rw [moments, map_time_map]
      exact Ticker.pairwise_run _ _
  | cons s stretches ih =>
      have hfirst : ∀ time ∈ (moments t clock (s :: stretches)).map Moment.time, clock ≤ time := by
        intro time htime
        obtain ⟨m, hm, rfl⟩ := List.mem_map.mp htime
        exact clock_le_of_mem_moments hm
      rw [moments, List.map_cons, List.map_append, map_time_map] at hfirst ⊢
      refine List.pairwise_cons.mpr ⟨fun time h => hfirst time (List.mem_cons_of_mem _ h),
        List.pairwise_append.mpr ⟨Ticker.pairwise_run _ _, ih _, fun time htime later hlater => ?_⟩⟩
      obtain ⟨m, hm, rfl⟩ := List.mem_map.mp hlater
      exact Nat.le_trans (Nat.le_of_lt (Ticker.mem_run htime).2) (clock_le_of_mem_moments hm)

end Stretch

namespace Gossiper

variable {σ : Type} [RecordStore σ]

/-- A round from `g` to `g'` has judged by its own time who is live, and was sent to no others than
the targets that it had then, to their addresses of then. -/
structure Punctual (g g' : Gossiper σ) (draws : Draws) (time : Nat) : Prop where
  activePeers (identity : String) (peer : ActivePeer) :
    g'.activePeers[identity]? = some peer ↔ g.activePeers[identity]? = some peer ∧
      time - peer.lastHeard < secondsToMillis g.config.activePeerTimeoutSecs
  sends : ∃ packet sends, g'.transport = g.transport.sendEach (addressed packet sends) ∧
    (sends.map Prod.fst).Sublist ((g.expireInactive time).2.targets draws) ∧
    ∀ s ∈ sends, (g.expireInactive time).2.addressOf s.1 = .ok (some s.2)

theorem punctual_round (g : Gossiper σ) (draws : Draws) (time : Nat) :
    Punctual g (g.round draws time).2 draws time := by
  obtain ⟨events, packet, sends, htargeted, haddress, -, hround⟩ := g.round_eq_sends draws time
  constructor
  case activePeers =>
    intro identity peer
    rw [hround]
    exact activePeers_expireInactive.trans (and_congr_right' decide_eq_true_iff)
  case sends => exact ⟨packet, sends, by rw [hround]; rfl, htargeted, haddress⟩

end Gossiper

namespace GossipHost

variable {σ : Type} [RecordStore σ]

def pass (draws : Nat → Draws) (host : GossipHost σ) (s : Stretch σ) : GossipHost σ :=
  { host with gossiper := s.deed host.gossiper }.advance s.milliseconds draws

def settle (draws : Nat → Draws) (host : GossipHost σ) : GossipHost σ :=
  host.runUntil (host.clock + 1) draws

/-- The node has been started, the stretches have passed, and what has happened to it is this: the
deeds of others, and rounds when the delay is over and after every interval. -/
structure OnTime [Timer] (draws : Nat → Draws) (host : GossipHost σ) (delay interval : Nat)
    (stretches : List (Stretch σ)) (moments : List (Moment σ)) : Prop where
  clock : (stretches.foldl (pass draws) host.startTask).clock =
    host.clock + Stretch.elapsed stretches
  gossiper : ((stretches.foldl (pass draws) host.startTask).settle draws).gossiper =
    moments.foldl (Moment.after draws) host.gossiper
  deeds : moments.filterMap Moment.deed? = Stretch.deeds host.clock stretches
  rounds :
    let elapsed := Stretch.elapsed stretches
    moments.filterMap Moment.round? =
      (List.range (if elapsed < delay then 0 else 1 + (elapsed - delay) / interval)).map
        (host.clock + delay + · * interval)
  ordered : (moments.map Moment.time).Pairwise (· ≤ ·)
  punctual (before after : List (Moment σ)) (time : Nat) : moments = before ++ .round time :: after →
    let g := before.foldl (Moment.after draws) host.gossiper
    g.Punctual ((Moment.round time).after draws g) (draws time) time

theorem clock_pass (draws : Nat → Draws) (host : GossipHost σ) (s : Stretch σ) :
    (host.pass draws s).clock = host.clock + s.milliseconds := by
  rw [pass, advance]
  split
  case isTrue hzero => rw [hzero]; rfl
  case isFalse => rfl

theorem clock_foldl_pass (draws : Nat → Draws) (host : GossipHost σ)
    (stretches : List (Stretch σ)) : (stretches.foldl (pass draws) host).clock =
      host.clock + Stretch.elapsed stretches := by
  induction stretches generalizing host with
  | nil => rfl
  | cons s stretches ih =>
      rw [List.foldl_cons, ih, clock_pass, Stretch.elapsed, Nat.add_assoc]

section Rounds

variable {rest : List (Schedule.Task Unit)} {t : Ticker} {host : GossipHost σ}

/-- The task `t` is the only one that still runs, and has been run up to `reached`. -/
def Runs (host : GossipHost σ) (rest : List (Schedule.Task Unit)) (t : Ticker) (reached : Nat) :
    Prop :=
  host.tasks = ⟨rest ++ [{ duty := (), ticker := (t.run reached).2 }]⟩

theorem foldl_after_map (draws : Nat → Draws) (g : Gossiper σ) (times : List Nat) :
    (times.map Moment.round).foldl (Moment.after draws) g = g.rounds draws times :=
  List.foldl_map

variable (ended : ∀ task ∈ rest, task.ticker.phase = .ended) (untold : t.cancelled = false)

include ended untold

theorem runUntil_eq {reached : Nat} (h : host.Runs rest t reached) (limit : Nat)
    (draws : Nat → Draws) :
    host.runUntil limit draws =
      { host with
        gossiper := host.gossiper.rounds draws ((t.run reached).2.run limit).1
        tasks := ⟨rest ++ [{ duty := (), ticker := ((t.run reached).2.run limit).2 }]⟩ } := by
  have huntold : (t.run reached).2.cancelled = false := (t.cancelled_run reached).trans untold
  have htimes (times : List Nat) : (times.map (·, ())).map Prod.fst = times := by
    rw [List.map_map]
    exact List.map_id times
  rw [runUntil, h, Schedule.obey_concat ended huntold, Schedule.run_concat ended]
  dsimp only
  rw [htimes]

theorem pass_eq (h : host.Runs rest t host.clock) (draws : Nat → Draws) (s : Stretch σ) :
    (host.pass draws s).gossiper = (s.deed host.gossiper).rounds draws
        ((t.run host.clock).2.run (host.clock + s.milliseconds)).1 ∧
      (host.pass draws s).Runs rest t (host.clock + s.milliseconds) := by
  by_cases hzero : s.milliseconds = 0
  · rw [pass, advance, if_pos hzero, hzero, Nat.add_zero, t.run_again]
    exact ⟨rfl, h⟩
  · let done : GossipHost σ := { host with gossiper := s.deed host.gossiper }
    have hdone : done.Runs rest t host.clock := h
    have hrun := runUntil_eq ended untold hdone (host.clock + s.milliseconds) draws
    rw [pass, advance, if_neg hzero]
    dsimp only
    rw [hrun]
    exact ⟨rfl, by rw [Runs, t.run_run (Nat.le_add_right _ _)]⟩

/-- What a node does while the stretches pass is what their moments say. -/
theorem gossiper_foldl_pass (h : host.Runs rest t host.clock) (draws : Nat → Draws)
    (stretches : List (Stretch σ)) :
    ((stretches.foldl (pass draws) host).settle draws).gossiper =
      (Stretch.moments t host.clock stretches).foldl (Moment.after draws) host.gossiper := by
  induction stretches generalizing host with
  | nil =>
      rw [List.foldl_nil, settle, runUntil_eq ended untold h, Stretch.moments, foldl_after_map]
  | cons s stretches ih =>
      obtain ⟨hgossiper, hruns⟩ := pass_eq ended untold h draws s
      have hclock := clock_pass draws host s
      rw [List.foldl_cons, ih (hclock ▸ hruns), Stretch.moments, List.foldl_cons, List.foldl_append,
        foldl_after_map, hgossiper, hclock]
      rfl

end Rounds

section Starting

variable [Timer]

/-- What happens to a node that is started while none of its earlier tasks runs. -/
theorem gossiper_started (host : GossipHost σ)
    (alone : ∀ task ∈ host.tasks.tasks, task.ticker.phase = .ended) (draws : Nat → Draws)
    (stretches : List (Stretch σ)) :
    ((stretches.foldl (pass draws) host.startTask).settle draws).gossiper =
      (Stretch.moments (host.gossiper.config.ticker host.clock) host.clock stretches).foldl
        (Moment.after draws) host.gossiper := by
  let t := host.gossiper.config.ticker host.clock
  let rest := host.tasks.tasks.map fun task =>
    if task.duty = () then { task with isHeld := false } else task
  have hruns : host.startTask.Runs rest t host.clock := by
    rw [Runs, show t.run host.clock = ([], t) from Ticker.run_of_le (Nat.le_refl _)]
    rfl
  refine gossiper_foldl_pass (fun task hmem => ?_) rfl hruns draws stretches
  obtain ⟨before, hbefore, rfl⟩ := List.mem_map.mp hmem
  split <;> exact alone before hbefore

/-- A node is started while none of its earlier tasks runs, and nobody stops it. Then its rounds take
place exactly when the delay is over and after every interval from then on, as far as its timer can
represent the two; so how many they are depends on the time that has passed and not on how it was
cut. Each round is run at its own time, on what the node was then. In the place of a delay or an
interval that is too long for the timer stands what the timer waits for instead. -/
theorem rounds_on_time (host : GossipHost σ)
    (alone : ∀ task ∈ host.tasks.tasks, task.ticker.phase = .ended)
    (paced : host.gossiper.config.syncIntervalSecs ≠ 0) (draws : Nat → Draws)
    (stretches : List (Stretch σ)) :
    let delay := secondsToMillis host.gossiper.config.startupDelaySecs
    let interval := secondsToMillis host.gossiper.config.syncIntervalSecs
    ∃ moments, OnTime draws host (Timer.wait delay) (Timer.wait interval) stretches moments ∧
      (delay ≤ Timer.longest → interval ≤ Timer.longest →
        OnTime draws host delay interval stretches moments) := by
  intro delay interval
  let moments := Stretch.moments (host.gossiper.config.ticker host.clock) host.clock stretches
  have honTime : OnTime draws host (Timer.wait delay) (Timer.wait interval) stretches moments := by
    constructor
    case clock => exact clock_foldl_pass draws host.startTask stretches
    case gossiper => exact host.gossiper_started alone draws stretches
    case deeds => exact Stretch.deed?_moments _ _ _
    case rounds =>
      intro elapsed
      rw [Stretch.round?_started _ _ paced, beats_elapsed]
    case ordered => exact Stretch.pairwise_moments _ _ _
    case punctual => exact fun before after time _ => Gossiper.punctual_round _ _ _
  refine ⟨moments, honTime, fun hdelay hinterval => ?_⟩
  rwa [Timer.wait_of_le hdelay, Timer.wait_of_le hinterval] at honTime

end Starting

attribute [local instance] Timer.seconds63

/-- With the settings that nobody has changed the rounds come after five seconds and then every
minute. -/
theorem rounds_on_time_unchanged :
    let host : GossipHost MemoryStore := { gossiper := .start (MemoryStore.empty 10) "me" {} }
    ∃ moments, OnTime (fun _ => {}) host 5000 60000
        [⟨id, 7000⟩, ⟨fun g => g.markActive "p" "10.0.0.9:8888" 7000, 58001⟩, ⟨id, 59999⟩] moments ∧
      moments.filterMap Moment.round? = [5000, 65000, 125000] := by
  intro host
  obtain ⟨moments, -, hmoments⟩ := rounds_on_time host nofun (by decide) (fun _ => {})
    [⟨id, 7000⟩, ⟨fun g => g.markActive "p" "10.0.0.9:8888" 7000, 58001⟩, ⟨id, 59999⟩]
  have honTime := hmoments (by decide) (by decide)
  exact ⟨moments, honTime, honTime.rounds.trans (by decide)⟩

theorem foldl_after_of_no_round {moments : List (Moment σ)}
    (h : moments.filterMap Moment.round? = []) (draws : Nat → Draws) (g : Gossiper σ) :
    moments.foldl (Moment.after draws) g =
      (moments.filterMap Moment.deed?).foldl (fun g deed => deed.2 g) g := by
  induction moments generalizing g with
  | nil => rfl
  | cons m moments ih =>
      cases m with
      | deed time f => exact ih h (f g)
      | round time => cases h

/-- A node that should wait for longer than its timer can represent begins its rounds after thirty
years. -/
theorem not_keepsLongDelays :
    ¬∀ host : GossipHost MemoryStore, (∀ task ∈ host.tasks.tasks, task.ticker.phase = .ended) →
      host.gossiper.config.syncIntervalSecs ≠ 0 → ∀ (draws : Nat → Draws)
        (stretches : List (Stretch MemoryStore)),
      ∃ moments, OnTime draws host
        (secondsToMillis host.gossiper.config.startupDelaySecs)
        (secondsToMillis host.gossiper.config.syncIntervalSecs) stretches moments := by
  intro h
  let config : GossipConfig := { startupDelaySecs := 18446744073709551615 }
  let host : GossipHost MemoryStore := { gossiper := .start (MemoryStore.empty 10) "me" config }
  let stretch : Stretch MemoryStore := ⟨id, Timer.substitute⟩
  obtain ⟨moments, hmoments⟩ := h host nofun (by decide) (fun _ => {}) [stretch]
  have hnone : moments.filterMap Moment.round? = [] := hmoments.rounds.trans (by decide)
  have hclaimed := foldl_after_of_no_round hnone (fun _ => {}) host.gossiper
  rw [hmoments.deeds, ← hmoments.gossiper] at hclaimed
  have hlast := host.gossiper_started nofun (fun _ => {}) [stretch]
  have hround : ((config.ticker 0).run (Timer.substitute + 1)).1 = [Timer.substitute] :=
    (Ticker.run_delayed 0 _ _ (by decide)).trans (by decide)
  have hhappens : Stretch.moments (config.ticker 0) 0 [stretch] =
      [.deed 0 id, .round Timer.substitute] := by
    rw [Stretch.moments_singleton, show (config.ticker 0).run 0 = ([], config.ticker 0) from
      Ticker.run_of_le (Nat.le_refl _), Nat.zero_add]
    exact congrArg (fun times => Moment.deed 0 id :: times.map Moment.round) hround
  rw [hclaimed] at hlast
  have hevents := congrArg (fun g => g.events.length) (hlast.trans (congrArg _ hhappens))
  revert hevents
  decide

end GossipHost

end PeerBook
