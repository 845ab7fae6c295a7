import Mathlib.Data.List.Induction
import PeerBook.Proofs.Gossip.Reception

namespace PeerBook

namespace Gossiper

inductive Act where
  | receive (text source : String) (now : Nat)
  | round (draws : Draws) (now : Nat)
  | markActive (identity address : String) (now : Nat)
  | markInactive (identity : String)
  | expire (now : Nat)
  /-- The store is used by others than the node itself. -/
  | call (call : Call)

inductive Outcome where
  | received (reception : Reception)
  | rounded (sent : Except Fault Nat)
  | expired (peers : Nat)
  | answered (answer : Except Fault Answer)
  | done

variable {σ : Type} [StoreKind σ]

def act (g : Gossiper σ) : Act → Outcome × Gossiper σ
  | .receive text source now => (g.receive text source now).map .received id
  | .round draws now => (g.round draws now).map .rounded id
  | .markActive identity address now => (.done, g.markActive identity address now)
  | .markInactive identity => (.done, g.markInactive identity)
  | .expire now => (g.expireInactive now).map .expired id
  | .call call =>
    (StoreKind.perform g.store call).map .answered fun store => { g with store }

def run (g : Gossiper σ) (acts : List Act) : Gossiper σ :=
  acts.foldl (fun g a => (g.act a).2) g

def history (g : Gossiper σ) : List Act → List (Act × Outcome)
  | [] => []
  | a :: acts => (a, (g.act a).1) :: history (g.act a).2 acts

theorem run_cons (g : Gossiper σ) (a : Act) (acts : List Act) :
    g.run (a :: acts) = (g.act a).2.run acts := rfl

theorem run_concat (g : Gossiper σ) (acts : List Act) (a : Act) :
    g.run (acts ++ [a]) = ((g.run acts).act a).2 := by
  rw [run, List.foldl_concat]
  rfl

theorem history_concat (g : Gossiper σ) (acts : List Act) (a : Act) :
    g.history (acts ++ [a]) = g.history acts ++ [(a, ((g.run acts).act a).1)] := by
  induction acts generalizing g with
  | nil => rfl
  | cons first acts ih => exact congrArg _ (ih (g.act first).2)

/-- Induction on a run whose times do not run backwards. An act without a time of its own may come
at any time. -/
theorem induction_on_times {time? : Act → Option Nat} {motive : List Act → Nat → Prop}
    (start : ∀ now, motive [] now)
    (wait : ∀ acts before now, before ≤ now → motive acts before → motive acts now)
    (step : ∀ acts a now, (∀ time ∈ time? a, time = now) → motive acts now →
      motive (acts ++ [a]) now)
    {acts : List Act} {now : Nat} (htimes : (acts.filterMap time? ++ [now]).Pairwise (· ≤ ·)) :
    motive acts now := by
  induction acts using List.reverseRecOn generalizing now with
  | nil => exact start now
  | append_singleton acts a ih =>
      rw [List.filterMap_append] at htimes
      cases htime : time? a with
      | none =>
          have hbefore : (acts.filterMap time? ++ [now]).Pairwise (· ≤ ·) := by
            simpa [htime] using htimes
          exact step acts a now (by simp [htime]) (ih hbefore)
      | some before =>
          have hone : [a].filterMap time? = [before] := by simp [htime]
          rw [hone] at htimes
          obtain ⟨hbefore, -, hlast⟩ := List.pairwise_append.mp htimes
          have hle : before ≤ now := hlast before (by simp) now (by simp)
          exact wait _ before now hle (step acts a before (by simp [htime]) (ih hbefore))

end Gossiper

end PeerBook
