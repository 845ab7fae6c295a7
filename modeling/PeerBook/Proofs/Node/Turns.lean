import Mathlib.Data.List.Basic
import PeerBook.Proofs.Node.Scripts

namespace PeerBook.Script

variable {α β ω : Type} {host : Host ω} {u v w : ω}

def lookups (host : Host ω) : Script α → ω → List String
  | done _, _ => []
  | get identity next, w =>
    match host.get? w identity with
    | .ok found => (next found).lookups host w
    | .error _ => []
  | upsert r next, w =>
    match host.upsert w r with
    | .ok w => (next ()).lookups host w
    | .error _ => []
  | trim next, w =>
    match host.trim w with
    | .ok (evicted, w) => (next evicted).lookups host w
    | .error _ => []
  | lookup identity next, w =>
    let (found, w) := host.lookup w identity
    identity :: (next found).lookups host w
  | publish identity r next, w =>
    let (accepted, w) := host.publish w identity r
    (next accepted).lookups host w

theorem lookups_bind {p : Script α} {f : α → Script β} {a : α}
    (h : p.run host w = (.ok a, v)) :
    (p >>= f).lookups host w = p.lookups host w ++ (f a).lookups host v := by
  change (p.bind f).lookups host w = _
  induction p generalizing w with
  | done b =>
      cases h
      rfl
  | get identity next ih =>
      rw [run] at h
      rw [bind, lookups, lookups]
      cases hread : host.get? w identity with
      | error fault =>
          rw [hread] at h
          cases h
      | ok found =>
          rw [hread] at h
          exact ih found h
  | upsert r next ih =>
      rw [run] at h
      rw [bind, lookups, lookups]
      cases hwrite : host.upsert w r with
      | error fault =>
          rw [hwrite] at h
          cases h
      | ok w' =>
          rw [hwrite] at h
          exact ih () h
  | trim next ih =>
      rw [run] at h
      rw [bind, lookups, lookups]
      cases htrim : host.trim w with
      | error fault =>
          rw [htrim] at h
          cases h
      | ok result =>
          rw [htrim] at h
          exact ih result.1 h
  | lookup identity next ih => exact congrArg (identity :: ·) (ih _ h)
  | publish identity r next ih => exact ih _ h

def turns (host : Host ω) (f : α → Script β) : List α → ω → List (α × ω)
  | [], _ => []
  | a :: as, w => (a, w) :: turns host f as ((f a).run host w).2

variable {f : α → Script β} {as more : List α} {bs : List β}

theorem map_fst_turns (host : Host ω) (f : α → Script β) (as : List α) (w : ω) :
    (turns host f as w).map Prod.fst = as := by
  induction as generalizing w with
  | nil => rfl
  | cons a as ih => rw [turns, List.map_cons, ih]

theorem turns_append (h : (as.mapM f).run host w = (.ok bs, v)) (more : List α) :
    turns host f (as ++ more) w = turns host f as w ++ turns host f more v := by
  induction as generalizing w bs with
  | nil =>
      cases h
      rfl
  | cons a as ih =>
      obtain ⟨b, rest, v', rfl, hfirst, hrest⟩ := run_mapM_cons_eq_ok h
      rw [List.cons_append, turns, hfirst, ih hrest, turns, hfirst, List.cons_append]

/-- Each result is that of a run in the state of the member's turn. -/
theorem map_turns (h : (as.mapM f).run host w = (.ok bs, u)) :
    (turns host f as w).map (fun turn => ((f turn.1).run host turn.2).1) = bs.map .ok := by
  induction as generalizing w bs with
  | nil =>
      cases h
      rfl
  | cons a as ih =>
      obtain ⟨b, rest, v, rfl, hfirst, hrest⟩ := run_mapM_cons_eq_ok h
      rw [turns, hfirst, List.map_cons, ih hrest, hfirst, List.map_cons]

theorem exists_of_mem_turns (h : (as.mapM f).run host w = (.ok bs, u)) {turn : α × ω}
    (hturn : turn ∈ turns host f as w) : ∃ b ∈ bs, ((f turn.1).run host turn.2).1 = .ok b := by
  have hresult := List.mem_map_of_mem (f := fun turn => ((f turn.1).run host turn.2).1) hturn
  rw [map_turns h] at hresult
  obtain ⟨b, hb, heq⟩ := List.mem_map.mp hresult
  exact ⟨b, hb, heq.symm⟩

theorem exists_turn_of_mem (h : (as.mapM f).run host w = (.ok bs, u)) {b : β} (hb : b ∈ bs) :
    ∃ turn ∈ turns host f as w, ((f turn.1).run host turn.2).1 = .ok b := by
  have hresult : (.ok b : Except Fault β) ∈ bs.map .ok := List.mem_map_of_mem hb
  rw [← map_turns h] at hresult
  exact List.mem_map.mp hresult

theorem lookups_mapM (h : (as.mapM f).run host w = (.ok bs, u)) :
    (as.mapM f).lookups host w =
      (turns host f as w).flatMap fun turn => (f turn.1).lookups host turn.2 := by
  induction as generalizing w bs with
  | nil => rfl
  | cons a as ih =>
      obtain ⟨b, rest, v, rfl, hfirst, hrest⟩ := run_mapM_cons_eq_ok h
      have hdone : (pure (b :: rest) : Script (List β)).lookups host u = [] := rfl
      rw [List.mapM_cons, lookups_bind hfirst, lookups_bind hrest, hdone, List.append_nil, turns,
        hfirst, List.flatMap_cons, ih hrest]

end PeerBook.Script
