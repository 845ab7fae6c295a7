import PeerBook.Script

namespace PeerBook

namespace Script

variable {α β γ ω : Type} {host : Host ω} {u v w : ω}

theorem bind_done (p : Script α) : p.bind done = p := by
  induction p with
  | done a => rfl
  | get identity next ih => exact congrArg (get identity) (funext ih)
  | upsert r next ih => exact congrArg (upsert r) (funext ih)
  | trim next ih => exact congrArg trim (funext ih)
  | lookup identity next ih => exact congrArg (lookup identity) (funext ih)
  | publish identity r next ih => exact congrArg (publish identity r) (funext ih)

theorem bind_bind (p : Script α) (f : α → Script β) (g : β → Script γ) :
    (p.bind f).bind g = p.bind fun a => (f a).bind g := by
  induction p with
  | done a => rfl
  | get identity next ih => exact congrArg (get identity) (funext ih)
  | upsert r next ih => exact congrArg (upsert r) (funext ih)
  | trim next ih => exact congrArg trim (funext ih)
  | lookup identity next ih => exact congrArg (lookup identity) (funext ih)
  | publish identity r next ih => exact congrArg (publish identity r) (funext ih)

instance : LawfulMonad Script :=
  .mk' Script bind_done (fun _ _ => rfl) bind_bind

theorem run_bind_eq_ok {p : Script α} {f : α → Script β} {b : β} :
    (p >>= f).run host w = (.ok b, u) ↔
      ∃ a v, p.run host w = (.ok a, v) ∧ (f a).run host v = (.ok b, u) := by
  change (p.bind f).run host w = (.ok b, u) ↔ _
  induction p generalizing w with
  | done a =>
      constructor
      · exact fun h => ⟨a, w, rfl, h⟩
      · rintro ⟨a, v, ⟨⟩, h⟩
        exact h
  | get identity next ih =>
      rw [bind, run, run]
      cases host.get? w identity with
      | error fault => simp
      | ok found => exact ih found
  | upsert r next ih =>
      rw [bind, run, run]
      cases host.upsert w r with
      | error fault => simp
      | ok w => exact ih ()
  | trim next ih =>
      rw [bind, run, run]
      cases host.trim w with
      | error fault => simp
      | ok result => exact ih result.1
  | lookup identity next ih => exact ih _
  | publish identity r next ih => exact ih _

def Returns (holds : α → Prop) : Script α → Prop
  | done a => holds a
  | get _ next | lookup _ next => ∀ found, Returns holds (next found)
  | upsert _ next => Returns holds (next ())
  | trim next => ∀ evicted, Returns holds (next evicted)
  | publish _ _ next => ∀ accepted, Returns holds (next accepted)

theorem Returns.of_run {holds : α → Prop} {p : Script α} {a : α} (hp : p.Returns holds)
    (h : p.run host w = (.ok a, u)) : holds a := by
  induction p generalizing w with
  | done b =>
      cases h
      exact hp
  | get identity next ih =>
      rw [run] at h
      cases hread : host.get? w identity with
      | error fault =>
          rw [hread] at h
          cases h
      | ok found =>
          rw [hread] at h
          exact ih found (hp found) h
  | upsert r next ih =>
      rw [run] at h
      cases hwrite : host.upsert w r with
      | error fault =>
          rw [hwrite] at h
          cases h
      | ok v =>
          rw [hwrite] at h
          exact ih () hp h
  | trim next ih =>
      rw [run] at h
      cases htrim : host.trim w with
      | error fault =>
          rw [htrim] at h
          cases h
      | ok result =>
          rw [htrim] at h
          exact ih result.1 (hp result.1) h
  | lookup identity next ih => exact ih _ (hp _) h
  | publish identity r next ih => exact ih _ (hp _) h

variable {f : α → Script β} {a : α} {as more : List α} {bs : List β}

theorem run_mapM_cons_eq_ok (h : ((a :: as).mapM f).run host w = (.ok bs, u)) :
    ∃ b rest v, bs = b :: rest ∧ (f a).run host w = (.ok b, v) ∧
      (as.mapM f).run host v = (.ok rest, u) := by
  rw [List.mapM_cons, run_bind_eq_ok] at h
  obtain ⟨b, v, hfirst, h⟩ := h
  obtain ⟨rest, v', hrest, h⟩ := run_bind_eq_ok.mp h
  cases h
  exact ⟨b, rest, v, rfl, hfirst, hrest⟩

theorem run_mapM_append_eq_ok (h : ((as ++ more).mapM f).run host w = (.ok bs, u)) :
    ∃ front rest v, bs = front ++ rest ∧ (as.mapM f).run host w = (.ok front, v) ∧
      (more.mapM f).run host v = (.ok rest, u) := by
  rw [List.mapM_append, run_bind_eq_ok] at h
  obtain ⟨front, v, hfront, h⟩ := h
  obtain ⟨rest, v', hrest, h⟩ := run_bind_eq_ok.mp h
  cases h
  exact ⟨front, rest, v, rfl, hfront, hrest⟩

/-- Each result comes from a run of its own. -/
theorem exists_run_of_mem_mapM (h : (as.mapM f).run host w = (.ok bs, u)) :
    ∀ b ∈ bs, ∃ a ∈ as, ∃ v v', (f a).run host v = (.ok b, v') := by
  induction as generalizing w bs with
  | nil =>
      cases h
      exact nofun
  | cons a as ih =>
      obtain ⟨b, rest, v, rfl, hfirst, hrest⟩ := run_mapM_cons_eq_ok h
      refine List.forall_mem_cons.mpr ⟨⟨a, List.mem_cons_self, w, v, hfirst⟩, fun c hc => ?_⟩
      obtain ⟨a', ha', hrun⟩ := ih hrest c hc
      exact ⟨a', List.mem_cons_of_mem a ha', hrun⟩

end Script

end PeerBook
