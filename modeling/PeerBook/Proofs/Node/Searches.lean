import PeerBook.Proofs.Node.ContactList

namespace PeerBook

open StoreKind

namespace Directory

variable {β : Type} [DirectoryBackend β] [Timer] {timeout : Nat} {backend : β}
  {answer : String → Option Record}

def Steady (timeout : Nat) (backend : β) (answer : String → Option Record) : Prop :=
  ∀ asked identity,
    (lookup timeout (afterLookups backend asked) identity).outcome = answer identity

theorem Steady.outcome (h : Steady timeout backend answer) (identity : String) :
    (lookup timeout backend identity).outcome = answer identity :=
  h [] identity

theorem Steady.after (h : Steady timeout backend answer) (asked : List String) :
    Steady timeout (afterLookups backend asked) answer := by
  intro more identity
  rw [← h (asked ++ more) identity, afterLookups, afterLookups, afterLookups, List.foldl_append]

theorem Steady.identity (h : Steady timeout backend answer) {identity : String} {r : Record}
    (hr : answer identity = some r) : r.identity = identity :=
  identity_of_lookup timeout backend identity r ((h.outcome identity).trans hr)

theorem steady_of_unchanged
    (h : ∀ identity, (DirectoryBackend.lookup backend identity).2 = backend) :
    Steady timeout backend fun identity => (lookup timeout backend identity).outcome := by
  have hsame (asked : List String) : afterLookups backend asked = backend := by
    induction asked with
    | nil => rfl
    | cons identity asked ih => rwa [afterLookups, List.foldl_cons, h]
  intro asked identity
  rw [hsame]

end Directory

namespace Contacts

/-- What comes of a search for a number, and the calls on the store with which it is noted, from
what is stored under the hash of the number and what the directory says about it. -/
inductive Search (name digits identity : String) (answer : Option Record) :
    Option Record → Contact → List Call → Prop
  | known {stored : Record} (h : stored.contactHint.isSome) :
      Search name digits identity answer (some stored)
        ⟨name, digits, identity, .known, some stored⟩ []
  | hinted {stored : Record} (h : stored.contactHint = none) :
      Search name digits identity answer (some stored)
        ⟨name, digits, identity, .known, some { stored with contactHint := some digits }⟩
        [.upsert { stored with contactHint := some digits }]
  | notFound (h : answer = none) :
      Search name digits identity answer none ⟨name, digits, identity, .notFound, none⟩ []
  | found {r : Record} (h : answer = some r) :
      Search name digits identity answer none
        ⟨name, digits, identity, .found,
          some { r with contactHint := some digits, synced := true }⟩
        [.upsert { r with contactHint := some digits, synced := true }, .trim]

end Contacts

namespace Cluster

variable {σ β α γ : Type} [StoreKind σ] {i : Nat} {n m : Node σ} {draws : Nat → Draws}
  {c d : Cluster σ β}

theorem exists_await {answer : Directory.Answer α β} (draws : Nat → Draws)
    (hm : c.nodes[i]? = some m)
    (h : ∀ call ∈ c.callsMeanwhile i answer.elapsed, ¬call.IsSweep) :
    ∃ o, (c.await draws answer).2.nodes[i]? = some o ∧ o.store = m.store := by
  obtain ⟨o, ho, hwait⟩ := becomes_await i c draws answer m hm
  have hnone : c.callsMeanwhile i answer.elapsed = [] :=
    List.eq_nil_iff_forall_not_mem.mpr fun call hcall =>
      h call hcall (c.isSweep_of_mem_callsMeanwhile i answer.elapsed call hcall)
  rw [hnone] at hwait
  exact ⟨o, ho, hwait.store⟩

variable [DirectoryBackend β] [Timer]

def Undisturbed (i : Nat) (n : Node σ) (draws : Nat → Draws) (p : Script α) (c : Cluster σ β) :
    Prop :=
  ∀ call ∈ callsOfScript i n draws p c, ¬call.IsSweep

theorem callsOfScript_bind {p : Script α} {f : α → Script γ} {a : α}
    (h : p.run (host i n draws) c = (.ok a, d)) :
    callsOfScript i n draws (p >>= f) c =
      callsOfScript i n draws p c ++ callsOfScript i n draws (f a) d := by
  change callsOfScript i n draws (p.bind f) c = _
  induction p generalizing c with
  | done b =>
      cases h
      rfl
  | get identity next ih =>
      rw [Script.run] at h
      rw [Script.bind, callsOfScript, callsOfScript]
      cases hread : (host i n draws).get? c identity with
      | error fault =>
          rw [hread] at h
          cases h
      | ok found =>
          rw [hread] at h
          exact congrArg (Call.get identity :: ·) (ih found h)
  | upsert r next ih =>
      rw [Script.run] at h
      rw [Script.bind, callsOfScript, callsOfScript]
      cases hwrite : (host i n draws).upsert c r with
      | error fault =>
          rw [hwrite] at h
          cases h
      | ok e =>
          rw [hwrite] at h
          exact congrArg (Call.upsert r :: ·) (ih () h)
  | trim next ih =>
      rw [Script.run] at h
      rw [Script.bind, callsOfScript, callsOfScript]
      cases htrim : (host i n draws).trim c with
      | error fault =>
          rw [htrim] at h
          cases h
      | ok result =>
          rw [htrim] at h
          exact congrArg (Call.trim :: ·) (ih result.1 h)
  | lookup identity next ih =>
      rw [Script.bind, callsOfScript, callsOfScript, List.append_assoc]
      exact congrArg (_ ++ ·) (ih _ h)
  | publish identity r next ih =>
      rw [Script.bind, callsOfScript, callsOfScript, List.append_assoc]
      exact congrArg (_ ++ ·) (ih _ h)

theorem Undisturbed.of_bind {p : Script α} {f : α → Script γ} {a : α}
    (h : Undisturbed i n draws (p >>= f) c) (hrun : p.run (host i n draws) c = (.ok a, d)) :
    Undisturbed i n draws p c ∧ Undisturbed i n draws (f a) d := by
  rw [Undisturbed, callsOfScript_bind hrun] at h
  exact List.forall_mem_append.mp h

open Contacts

variable {salt name digits identity : String} {x : Contact} {stored : Record}
  {answer : Option Record}

theorem search_of_hint (hm : c.nodes[i]? = some m)
    (h : (hint name digits identity stored).run (host i n draws) c = (.ok x, d)) :
    ∃ calls o, Search name digits identity answer (some stored) x calls ∧
      d.nodes[i]? = some o ∧ o.store = after m.store calls := by
  rw [hint] at h
  split at h
  · rename_i hhint
    cases h
    exact ⟨_, m, .known hhint, hm, rfl⟩
  · rename_i hhint
    rw [Script.run] at h
    cases hwrite : (host i n draws).upsert c { stored with contactHint := some digits } with
    | error fault =>
        rw [hwrite] at h
        cases h
    | ok e =>
        rw [hwrite] at h
        cases h
        obtain ⟨t, ht, ho⟩ := host_upsert_eq_ok hm hwrite
        refine ⟨_, _, .hinted (by simpa using hhint), ho, ?_⟩
        rw [after_cons, perform_upsert_eq ht]
        rfl

theorem search_of_keepAnswer (hm : c.nodes[i]? = some m)
    (h : (keepAnswer name digits identity answer).run (host i n draws) c = (.ok x, d)) :
    ∃ calls o, Search name digits identity answer none x calls ∧
      d.nodes[i]? = some o ∧ o.store = after m.store calls := by
  cases answer with
  | none =>
      cases h
      exact ⟨_, m, .notFound rfl, hm, rfl⟩
  | some r =>
      rw [keepAnswer, Script.run] at h
      cases hwrite : (host i n draws).upsert c
          { r with contactHint := some digits, synced := true } with
      | error fault =>
          rw [hwrite] at h
          cases h
      | ok e =>
          obtain ⟨t, ht, he⟩ := host_upsert_eq_ok hm hwrite
          simp only [hwrite, Script.run] at h
          cases htrim : (host i n draws).trim e with
          | error fault =>
              rw [htrim] at h
              cases h
          | ok result =>
              rw [htrim] at h
              cases h
              obtain ⟨u, hu, ho⟩ := host_trim_eq_ok he htrim
              refine ⟨_, _, .found rfl, ho, ?_⟩
              rw [after_cons, perform_upsert_eq ht, after_cons]
              exact (congrArg Prod.snd (perform_trim_eq hu)).symm

/-- What a node's search for a number comes to. -/
theorem search_of_find (hm : c.nodes[i]? = some m)
    (hquiet : Undisturbed i n draws (find salt name digits) c)
    (h : (find salt name digits).run (host i n draws) c = (.ok x, d)) :
    ∃ found calls o, RecordStore.get? m.store (Phone.hash salt digits) = .ok found ∧
      Search name digits (Phone.hash salt digits)
        (Directory.lookup (timeoutOf n) c.directory (Phone.hash salt digits)).outcome found x
        calls ∧
      d.nodes[i]? = some o ∧ o.store = after m.store calls := by
  rcases find_cases h with ⟨stored, hread, hrun⟩ | ⟨hread, hrun⟩
  · rw [host_get?_eq hm] at hread
    obtain ⟨calls, o, hsearch, ho⟩ := search_of_hint hm hrun
    exact ⟨_, calls, o, hread, hsearch, ho⟩
  · rw [Undisturbed, find_eq, callsOfScript, hread] at hquiet
    obtain ⟨hmeanwhile, -⟩ := List.forall_mem_append.mp (List.forall_mem_cons.mp hquiet).2
    obtain ⟨o, ho, hstore⟩ := exists_await draws hm hmeanwhile
    obtain ⟨calls, l, hsearch, hl, hcalls⟩ := search_of_keepAnswer ho hrun
    rw [host_get?_eq hm] at hread
    exact ⟨_, calls, l, hread, hsearch, hl, hstore ▸ hcalls⟩

end Cluster

end PeerBook
