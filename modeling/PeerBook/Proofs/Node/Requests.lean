import Mathlib.Algebra.GroupWithZero.Nat
import PeerBook.Proofs.Node.Interleaving
import PeerBook.Proofs.Store.Warrants

namespace PeerBook

open StoreKind RefusingStore

namespace Directory

variable {β : Type}

theorem elapsed_within_le [Timer] {α : Type} (timeout : Nat) (reply : Reply α × β) :
    (within timeout reply).elapsed ≤ timeout := by
  rw [within]
  split
  case isTrue hintime => exact hintime.trans (Timer.wait_le timeout)
  case isFalse => exact Timer.wait_le timeout

variable [DirectoryBackend β] [Timer]

theorem elapsed_lookup_le (timeout : Nat) (backend : β) (identity : String) :
    (lookup timeout backend identity).elapsed ≤ timeout :=
  elapsed_within_le timeout _

theorem elapsed_publish_le (timeout : Nat) (backend : β) (identity : String) (r : Record) :
    (publish timeout backend identity r).elapsed ≤ timeout := by
  rw [publish]
  split
  · exact Nat.zero_le _
  · exact elapsed_within_le timeout _

theorem trusted_of_lookup (timeout : Nat) (backend : β) (identity : String) :
    ∀ r ∈ (lookup timeout backend identity).outcome, r.identity = identity ∧ r.synced = true := by
  intro r hr
  obtain ⟨answer, houtcome⟩ := exists_outcome_lookup timeout backend identity
  rw [houtcome] at hr
  obtain ⟨given, -, haccept⟩ := Option.bind_eq_some_iff.mp hr
  rw [accept?] at haccept
  split at haccept
  · cases haccept
    exact ⟨rfl, rfl⟩
  · cases haccept

end Directory

namespace Script

variable {α β : Type} {may : Record → Option Record → Prop}

def lasting (seen : Option (String × Option Record)) : Option (String × Option Record) :=
  seen.filter fun p => p.2.isNone

/-- Whether every record that is stored has a warrant, either always or for what has just been read
under its identity. Directories are believed about the identity that was asked for. -/
def Warranted (may : Record → Option Record → Prop) :
    (seen : Option (String × Option Record)) → Script α → Prop
  | _, done _ => True
  | _, get identity next => ∀ found : Option Record, (∀ r ∈ found, r.identity = identity) →
      Warranted may (some (identity, found)) (next found)
  | seen, upsert r next =>
      ((∀ found, may r found) ∨ ∃ found, seen = some (r.identity, found) ∧ may r found) ∧
        Warranted may none (next ())
  | _, trim next => ∀ evicted, Warranted may none (next evicted)
  | seen, lookup identity next => ∀ found : Option Record,
      (∀ r ∈ found, r.identity = identity ∧ r.synced = true) →
        Warranted may (lasting seen) (next found)
  | seen, publish _ _ next => ∀ accepted, Warranted may (lasting seen) (next accepted)

theorem Warranted.bind {seen : Option (String × Option Record)} {p : Script α} {f : α → Script β}
    (hp : p.Warranted may seen) (hf : ∀ a seen, (f a).Warranted may seen) :
    (p.bind f).Warranted may seen := by
  induction p generalizing seen with
  | done a => exact hf a seen
  | get identity next ih | lookup identity next ih =>
      exact fun found hfound => ih found (hp found hfound)
  | upsert r next ih => exact ⟨hp.1, ih () hp.2⟩
  | trim next ih => exact fun evicted => ih evicted (hp evicted)
  | publish identity r next ih => exact fun accepted => ih accepted (hp accepted)

theorem Warranted.mapM {f : α → Script β} {as : List α}
    (hf : ∀ a ∈ as, ∀ seen, (f a).Warranted may seen) (seen : Option (String × Option Record)) :
    (as.mapM f).Warranted may seen := by
  induction as generalizing seen with
  | nil => trivial
  | cons a as ih =>
      obtain ⟨ha, has⟩ := List.forall_mem_cons.mp hf
      rw [List.mapM_cons]
      exact (ha seen).bind fun b seen => (ih has seen).bind fun bs seen => trivial

end Script

theorem Schedule.run_of_idle {α : Type} {s : Schedule α} (h : s.tasks = []) (limit : Nat) :
    s.run limit = ([], ⟨[]⟩) := by
  rw [run, nextDue?, h]
  exact congrArg (([], ·)) (congrArg Schedule.mk h)

namespace Node

variable {σ : Type} [StoreKind σ]

theorem tasks_swept (n : Node σ) (today : Timestamp) : (n.swept today).tasks = n.tasks := by
  rw [swept, sweepStale]
  cases RecordStore.sweep n.store (n.staleBefore today) <;> rfl

theorem tasks_perform (draws : Nat → Draws) (today : Timestamp) (n : Node σ)
    (duty : Nat × Duty) : (n.perform draws today duty).tasks = n.tasks := by
  obtain ⟨now, duty⟩ := duty
  cases duty with
  | round => rfl
  | sweep => exact n.tasks_swept today

theorem tasks_runUntil (n : Node σ) (limit : Nat) (draws : Nat → Draws) (today : Timestamp) :
    (n.runUntil limit draws today).tasks = (n.tasks.run limit).2 := by
  have hduties (duties : List (Nat × Duty)) (m : Node σ) :
      (duties.foldl (perform draws today) m).tasks = m.tasks := by
    induction duties generalizing m with
    | nil => rfl
    | cons duty duties ih => exact (ih _).trans (m.tasks_perform draws today duty)
  exact hduties _ _

end Node

namespace Cluster

section Waiting

variable {σ β α : Type} {i : Nat} {c : Cluster σ β} {n : Node σ} {draws : Nat → Draws}

theorem clock_await [StoreKind σ] {γ : Type} (answer : Directory.Answer γ β) :
    (c.await draws answer).2.clock = c.clock + answer.elapsed := by
  rw [await, advance]
  split
  · rename_i hzero
    rw [hzero]
    rfl
  · rfl

theorem clock_after_await [StoreKind σ] {γ : Type} {answer : Directory.Answer γ β}
    {waits : List Nat} {d : Cluster σ β} (hlimit : answer.elapsed ≤ timeoutOf n)
    (h : d.clock = (c.await draws answer).2.clock + waits.sum ∧
      ∀ wait ∈ waits, wait ≤ timeoutOf n) :
    d.clock = c.clock + (answer.elapsed :: waits).sum ∧
      ∀ wait ∈ answer.elapsed :: waits, wait ≤ timeoutOf n := by
  obtain ⟨hclock, hwaits⟩ := h
  constructor
  · rw [hclock, clock_await answer, List.sum_cons, Nat.add_assoc]
  · exact List.forall_mem_cons.mpr ⟨hlimit, hwaits⟩

theorem error_after_await [StoreKind σ] {γ : Type} {answer : Directory.Answer γ β} {m : Node σ}
    {rest : List Call} {fault : Fault} (hm : c.nodes[i]? = some m)
    (h : ∀ o, (c.await draws answer).2.nodes[i]? = some o → ∃ done call, rest = done ++ [call] ∧
      (perform (after o.store done) call).1 = .error fault) :
    ∃ done call, c.callsMeanwhile i answer.elapsed ++ rest = done ++ [call] ∧
      (perform (after m.store done) call).1 = .error fault := by
  obtain ⟨o, ho, hwait⟩ := becomes_await i c draws answer m hm
  obtain ⟨done, call, rfl, hfault⟩ := h o ho
  rw [hwait.store, ← after_append] at hfault
  exact ⟨_, call, (List.append_assoc ..).symm, hfault⟩

variable [StoreKind σ] [DirectoryBackend β] [Timer] {d : Cluster σ β} {m : Node σ}

def waitsOfScript (i : Nat) (n : Node σ) (draws : Nat → Draws) :
    Script α → Cluster σ β → List Nat
  | .done _, _ => []
  | .get identity next, c =>
    match (host i n draws).get? c identity with
    | .ok found => waitsOfScript i n draws (next found) c
    | .error _ => []
  | .upsert r next, c =>
    match (host i n draws).upsert c r with
    | .ok d => waitsOfScript i n draws (next ()) d
    | .error _ => []
  | .trim next, c =>
    match (host i n draws).trim c with
    | .ok (evicted, d) => waitsOfScript i n draws (next evicted) d
    | .error _ => []
  | .lookup identity next, c =>
    let answer := Directory.lookup (timeoutOf n) c.directory identity
    answer.elapsed :: waitsOfScript i n draws (next answer.outcome) (c.await draws answer).2
  | .publish identity r next, c =>
    let answer := Directory.publish (timeoutOf n) c.directory identity r
    answer.elapsed :: waitsOfScript i n draws (next answer.outcome) (c.await draws answer).2

/-- All the time that a script takes is spent waiting, and no request takes longer than allowed. -/
theorem clock_of_script (hm : c.nodes[i]? = some m) (n : Node σ) (draws : Nat → Draws)
    (p : Script α) :
    (p.run (host i n draws) c).2.clock = c.clock + (waitsOfScript i n draws p c).sum ∧
      ∀ wait ∈ waitsOfScript i n draws p c, wait ≤ timeoutOf n := by
  induction p generalizing c m with
  | done a => exact ⟨rfl, List.forall_mem_nil _⟩
  | get identity next ih =>
      rw [waitsOfScript, Script.run, host_get?_eq hm]
      cases RecordStore.get? m.store identity with
      | error fault => exact ⟨rfl, List.forall_mem_nil _⟩
      | ok found => exact ih found hm
  | upsert r next ih =>
      rw [waitsOfScript, Script.run, host_upsert_eq hm]
      cases RecordStore.upsert m.store r with
      | error fault => exact ⟨rfl, List.forall_mem_nil _⟩
      | ok t => exact ih () (getElem?_setNode hm _)
  | trim next ih =>
      rw [waitsOfScript, Script.run, host_trim_eq hm]
      cases RecordStore.trim m.store with
      | error fault => exact ⟨rfl, List.forall_mem_nil _⟩
      | ok result => exact ih result.1 (getElem?_setNode hm _)
  | lookup identity next ih =>
      obtain ⟨o, ho, -⟩ := becomes_await i c draws
        (Directory.lookup (timeoutOf n) c.directory identity) m hm
      exact clock_after_await (Directory.elapsed_lookup_le ..) (ih _ ho)
  | publish identity r next ih =>
      obtain ⟨o, ho, -⟩ := becomes_await i c draws
        (Directory.publish (timeoutOf n) c.directory identity r) m hm
      exact clock_after_await (Directory.elapsed_publish_le ..) (ih _ ho)

/-- A script fails with a call that the store refuses, and in no other way. -/
theorem error_of_run {p : Script α} {fault : Fault} (hm : c.nodes[i]? = some m)
    (h : (p.run (host i n draws) c).1 = .error fault) :
    ∃ done call, callsOfScript i n draws p c = done ++ [call] ∧
      (perform (after m.store done) call).1 = .error fault := by
  induction p generalizing c m with
  | done a => cases h
  | get identity next ih =>
      rw [Script.run, host_get?_eq hm] at h
      rw [callsOfScript, host_get?_eq hm]
      cases hread : RecordStore.get? m.store identity <;> rw [hread] at h
      case error refusal =>
        cases h
        exact ⟨[], .get identity, rfl, by rw [after, List.foldl_nil, perform, hread]; rfl⟩
      case ok found =>
        obtain ⟨done, call, hcalls, hfault⟩ := ih found hm h
        exact ⟨.get identity :: done, call, congrArg (Call.get identity :: ·) hcalls, hfault⟩
  | upsert r next ih =>
      rw [Script.run, host_upsert_eq hm] at h
      rw [callsOfScript, host_upsert_eq hm]
      cases hwrite : RecordStore.upsert m.store r <;> rw [hwrite] at h
      case error refusal =>
        cases h
        exact ⟨[], .upsert r, rfl, by rw [after, List.foldl_nil, perform, hwrite]; rfl⟩
      case ok t =>
        obtain ⟨done, call, hcalls, hfault⟩ := ih () (getElem?_setNode hm _) h
        refine ⟨.upsert r :: done, call, congrArg (Call.upsert r :: ·) hcalls, ?_⟩
        rw [after_cons, perform_upsert_eq hwrite]
        exact hfault
  | trim next ih =>
      rw [Script.run, host_trim_eq hm] at h
      rw [callsOfScript, host_trim_eq hm]
      cases htrim : RecordStore.trim m.store <;> rw [htrim] at h
      case error refusal =>
        cases h
        exact ⟨[], .trim, rfl, by rw [after, List.foldl_nil, perform, htrim]; rfl⟩
      case ok result =>
        obtain ⟨done, call, hcalls, hfault⟩ := ih result.1 (getElem?_setNode hm _) h
        refine ⟨.trim :: done, call, congrArg (Call.trim :: ·) hcalls, ?_⟩
        rw [after_cons, perform_trim_eq htrim]
        exact hfault
  | lookup identity next ih => exact error_after_await hm fun o ho => ih _ ho h
  | publish identity r next ih => exact error_after_await hm fun o ho => ih _ ho h

end Waiting

section Idleness

variable {σ β α : Type} {i : Nat} {c d : Cluster σ β}

def Idle (i : Nat) (c : Cluster σ β) : Prop :=
  ∃ n, c.nodes[i]? = some n ∧ n.tasks.tasks = []

theorem callsMeanwhile_of_idle (h : c.Idle i) (milliseconds : Nat) :
    c.callsMeanwhile i milliseconds = [] := by
  obtain ⟨n, hn, htasks⟩ := h
  rw [callsMeanwhile, hn]
  dsimp only
  rw [Node.callsOfTasks, Schedule.run_of_idle htasks]
  exact ite_self _

variable [StoreKind σ]

theorem idle_advance (h : c.Idle i) (milliseconds : Nat) (draws : Nat → Draws) :
    (c.advance milliseconds draws).Idle i := by
  obtain ⟨n, hn, htasks⟩ := h
  rw [advance]
  split
  · exact ⟨n, hn, htasks⟩
  · refine ⟨n.runUntil (c.clock + milliseconds) draws c.today,
      by simp [runUntil, hn], ?_⟩
    rw [Node.tasks_runUntil, Schedule.run_of_idle htasks]

theorem idle_await {γ : Type} (h : c.Idle i) (draws : Nat → Draws)
    (answer : Directory.Answer γ β) : (c.await draws answer).2.Idle i :=
  idle_advance (c := { c with directory := answer.backend }) h answer.elapsed draws

variable [DirectoryBackend β] [Timer]

theorem idle_script (h : c.Idle i) (n : Node σ) (draws : Nat → Draws) (p : Script α) :
    (p.run (host i n draws) c).2.Idle i ∧
      ∀ call ∈ callsOfScript i n draws p c, ¬call.IsSweep := by
  induction p generalizing c with
  | done a => exact ⟨h, List.forall_mem_nil _⟩
  | get identity next ih =>
      have hother : ¬(Call.get identity).IsSweep := by simp [Call.IsSweep]
      rw [callsOfScript, Script.run]
      cases (host i n draws).get? c identity with
      | error fault => exact ⟨h, List.forall_mem_singleton.mpr hother⟩
      | ok found =>
          obtain ⟨hidle, hcalls⟩ := ih found h
          exact ⟨hidle, List.forall_mem_cons.mpr ⟨hother, hcalls⟩⟩
  | upsert r next ih =>
      have hother : ¬(Call.upsert r).IsSweep := by simp [Call.IsSweep]
      obtain ⟨m, hm, htasks⟩ := id h
      rw [callsOfScript, Script.run, host_upsert_eq hm]
      cases RecordStore.upsert m.store r with
      | error fault => exact ⟨h, List.forall_mem_singleton.mpr hother⟩
      | ok t =>
          obtain ⟨hidle, hcalls⟩ := ih () ⟨_, getElem?_setNode hm (m.withStore t), htasks⟩
          exact ⟨hidle, List.forall_mem_cons.mpr ⟨hother, hcalls⟩⟩
  | trim next ih =>
      have hother : ¬Call.trim.IsSweep := by simp [Call.IsSweep]
      obtain ⟨m, hm, htasks⟩ := id h
      rw [callsOfScript, Script.run, host_trim_eq hm]
      cases RecordStore.trim m.store with
      | error fault => exact ⟨h, List.forall_mem_singleton.mpr hother⟩
      | ok result =>
          obtain ⟨hidle, hcalls⟩ :=
            ih result.1 ⟨_, getElem?_setNode hm (m.withStore result.2), htasks⟩
          exact ⟨hidle, List.forall_mem_cons.mpr ⟨hother, hcalls⟩⟩
  | lookup identity next ih =>
      rw [callsOfScript, callsMeanwhile_of_idle h]
      exact ih _ (idle_await h draws _)
  | publish identity r next ih =>
      rw [callsOfScript, callsMeanwhile_of_idle h]
      exact ih _ (idle_await h draws _)

theorem idle_act (h : c.Idle i) (draws : Nat → Draws) (deed : Deed) :
    (act i draws c deed).Idle i := by
  obtain ⟨n, hn, htasks⟩ := id h
  rw [act, hn]
  cases deed with
  | errand errand => exact (idle_script h n draws (errand.script n c.today)).1
  | receive text source => exact ⟨_, getElem?_setNode hn _, htasks⟩
  | round choice => exact ⟨_, getElem?_setNode hn _, htasks⟩
  | sweep => exact ⟨_, getElem?_setNode hn _, (n.tasks_swept c.today).symm ▸ htasks⟩
  | wait milliseconds => exact idle_advance h milliseconds draws
  | setToday today => exact ⟨n, hn, htasks⟩

theorem idle_acts (h : c.Idle i) (draws : Nat → Draws) (deeds : List Deed) :
    (deeds.foldl (act i draws) c).Idle i := by
  induction deeds generalizing c with
  | nil => exact h
  | cons deed deeds ih => exact ih (idle_act h draws deed)

end Idleness

section Warrants

variable {σ β α : Type} [RefusingStore σ] {may : Record → Option Record → Prop} {i : Nat}
  {c d : Cluster σ β} {m : Node σ} {C : Cache} {seen : Option (String × Option Record)}
  {calls : List Call}

theorem find?_of_shown {identity : String} {found : Option Record} (hm : c.nodes[i]? = some m)
    (hC : shows m.store C)
    (h : (c.nodes[i]?.map fun m => RecordStore.get? m.store identity) = some (.ok found)) :
    C.find? identity = found := by
  rw [hm] at h
  exact (get?_eq hC (Option.some.inj h)).symm

/-- While a script waits, nothing happens to the store but sweeps. -/
theorem warranted_after_await {γ : Type} {draws : Nat → Draws} {answer : Directory.Answer γ β}
    {rest : List Call} {d : Cluster σ β} (hm : c.nodes[i]? = some m) (hC : shows m.store C)
    (hseen : ∀ s ∈ seen, C.find? s.1 = s.2)
    (h : ∀ o D, (c.await draws answer).2.nodes[i]? = some o → shows o.store D →
      (∀ s ∈ Script.lasting seen, D.find? s.1 = s.2) → ∃ done l, done.Sublist rest ∧
        d.nodes[i]? = some l ∧ shows l.store (after D done) ∧ D.Warranted may done) :
    ∃ done l, done.Sublist (c.callsMeanwhile i answer.elapsed ++ rest) ∧
      d.nodes[i]? = some l ∧ shows l.store (after C done) ∧ C.Warranted may done := by
  obtain ⟨o, ho, hwait⟩ := becomes_await i c draws answer m hm
  obtain ⟨waited, hwaited, hshown⟩ := exists_after hC (c.callsMeanwhile i answer.elapsed)
  have hsweeps : ∀ call ∈ waited, call.IsSweep := fun call hcall =>
    c.isSweep_of_mem_callsMeanwhile i answer.elapsed call (hwaited.subset hcall)
  have hwritten : ∀ call ∈ waited, call.written? = none := fun call hcall =>
    c.written?_meanwhile i answer.elapsed call (hwaited.subset hcall)
  -- A sweep may take away what was read, but puts nothing where nothing was.
  have hlasting : ∀ s ∈ Script.lasting seen, (after C waited).find? s.1 = s.2 := by
    intro s hs
    obtain ⟨hs, habsent⟩ := Option.mem_filter_iff.mp hs
    have hsubset := Cache.entries_after_subset (C := C) hwritten
    rcases Cache.find?_eq_or_none_of_subset hsubset s.1 with hkept | hlost
    · rw [hkept, hseen s hs]
    · rw [hlost, Option.isNone_iff_eq_none.mp habsent]
  obtain ⟨done, l, hsub, hlast, hend, hdone⟩ := h o _ ho (hwait.store ▸ hshown) hlasting
  refine ⟨waited ++ done, l, hwaited.append hsub, hlast, ?_, ?_⟩
  · rwa [after_append]
  · exact Cache.warranted_append.mpr ⟨Cache.warranted_of_sweeps hsweeps, hdone⟩

variable [DirectoryBackend β] [Timer]

/-- Calls that are not refused, of those that a script with warrants comes to, have warrants. -/
theorem warranted_script (n : Node σ) (draws : Nat → Draws) {p : Script α}
    (hp : p.Warranted may seen) (hm : c.nodes[i]? = some m) (hC : shows m.store C)
    (hseen : ∀ s ∈ seen, C.find? s.1 = s.2) :
    ∃ done o, done.Sublist (callsOfScript i n draws p c) ∧
      (p.run (host i n draws) c).2.nodes[i]? = some o ∧ shows o.store (after C done) ∧
        C.Warranted may done := by
  have hunread (D : Cache) : ∀ s ∈ (none : Option (String × Option Record)), D.find? s.1 = s.2 :=
    fun s hs => absurd hs (Option.not_mem_none s)
  induction p generalizing c m C seen with
  | done a => exact ⟨[], m, .slnil, hm, hC, trivial⟩
  | get identity next ih =>
      rw [callsOfScript, Script.run, host_get?_eq hm]
      cases hresult : RecordStore.get? m.store identity with
      | error fault => exact ⟨[], m, List.nil_sublist _, hm, hC, trivial⟩
      | ok found =>
          obtain rfl := get?_eq hC hresult
          have hread : ∀ s ∈ some (identity, C.find? identity), C.find? s.1 = s.2 := by
            intro s hs
            cases hs
            rfl
          obtain ⟨done, o, hsub, hrest⟩ := ih _ (hp _ Cache.find?_identity) hm hC hread
          exact ⟨done, o, hsub.cons _, hrest⟩
  | upsert r next ih =>
      rw [callsOfScript, Script.run, host_upsert_eq hm]
      cases hwrite : RecordStore.upsert m.store r with
      | error fault => exact ⟨[], m, List.nil_sublist _, hm, hC, trivial⟩
      | ok t =>
          have hshown := (shows_perform hC (perform_upsert_eq hwrite)).2
          obtain ⟨done, o, hsub, hlast, hend, hdone⟩ :=
            ih () hp.2 (getElem?_setNode hm (m.withStore t)) hshown (hunread _)
          have hmay : may r (C.find? r.identity) := by
            rcases hp.1 with halways | ⟨found, rfl, hmay⟩
            · exact halways _
            · rwa [hseen _ rfl]
          exact ⟨.upsert r :: done, o, hsub.cons_cons _, hlast, hend, hmay, hdone⟩
  | trim next ih =>
      rw [callsOfScript, Script.run, host_trim_eq hm]
      cases htrim : RecordStore.trim m.store with
      | error fault => exact ⟨[], m, List.nil_sublist _, hm, hC, trivial⟩
      | ok result =>
          have hshown := (shows_perform hC (perform_trim_eq htrim)).2
          obtain ⟨done, o, hsub, hlast, hend, hdone⟩ :=
            ih _ (hp result.1) (getElem?_setNode hm (m.withStore result.2)) hshown (hunread _)
          exact ⟨.trim :: done, o, hsub.cons_cons _, hlast, hend, trivial, hdone⟩
  | lookup identity next ih =>
      have htrusted := Directory.trusted_of_lookup (timeoutOf n) c.directory identity
      exact warranted_after_await hm hC hseen fun o D ho hD hlasting =>
        ih _ (hp _ htrusted) ho hD hlasting
  | publish identity r next ih =>
      exact warranted_after_await hm hC hseen fun o D ho hD hlasting =>
        ih _ (hp _) ho hD hlasting

end Warrants

section Naming

open CacheLike

variable {σ β α : Type} [CacheLike σ] [DirectoryBackend β] [Timer] {i : Nat} {c : Cluster σ β}
  {n m : Node σ} {draws : Nat → Draws} {C : Cache}

/-- Only a record without an identity keeps a script from its end, however long the directory
takes. -/
theorem exists_run_ok_of_named {p : Script α} {seen : Option (String × Option Record)}
    (hp : p.Warranted (fun r _ => r.identity ≠ "") seen) (hm : c.nodes[i]? = some m)
    (hC : CacheLike.shows m.store C) : ∃ a d, p.run (host i n draws) c = (.ok a, d) := by
  induction p generalizing c m C seen with
  | done a => exact ⟨a, c, rfl⟩
  | get identity next ih =>
      rw [Script.run, host_get?_eq hm, lockstep.get? hC]
      exact ih _ (hp _ Cache.find?_identity) hm hC
  | upsert r next ih =>
      have hnamed : r.identity ≠ "" := by
        rcases hp.1 with halways | ⟨found, -, hnamed⟩
        · exact halways none
        · exact hnamed
      obtain ⟨t, ht, hshown⟩ := upsert_of_named hC hnamed
      rw [Script.run, host_upsert_eq hm, ht]
      exact ih () hp.2 (getElem?_setNode hm _) hshown
  | trim next ih =>
      obtain ⟨result, htrim⟩ := exists_trim_ok hC
      have hshown := (lockstep.perform hC .trim).2
      rw [perform_trim_eq htrim] at hshown
      rw [Script.run, host_trim_eq hm, htrim]
      exact ih result.1 (hp result.1) (getElem?_setNode hm _) hshown
  | lookup identity next ih =>
      have hwait := becomes_await i c draws (Directory.lookup (timeoutOf n) c.directory identity)
      have htrusted := Directory.trusted_of_lookup (timeoutOf n) c.directory identity
      obtain ⟨o, ho, hshown⟩ := hwait.shown hm hC
      exact ih _ (hp _ htrusted) ho hshown
  | publish identity r next ih =>
      have hwait := becomes_await i c draws (Directory.publish (timeoutOf n) c.directory identity r)
      obtain ⟨o, ho, hshown⟩ := hwait.shown hm hC
      exact ih _ (hp _) ho hshown

end Naming

end Cluster

end PeerBook
