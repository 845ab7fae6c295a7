import PeerBook.Cluster
import PeerBook.Proofs.Gossip.Reception
import PeerBook.Proofs.Store.CacheLike

namespace PeerBook

open StoreKind

inductive Errand where
  | publish (phone : Option String) (address : String) (port : UInt16)
  | resolve (identity : String)
  | contact (r : Record)
  | discover (phoneBook : List PhoneBookEntry)

def Errand.script {σ : Type} [RecordStore σ] (n : Node σ) (today : Timestamp) :
    Errand → Script Unit
  | publish phone address port => do let _ ← n.publishSelf phone address port today
  | resolve identity => do let _ ← Node.resolve identity
  | contact r => Node.directContact r
  | discover phoneBook => do let _ ← n.discover phoneBook

inductive Deed where
  | errand (errand : Errand)
  | receive (text source : String)
  | round (draws : Draws)
  | sweep
  | wait (milliseconds : Nat)
  | setToday (today : Timestamp)

theorem Script.run_eq_of_fst {α ω : Type} {host : Script.Host ω} {p : Script α} {w : ω} {a : α}
    (h : (p.run host w).1 = .ok a) : p.run host w = (.ok a, (p.run host w).2) :=
  Prod.ext h rfl

namespace Node

variable {σ : Type} [StoreKind σ] {n m o : Node σ} {calls more : List Call}

/-- The same node later on, after these calls on its store. -/
structure Becomes (n : Node σ) (calls : List Call) (m : Node σ) : Prop where
  config : m.config = n.config
  publicKey : m.publicKey = n.publicKey
  identity : m.identity = n.identity
  store : m.store = after n.store calls

theorem Becomes.refl (n : Node σ) : n.Becomes [] n :=
  ⟨rfl, rfl, rfl, rfl⟩

theorem Becomes.trans (h : n.Becomes calls m) (h' : m.Becomes more o) :
    n.Becomes (calls ++ more) o where
  config := h'.config.trans h.config
  publicKey := h'.publicKey.trans h.publicKey
  identity := h'.identity.trans h.identity
  store := by rw [h'.store, h.store, after_append]

theorem Becomes.staleBefore (h : n.Becomes calls m) (today : Timestamp) :
    m.staleBefore today = n.staleBefore today := by
  rw [Node.staleBefore, h.config, Node.staleBefore]

def Duty.call? (olderThan : Timestamp) : Duty → Option Call
  | .round => none
  | .sweep => some (.sweep olderThan)

def callsOfTasks (n : Node σ) (limit : Nat) (today : Timestamp) : List Call :=
  (n.tasks.run limit).1.filterMap fun duty => duty.2.call? (n.staleBefore today)

def swept (n : Node σ) (today : Timestamp) : Node σ :=
  match n.sweepStale today with
  | .ok (_, m) => m
  | .error _ => n

theorem becomes_swept (n : Node σ) (today : Timestamp) :
    n.Becomes [.sweep (n.staleBefore today)] (n.swept today) := by
  rw [swept, sweepStale]
  cases hsweep : RecordStore.sweep n.store (n.staleBefore today) with
  | error fault =>
      refine ⟨rfl, rfl, rfl, ?_⟩
      rw [after_cons, StoreKind.perform, hsweep]
      rfl
  | ok result =>
      refine ⟨rfl, rfl, rfl, ?_⟩
      rw [after_cons, StoreKind.perform, hsweep]
      rfl

theorem becomes_round (n : Node σ) (draws : Draws) (now : Nat) :
    n.Becomes [] { n with gossiper := (n.gossiper.round draws now).2 } := by
  obtain ⟨activePeers, events, datagrams, hround, -⟩ := n.gossiper.round_eq draws now
  rw [hround]
  exact ⟨rfl, rfl, rfl, rfl⟩

theorem becomes_receive (n : Node σ) (text source : String) (now : Nat) :
    n.Becomes (n.gossiper.callsOfText text source now)
      { n with gossiper := (n.gossiper.receive text source now).2 } :=
  ⟨rfl, rfl, n.gossiper.localIdentity_receive text source now,
    n.gossiper.store_receive text source now⟩

theorem becomes_perform (draws : Nat → Draws) (today : Timestamp) (n : Node σ)
    (duty : Nat × Duty) :
    n.Becomes (duty.2.call? (n.staleBefore today)).toList (n.perform draws today duty) := by
  obtain ⟨now, duty⟩ := duty
  cases duty with
  | round => exact n.becomes_round (draws now) now
  | sweep => exact n.becomes_swept today

theorem becomes_duties (draws : Nat → Draws) (today : Timestamp) (n : Node σ)
    (duties : List (Nat × Duty)) :
    n.Becomes (duties.filterMap fun duty => duty.2.call? (n.staleBefore today))
      (duties.foldl (Node.perform draws today) n) := by
  induction duties generalizing n with
  | nil => exact .refl n
  | cons duty duties ih =>
      have hfirst := n.becomes_perform draws today duty
      have hrest := ih (n.perform draws today duty)
      rw [hfirst.staleBefore] at hrest
      have hcons : (duty :: duties).filterMap (fun duty => duty.2.call? (n.staleBefore today)) =
          (duty.2.call? (n.staleBefore today)).toList ++
            duties.filterMap fun duty => duty.2.call? (n.staleBefore today) := by
        rw [List.filterMap_cons]
        cases duty.2.call? (n.staleBefore today) <;> rfl
      rw [hcons]
      exact hfirst.trans hrest

theorem becomes_runUntil (n : Node σ) (limit : Nat) (draws : Nat → Draws) (today : Timestamp) :
    n.Becomes (n.callsOfTasks limit today) (n.runUntil limit draws today) := by
  have h := becomes_duties draws today { n with tasks := (n.tasks.run limit).2 }
    (n.tasks.run limit).1
  exact ⟨h.config, h.publicKey, h.identity, h.store⟩

end Node

def Call.IsSweep (call : Call) : Prop :=
  ∃ olderThan, call = .sweep olderThan

namespace Cluster

section Calls

variable {σ β α : Type}

theorem getElem?_setNode {c : Cluster σ β} {i : Nat} {n : Node σ} (hn : c.nodes[i]? = some n)
    (m : Node σ) : (c.setNode i m).nodes[i]? = some m := by
  have hlt : i < c.nodes.length := (List.getElem?_eq_some_iff.mp hn).1
  simp [setNode, hlt]

def callsMeanwhile (c : Cluster σ β) (i milliseconds : Nat) : List Call :=
  match c.nodes[i]? with
  | none => []
  | some n =>
    if milliseconds = 0 then []
    else n.callsOfTasks (c.clock + milliseconds) c.today

theorem isSweep_of_mem_callsMeanwhile (c : Cluster σ β) (i milliseconds : Nat) :
    ∀ call ∈ c.callsMeanwhile i milliseconds, call.IsSweep := by
  intro call hcall
  rw [callsMeanwhile] at hcall
  split at hcall
  · cases hcall
  · split at hcall
    · cases hcall
    · obtain ⟨⟨now, duty⟩, -, hduty⟩ := List.mem_filterMap.mp hcall
      cases duty with
      | round => cases hduty
      | sweep => exact ⟨_, (Option.some.inj hduty).symm⟩

theorem written?_meanwhile (c : Cluster σ β) (i milliseconds : Nat) :
    ∀ call ∈ c.callsMeanwhile i milliseconds, call.written? = none := by
  intro call hcall
  obtain ⟨olderThan, rfl⟩ := c.isSweep_of_mem_callsMeanwhile i milliseconds call hcall
  rfl

variable [StoreKind σ] [DirectoryBackend β] [Timer]

def callsOfScript (i : Nat) (n : Node σ) (draws : Nat → Draws) :
    Script α → Cluster σ β → List Call
  | .done _, _ => []
  | .get identity next, c =>
    .get identity :: match (host i n draws).get? c identity with
      | .ok found => callsOfScript i n draws (next found) c
      | .error _ => []
  | .upsert r next, c =>
    .upsert r :: match (host i n draws).upsert c r with
      | .ok d => callsOfScript i n draws (next ()) d
      | .error _ => []
  | .trim next, c =>
    .trim :: match (host i n draws).trim c with
      | .ok (evicted, d) => callsOfScript i n draws (next evicted) d
      | .error _ => []
  | .lookup identity next, c =>
    let answer := Directory.lookup (timeoutOf n) c.directory identity
    c.callsMeanwhile i answer.elapsed ++
      callsOfScript i n draws (next answer.outcome) (c.await draws answer).2
  | .publish identity r next, c =>
    let answer := Directory.publish (timeoutOf n) c.directory identity r
    c.callsMeanwhile i answer.elapsed ++
      callsOfScript i n draws (next answer.outcome) (c.await draws answer).2

def act (i : Nat) (draws : Nat → Draws) (c : Cluster σ β) (deed : Deed) : Cluster σ β :=
  match c.nodes[i]? with
  | none => c
  | some n =>
    match deed with
    | .errand errand => ((errand.script n c.today).run (host i n draws) c).2
    | .receive text source =>
      c.setNode i { n with gossiper := (n.gossiper.receive text source c.clock).2 }
    | .round choice => c.setNode i { n with gossiper := (n.gossiper.round choice c.clock).2 }
    | .sweep => c.setNode i (n.swept c.today)
    | .wait milliseconds => c.advance milliseconds draws
    | .setToday today => { c with today }

def callsOfDeed (i : Nat) (draws : Nat → Draws) (c : Cluster σ β) (deed : Deed) : List Call :=
  match c.nodes[i]? with
  | none => []
  | some n =>
    match deed with
    | .errand errand => callsOfScript i n draws (errand.script n c.today) c
    | .receive text source => n.gossiper.callsOfText text source c.clock
    | .sweep => [.sweep (n.staleBefore c.today)]
    | .wait milliseconds => c.callsMeanwhile i milliseconds
    | .round _ | .setToday _ => []

def callsOfDeeds (i : Nat) (draws : Nat → Draws) : Cluster σ β → List Deed → List Call
  | _, [] => []
  | c, deed :: deeds =>
    callsOfDeed i draws c deed ++ callsOfDeeds i draws (act i draws c deed) deeds

end Calls

section Becoming

variable {σ β α : Type} [StoreKind σ] {i : Nat} {c d e : Cluster σ β} {calls more : List Call}

def Becomes (i : Nat) (c : Cluster σ β) (calls : List Call) (d : Cluster σ β) : Prop :=
  ∀ n, c.nodes[i]? = some n → ∃ m, d.nodes[i]? = some m ∧ n.Becomes calls m

theorem Becomes.refl (i : Nat) (c : Cluster σ β) : c.Becomes i [] c :=
  fun n hn => ⟨n, hn, .refl n⟩

theorem Becomes.trans (h : c.Becomes i calls d) (h' : d.Becomes i more e) :
    c.Becomes i (calls ++ more) e := by
  intro n hn
  obtain ⟨m, hm, hcalls⟩ := h n hn
  obtain ⟨o, ho, hmore⟩ := h' m hm
  exact ⟨o, ho, hcalls.trans hmore⟩

theorem becomes_setNode {n m : Node σ} (hn : c.nodes[i]? = some n) (h : n.Becomes calls m) :
    c.Becomes i calls (c.setNode i m) := by
  intro n' hn'
  obtain rfl := Option.some.inj (hn.symm.trans hn')
  exact ⟨m, getElem?_setNode hn m, h⟩

theorem becomes_advance (i : Nat) (c : Cluster σ β) (milliseconds : Nat) (draws : Nat → Draws) :
    c.Becomes i (c.callsMeanwhile i milliseconds) (c.advance milliseconds draws) := by
  intro n hn
  rw [callsMeanwhile, hn, advance]
  by_cases hzero : milliseconds = 0
  · simp only [if_pos hzero]
    exact ⟨n, hn, .refl n⟩
  · simp only [if_neg hzero]
    exact ⟨_, by simp [runUntil, hn], n.becomes_runUntil _ draws c.today⟩

theorem becomes_await {γ : Type} (i : Nat) (c : Cluster σ β) (draws : Nat → Draws)
    (answer : Directory.Answer γ β) :
    c.Becomes i (c.callsMeanwhile i answer.elapsed) (c.await draws answer).2 :=
  becomes_advance i { c with directory := answer.backend } answer.elapsed draws

variable [DirectoryBackend β] [Timer]

section Hosts

variable {n m : Node σ} {draws : Nat → Draws}

theorem host_get?_eq (hm : c.nodes[i]? = some m) (identity : String) :
    (host i n draws).get? c identity = RecordStore.get? m.store identity := by
  simp only [host, hm, Option.getD_some]

theorem host_upsert_eq (hm : c.nodes[i]? = some m) (r : Record) :
    (host i n draws).upsert c r =
      (RecordStore.upsert m.store r).map fun t => c.setNode i (m.withStore t) := by
  simp only [host, hm, Option.getD_some]

theorem host_trim_eq (hm : c.nodes[i]? = some m) :
    (host i n draws).trim c = (RecordStore.trim m.store).map fun result =>
      (result.1, c.setNode i (m.withStore result.2)) := by
  simp only [host, hm, Option.getD_some]

end Hosts

theorem becomes_upsert (n : Node σ) (draws : Nat → Draws) (c : Cluster σ β) (r : Record) :
    c.Becomes i [.upsert r] (((host i n draws).upsert c r).toOption.getD c) := by
  intro m hm
  rw [host_upsert_eq hm]
  cases hwrite : RecordStore.upsert m.store r with
  | error fault => exact ⟨m, hm, rfl, rfl, rfl, by rw [after_cons, perform, hwrite]; rfl⟩
  | ok t =>
      have hstored : m.Becomes [.upsert r] (m.withStore t) :=
        ⟨rfl, rfl, rfl, by rw [after_cons, perform_upsert_eq hwrite]; rfl⟩
      exact becomes_setNode hm hstored m hm

theorem becomes_trim (n : Node σ) (draws : Nat → Draws) (c : Cluster σ β) :
    c.Becomes i [.trim] (((host i n draws).trim c).toOption.elim c Prod.snd) := by
  intro m hm
  rw [host_trim_eq hm]
  cases htrim : RecordStore.trim m.store with
  | error fault => exact ⟨m, hm, rfl, rfl, rfl, by rw [after_cons, perform, htrim]; rfl⟩
  | ok result =>
      have htrimmed : m.Becomes [.trim] (m.withStore result.2) :=
        ⟨rfl, rfl, rfl, by rw [after_cons, perform_trim_eq htrim]; rfl⟩
      exact becomes_setNode hm htrimmed m hm

theorem host_upsert_eq_ok {n m : Node σ} {draws : Nat → Draws} {r : Record}
    (hm : c.nodes[i]? = some m) (h : (host i n draws).upsert c r = .ok d) :
    ∃ t, RecordStore.upsert m.store r = .ok t ∧ d.nodes[i]? = some (m.withStore t) := by
  rw [host_upsert_eq hm] at h
  cases hwrite : RecordStore.upsert m.store r with
  | error fault =>
      rw [hwrite] at h
      cases h
  | ok t =>
      rw [hwrite] at h
      cases h
      exact ⟨t, rfl, getElem?_setNode hm _⟩

theorem host_trim_eq_ok {n m : Node σ} {draws : Nat → Draws} {evicted : Nat}
    (hm : c.nodes[i]? = some m) (h : (host i n draws).trim c = .ok (evicted, d)) :
    ∃ t, RecordStore.trim m.store = .ok (evicted, t) ∧ d.nodes[i]? = some (m.withStore t) := by
  rw [host_trim_eq hm] at h
  cases htrim : RecordStore.trim m.store with
  | error fault =>
      rw [htrim] at h
      cases h
  | ok result =>
      rw [htrim] at h
      cases h
      exact ⟨result.2, rfl, getElem?_setNode hm _⟩

theorem becomes_script (n : Node σ) (draws : Nat → Draws) (p : Script α) (c : Cluster σ β) :
    c.Becomes i (callsOfScript i n draws p c) (p.run (host i n draws) c).2 := by
  induction p generalizing c with
  | done a => exact .refl i c
  | get identity next ih =>
      have hread : c.Becomes i [.get identity] c := fun m hm => ⟨m, hm, rfl, rfl, rfl, rfl⟩
      rw [callsOfScript, Script.run]
      cases (host i n draws).get? c identity with
      | error fault => exact hread
      | ok found => exact hread.trans (ih found c)
  | upsert r next ih =>
      have hwrite := becomes_upsert (i := i) n draws c r
      rw [callsOfScript, Script.run]
      cases hresult : (host i n draws).upsert c r <;> rw [hresult] at hwrite
      case error fault => exact hwrite
      case ok d => exact hwrite.trans (ih () d)
  | trim next ih =>
      have htrim := becomes_trim (i := i) n draws c
      rw [callsOfScript, Script.run]
      cases hresult : (host i n draws).trim c <;> rw [hresult] at htrim
      case error fault => exact htrim
      case ok result => exact htrim.trans (ih result.1 result.2)
  | lookup identity next ih => exact (becomes_await i c draws _).trans (ih _ _)
  | publish identity r next ih => exact (becomes_await i c draws _).trans (ih _ _)

/-- A deed comes to the calls that are counted for it, and the node stays who it is. -/
theorem becomes_act (draws : Nat → Draws) (c : Cluster σ β) (deed : Deed) :
    c.Becomes i (callsOfDeed i draws c deed) (act i draws c deed) := by
  intro n hn
  rw [callsOfDeed, act, hn]
  cases deed with
  | errand errand => exact becomes_script n draws (errand.script n c.today) c n hn
  | receive text source =>
      exact becomes_setNode hn (n.becomes_receive text source c.clock) n hn
  | round choice => exact becomes_setNode hn (n.becomes_round choice c.clock) n hn
  | sweep => exact becomes_setNode hn (n.becomes_swept c.today) n hn
  | wait milliseconds => exact becomes_advance i c milliseconds draws n hn
  | setToday today => exact ⟨n, hn, .refl n⟩

theorem becomes_acts (draws : Nat → Draws) (c : Cluster σ β) (deeds : List Deed) :
    c.Becomes i (callsOfDeeds i draws c deeds) (deeds.foldl (act i draws) c) := by
  induction deeds generalizing c with
  | nil => exact .refl i c
  | cons deed deeds ih => exact (becomes_act draws c deed).trans (ih (act i draws c deed))

end Becoming

section Showing

open CacheLike

variable {σ β : Type} [CacheLike σ] {i : Nat} {c d : Cluster σ β} {n m : Node σ} {C : Cache}
  {calls : List Call}

theorem Becomes.shown (h : c.Becomes i calls d) (hm : c.nodes[i]? = some m)
    (hC : shows m.store C) : ∃ o, d.nodes[i]? = some o ∧ shows o.store (after C calls) := by
  obtain ⟨o, ho, hcalls⟩ := h m hm
  exact ⟨o, ho, hcalls.store ▸ lockstep.after hC calls⟩

variable [DirectoryBackend β] [Timer] {draws : Nat → Draws} {r : Record}

theorem shown_of_upsert (hm : c.nodes[i]? = some m) (hC : shows m.store C)
    (hwrite : (host i n draws).upsert c r = .ok d) :
    ∃ o, d.nodes[i]? = some o ∧ shows o.store (after C [.upsert r]) := by
  obtain ⟨t, ht, hd⟩ := host_upsert_eq_ok hm hwrite
  have hshown := (lockstep.perform hC (.upsert r)).2
  rw [perform_upsert_eq ht] at hshown
  exact ⟨m.withStore t, hd, hshown⟩

theorem shown_of_trim {evicted : Nat} (hm : c.nodes[i]? = some m) (hC : shows m.store C)
    (htrim : (host i n draws).trim c = .ok (evicted, d)) :
    ∃ o, d.nodes[i]? = some o ∧ shows o.store (after C [.trim]) := by
  obtain ⟨t, ht, hd⟩ := host_trim_eq_ok hm htrim
  have hshown := (lockstep.perform hC .trim).2
  rw [perform_trim_eq ht] at hshown
  exact ⟨m.withStore t, hd, hshown⟩

end Showing

end Cluster

end PeerBook
