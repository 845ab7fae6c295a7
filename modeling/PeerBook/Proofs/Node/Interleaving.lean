import Mathlib.Logic.Relation
import PeerBook.Proofs.Node.Deeds
import PeerBook.Proofs.Node.PhoneBooks
import PeerBook.Proofs.Node.Scripts

namespace PeerBook

/-- What a script has read last and in which store, and what others have called since. -/
structure Window (σ : Type) where
  identity : String
  found : Option Record
  start : σ
  calls : List Call := []

namespace Window

variable {σ : Type}

def add (call : Call) (w : Window σ) : Window σ :=
  { w with calls := w.calls ++ [call] }

def seen (w : Window σ) : String × Option Record :=
  (w.identity, w.found)

end Window

/-- Whether a record may be written where `found` has been read: where nothing was stored, or to
fill in digits that are listed for the identity. -/
def Record.Succeeds (listed : (digits identity : String) → Prop) (r : Record)
    (found : Option Record) : Prop :=
  ∀ p ∈ found, p.contactHint = none ∧
    ∃ digits, listed digits p.identity ∧ r = { p with contactHint := some digits }

theorem Record.succeeds_none (listed : String → String → Prop) (r : Record) :
    r.Succeeds listed none := by
  intro p hp
  cases hp

theorem Record.Succeeds.mono {listed listed' : String → String → Prop}
    (h : ∀ digits identity, listed digits identity → listed' digits identity) {r : Record}
    {found : Option Record} (hr : r.Succeeds listed found) : r.Succeeds listed' found := by
  intro p hp
  obtain ⟨hnone, digits, hlisted, hfilled⟩ := hr p hp
  exact ⟨hnone, digits, h digits p.identity hlisted, hfilled⟩

namespace Script

variable {α β σ : Type} {firstHand : Record → Prop} {listed : String → String → Prop}

/-- Whether every record that is written is known at first hand, or succeeds what was read before
under its identity. -/
def Guarded (firstHand : Record → Prop) (listed : String → String → Prop) :
    (seen : Option (String × Option Record)) → Script α → Prop
  | _, done _ => True
  | _, get identity next => ∀ found : Option Record, (∀ r ∈ found, r.identity = identity) →
      Guarded firstHand listed (some (identity, found)) (next found)
  | seen, upsert r next =>
      (firstHand r ∨ ∃ found, seen = some (r.identity, found) ∧ r.Succeeds listed found) ∧
        Guarded firstHand listed none (next ())
  | _, trim next => ∀ evicted, Guarded firstHand listed none (next evicted)
  | seen, lookup identity next => ∀ found : Option Record, (∀ r ∈ found, r.identity = identity) →
      Guarded firstHand listed seen (next found)
  | seen, publish _ _ next => ∀ accepted, Guarded firstHand listed seen (next accepted)

theorem Guarded.mono {firstHand' : Record → Prop} {listed' : String → String → Prop}
    (hfirst : ∀ r, firstHand r → firstHand' r)
    (hlisted : ∀ digits identity, listed digits identity → listed' digits identity)
    {seen : Option (String × Option Record)} {p : Script α}
    (hp : p.Guarded firstHand listed seen) : p.Guarded firstHand' listed' seen := by
  induction p generalizing seen with
  | done a => trivial
  | get identity next ih | lookup identity next ih =>
      exact fun found hfound => ih found (hp found hfound)
  | upsert r next ih =>
      refine ⟨hp.1.imp (hfirst r) ?_, ih () hp.2⟩
      rintro ⟨found, hseen, hsucceeds⟩
      exact ⟨found, hseen, hsucceeds.mono hlisted⟩
  | trim next ih => exact fun evicted => ih evicted (hp evicted)
  | publish identity r next ih => exact fun accepted => ih accepted (hp accepted)

theorem Guarded.bind {seen : Option (String × Option Record)} {p : Script α} {f : α → Script β}
    (hp : p.Guarded firstHand listed seen) (hf : ∀ a seen, (f a).Guarded firstHand listed seen) :
    (p.bind f).Guarded firstHand listed seen := by
  induction p generalizing seen with
  | done a => exact hf a seen
  | get identity next ih | lookup identity next ih =>
      exact fun found hfound => ih found (hp found hfound)
  | upsert r next ih => exact ⟨hp.1, ih () hp.2⟩
  | trim next ih => exact fun evicted => ih evicted (hp evicted)
  | publish identity r next ih => exact fun accepted => ih accepted (hp accepted)

theorem Guarded.mapM {f : α → Script β} {as : List α}
    (hf : ∀ a ∈ as, ∀ seen, (f a).Guarded firstHand listed seen)
    (seen : Option (String × Option Record)) : (as.mapM f).Guarded firstHand listed seen := by
  induction as generalizing seen with
  | nil => trivial
  | cons a as ih =>
      obtain ⟨ha, has⟩ := List.forall_mem_cons.mp hf
      rw [List.mapM_cons]
      exact (ha seen).bind fun b seen => (ih has seen).bind fun bs seen => trivial

structure Moment (σ α : Type) where
  script : Script α
  store : σ
  window : Option (Window σ) := none

open StoreKind

/-- One request of the script, or one call of others, of whom no more than `P` is known. The
directory may say anything, but is believed only about the identity that was asked for. -/
inductive Next [StoreKind σ] (P : Call → Prop) : Moment σ α → Moment σ α → Prop
  | other {m : Moment σ α} {call : Call} (h : P call) :
      Next P m ⟨m.script, (perform m.store call).2, m.window.map (Window.add call)⟩
  | get {identity : String} {next : Option Record → Script α} {s : σ} {w : Option (Window σ)}
      {found : Option Record} (h : RecordStore.get? s identity = .ok found) :
      Next P ⟨.get identity next, s, w⟩ ⟨next found, s, some { identity, found, start := s }⟩
  | upsert {r : Record} {next : Unit → Script α} {s t : σ} {w : Option (Window σ)}
      (h : RecordStore.upsert s r = .ok t) : Next P ⟨.upsert r next, s, w⟩ ⟨next (), t, none⟩
  | trim {next : Nat → Script α} {s t : σ} {w : Option (Window σ)} {evicted : Nat}
      (h : RecordStore.trim s = .ok (evicted, t)) :
      Next P ⟨.trim next, s, w⟩ ⟨next evicted, t, none⟩
  | lookup {identity : String} {next : Option Record → Script α} {s : σ} {w : Option (Window σ)}
      (answer : Option Record) :
      Next P ⟨.lookup identity next, s, w⟩
        ⟨next (answer.bind (Directory.accept? identity)), s, w⟩
  | publish {identity : String} {r : Record} {next : Bool → Script α} {s : σ}
      {w : Option (Window σ)} (accepted : Bool) :
      Next P ⟨.publish identity r next, s, w⟩ ⟨next accepted, s, w⟩

def Reaches [StoreKind σ] (P : Call → Prop) : Moment σ α → Moment σ α → Prop :=
  Relation.ReflTransGen (Next P)

theorem Reaches.others [StoreKind σ] {P : Call → Prop} {p : Script α} {s : σ}
    {w : Option (Window σ)} {calls : List Call} (h : ∀ call ∈ calls, P call) :
    Reaches P ⟨p, s, w⟩
      ⟨p, after s calls, w.map fun w => { w with calls := w.calls ++ calls }⟩ := by
  induction calls generalizing s w with
  | nil => simpa [after, Reaches] using Relation.ReflTransGen.refl
  | cons call calls ih =>
      obtain ⟨hcall, hcalls⟩ := List.forall_mem_cons.mp h
      have hrest := ih hcalls (s := (perform s call).2) (w := w.map (Window.add call))
      have hadd : (w.map (Window.add call)).map (fun w => { w with calls := w.calls ++ calls }) =
          w.map fun w => { w with calls := w.calls ++ call :: calls } := by
        cases w <;> simp [Window.add]
      rw [hadd] at hrest
      exact Relation.ReflTransGen.head (.other hcall) hrest

variable [CacheLike σ] {P : Call → Prop} {m m' : Moment σ α}

open CacheLike

/-- The window tells what was stored at the last reading and how the store went on from there. -/
structure Moment.Sound (firstHand : Record → Prop) (listed : String → String → Prop)
    (P : Call → Prop) (m : Moment σ α) : Prop where
  shown : ∃ C, shows m.store C
  guarded : m.script.Guarded firstHand listed (m.window.map Window.seen)
  opened : ∀ w ∈ m.window, (∃ C, shows w.start C ∧ C.find? w.identity = w.found) ∧
    m.store = after w.start w.calls ∧ ∀ call ∈ w.calls, P call

theorem identity_of_accept? {identity : String} (answer : Option Record) :
    ∀ r ∈ answer.bind (Directory.accept? identity), r.identity = identity := by
  intro r hr
  obtain ⟨given, -, haccept⟩ := Option.bind_eq_some_iff.mp hr
  rw [Directory.accept?] at haccept
  split at haccept
  · cases haccept
    rfl
  · cases haccept

theorem Moment.Sound.next (hm : m.Sound firstHand listed P) (h : Next P m m') :
    m'.Sound firstHand listed P := by
  obtain ⟨C, hC⟩ := hm.shown
  cases h with
  | @other _ call hcall =>
      refine ⟨⟨_, (lockstep.perform hC call).2⟩, ?_, ?_⟩
      · rw [Option.map_map]
        exact hm.guarded
      · intro w hw
        obtain ⟨v, hv, rfl⟩ := Option.map_eq_some_iff.mp (Option.mem_def.mp hw)
        obtain ⟨hfound, hstore, hcalls⟩ := hm.opened v hv
        refine ⟨hfound, ?_, ?_⟩
        · rw [hstore, Window.add, after_append]
          rfl
        · simpa [Window.add, or_imp, forall_and] using ⟨hcalls, hcall⟩
  | @get identity next s w found h =>
      have hfound : C.find? identity = found := by
        rw [lockstep.get? hC] at h
        exact Except.ok.inj h
      subst hfound
      refine ⟨⟨C, hC⟩, hm.guarded _ Cache.find?_identity, ?_⟩
      intro w hw
      cases hw
      exact ⟨⟨C, hC, rfl⟩, rfl, nofun⟩
  | @upsert r next s t w h =>
      have hstep := (lockstep.perform hC (.upsert r)).2
      rw [perform_upsert_eq h] at hstep
      exact ⟨⟨_, hstep⟩, hm.guarded.2, nofun⟩
  | trim h =>
      have hstep := (lockstep.perform hC .trim).2
      rw [perform_trim_eq h] at hstep
      exact ⟨⟨_, hstep⟩, hm.guarded _, nofun⟩
  | lookup answer => exact ⟨⟨C, hC⟩, hm.guarded _ (identity_of_accept? answer), hm.opened⟩
  | publish accepted => exact ⟨⟨C, hC⟩, hm.guarded accepted, hm.opened⟩

theorem Moment.Sound.start {p : Script α} (hp : p.Guarded firstHand listed none) {s : σ}
    {C : Cache} (hs : shows s C) : Moment.Sound firstHand listed P ⟨p, s, none⟩ :=
  ⟨⟨C, hs⟩, hp, nofun⟩

theorem Moment.Sound.reaches (hm : m.Sound firstHand listed P) (h : Reaches P m m') :
    m'.Sound firstHand listed P := by
  induction h with
  | refl => exact hm
  | tail _ hstep ih => exact ih.next hstep

end Script

theorem Directory.exists_outcome_lookup {β : Type} [DirectoryBackend β] [Timer] (timeout : Nat)
    (backend : β) (identity : String) :
    ∃ answer : Option Record, (Directory.lookup timeout backend identity).outcome =
      answer.bind (Directory.accept? identity) := by
  rw [Directory.lookup]
  dsimp only
  split
  · rename_i r _
    exact ⟨some r, rfl⟩
  · exact ⟨none, rfl⟩

theorem Directory.identity_of_lookup {β : Type} [DirectoryBackend β] [Timer] (timeout : Nat)
    (backend : β) (identity : String) :
    ∀ r ∈ (Directory.lookup timeout backend identity).outcome, r.identity = identity := by
  obtain ⟨answer, houtcome⟩ := Directory.exists_outcome_lookup timeout backend identity
  rw [houtcome]
  exact Script.identity_of_accept? answer

namespace Cluster

open StoreKind Script

variable {σ β α : Type} [StoreKind σ] {i : Nat} {c d : Cluster σ β}

theorem reaches_await {γ : Type} {m : Node σ} (hm : c.nodes[i]? = some m) (draws : Nat → Draws)
    (answer : Directory.Answer γ β) (p : Script α) (w : Option (Window σ)) :
    ∃ o v, (c.await draws answer).2.nodes[i]? = some o ∧
      Reaches Call.IsSweep ⟨p, m.store, w⟩ ⟨p, o.store, v⟩ := by
  obtain ⟨o, ho, hbecomes⟩ := becomes_await i c draws answer m hm
  have hothers := Reaches.others (p := p) (s := m.store) (w := w)
    (c.isSweep_of_mem_callsMeanwhile i answer.elapsed)
  rw [← hbecomes.store] at hothers
  exact ⟨o, _, ho, hothers⟩

variable [DirectoryBackend β] [Timer]

/-- A script that a node runs to its end goes the way of a script among others, who do no more than
sweep while it waits. -/
theorem reaches_of_run {n m : Node σ} {draws : Nat → Draws} {p : Script α} {a : α}
    (hm : c.nodes[i]? = some m) (w : Option (Window σ))
    (h : p.run (host i n draws) c = (.ok a, d)) :
    ∃ o v, d.nodes[i]? = some o ∧
      Reaches Call.IsSweep ⟨p, m.store, w⟩ ⟨.done a, o.store, v⟩ := by
  induction p generalizing c m w with
  | done b =>
      cases h
      exact ⟨m, w, hm, .refl⟩
  | get identity next ih =>
      rw [Script.run, host_get?_eq hm] at h
      cases hfound : RecordStore.get? m.store identity with
      | error fault =>
          rw [hfound] at h
          cases h
      | ok found =>
          rw [hfound] at h
          obtain ⟨o, v, ho, hrest⟩ := ih found hm _ h
          exact ⟨o, v, ho, .head (.get hfound) hrest⟩
  | upsert r next ih =>
      rw [Script.run] at h
      cases hwrite : (host i n draws).upsert c r with
      | error fault =>
          rw [hwrite] at h
          cases h
      | ok e =>
          rw [hwrite] at h
          obtain ⟨t, hstored, he⟩ := host_upsert_eq_ok hm hwrite
          obtain ⟨o, v, ho, hrest⟩ := ih () he none h
          exact ⟨o, v, ho, .head (.upsert hstored) hrest⟩
  | trim next ih =>
      rw [Script.run] at h
      cases htrim : (host i n draws).trim c with
      | error fault =>
          rw [htrim] at h
          cases h
      | ok result =>
          rw [htrim] at h
          obtain ⟨t, htrimmed, he⟩ := host_trim_eq_ok hm htrim
          obtain ⟨o, v, ho, hrest⟩ := ih result.1 he none h
          exact ⟨o, v, ho, .head (.trim htrimmed) hrest⟩
  | lookup identity next ih =>
      let answer := Directory.lookup (timeoutOf n) c.directory identity
      obtain ⟨given, hgiven⟩ := Directory.exists_outcome_lookup (timeoutOf n) c.directory identity
      obtain ⟨e, u, he, hwait⟩ := reaches_await hm draws answer (.lookup identity next) w
      obtain ⟨o, v, ho, hrest⟩ := ih answer.outcome he u h
      refine ⟨o, v, ho, hwait.trans (.head ?_ hrest)⟩
      rw [hgiven]
      exact .lookup given
  | publish identity r next ih =>
      let answer := Directory.publish (timeoutOf n) c.directory identity r
      obtain ⟨e, u, he, hwait⟩ := reaches_await hm draws answer (.publish identity r next) w
      obtain ⟨o, v, ho, hrest⟩ := ih answer.outcome he u h
      exact ⟨o, v, ho, hwait.trans (.head (.publish answer.outcome) hrest)⟩

end Cluster

theorem Node.resolve_guarded (identity : String) (seen : Option (String × Option Record)) :
    (Node.resolve identity).Guarded (fun _ => False) (fun _ _ => False) seen := by
  intro found _
  cases found with
  | some r => trivial
  | none =>
      intro answer hanswer
      cases answer with
      | none => trivial
      | some r => exact ⟨.inr ⟨none, by rw [hanswer r rfl], r.succeeds_none _⟩, fun _ => trivial⟩

namespace Contacts

variable {listed : String → String → Prop}

def hint (name digits identity : String) (stored : Record) : Script Contact :=
  if stored.contactHint.isSome then .done ⟨name, digits, identity, .known, some stored⟩
  else
    let hinted := { stored with contactHint := some digits }
    .upsert hinted fun _ => .done ⟨name, digits, identity, .known, some hinted⟩

theorem hint_guarded (name : String) {digits : String} {stored : Record}
    (hlisted : listed digits stored.identity) :
    (hint name digits stored.identity stored).Guarded (fun _ => False) listed
      (some (stored.identity, some stored)) := by
  by_cases hhint : stored.contactHint.isSome
  · rw [hint, if_pos hhint]
    trivial
  · rw [hint, if_neg hhint]
    have hnone : stored.contactHint = none := by simpa using hhint
    refine ⟨.inr ⟨some stored, rfl, ?_⟩, trivial⟩
    intro p hp
    cases hp
    exact ⟨hnone, digits, hlisted, rfl⟩

theorem find_guarded (salt name : String) {digits : String}
    (hlisted : listed digits (Phone.hash salt digits)) (seen : Option (String × Option Record)) :
    (find salt name digits).Guarded (fun _ => False) listed seen := by
  intro found hfound
  cases found with
  | some stored =>
      rw [← hfound stored rfl] at hlisted ⊢
      exact hint_guarded name hlisted
  | none =>
      intro answer hanswer
      cases answer with
      | none => trivial
      | some r =>
          exact ⟨.inr ⟨none, by simp [hanswer r rfl], Record.succeeds_none _ _⟩,
            fun _ => trivial⟩

end Contacts

theorem Node.discover_guarded {σ : Type} (n : Node σ) (phoneBook : List PhoneBookEntry)
    (seen : Option (String × Option Record)) :
    (n.discover phoneBook).Guarded (fun _ => False)
      (Contacts.Lists n.config.identitySalt phoneBook) seen := by
  have hfind : ∀ entry ∈ Contacts.distinct [] phoneBook, ∀ seen,
      (Contacts.find n.config.identitySalt entry.1 entry.2).Guarded (fun _ => False)
        (Contacts.Lists n.config.identitySalt phoneBook) seen :=
    fun entry hentry => Contacts.find_guarded _ entry.1 (Contacts.lists_of_mem_distinct _ hentry)
  exact (Script.Guarded.mapM hfind seen).bind fun _ _ => trivial

end PeerBook
