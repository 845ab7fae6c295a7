import PeerBook.Proofs.Store.CacheLike
import PeerBook.Store.Faulty

namespace PeerBook

open StoreKind

namespace FaultyStore

variable {σ α : Type}

instance [StoreKind σ] : StoreKind (FaultyStore σ) where
  empty capacity := { inner := StoreKind.empty capacity }
  reopen s capacity := s.withInner (StoreKind.reopen s.inner capacity)

theorem read_cases (refused : Bool) (result : Except Fault α) (answer : α → Answer) :
    (∃ fault, (refuseIf refused result).map answer = .error fault) ∨
      (refuseIf refused result).map answer = result.map answer := by
  cases refused with
  | true => exact .inl ⟨refusal, rfl⟩
  | false => exact .inr rfl

theorem settle_withInner (answer : α → Answer) (s : FaultyStore σ) (result : Except Fault (α × σ)) :
    settle answer s (result.map fun (a, inner) => (a, s.withInner inner)) =
      ((settle answer s.inner result).1, s.withInner (settle answer s.inner result).2) := by
  cases result <;> rfl

theorem write_cases (refused : Bool) (answer : α → Answer) (s : FaultyStore σ)
    (result : Except Fault (α × σ)) :
    let settled := settle answer s
      (refuseIf refused (result.map fun (a, inner) => (a, s.withInner inner)))
    (∃ fault, settled.1 = .error fault) ∧ settled.2.inner = s.inner ∨
      settled.1 = (settle answer s.inner result).1 ∧
        settled.2.inner = (settle answer s.inner result).2 := by
  cases refused with
  | true => exact .inl ⟨⟨refusal, rfl⟩, rfl⟩
  | false =>
      rw [refuseIf, if_neg Bool.false_ne_true, settle_withInner]
      exact .inr ⟨rfl, rfl⟩

theorem perform_inner [StoreKind σ] (s : FaultyStore σ) (call : Call) :
    (∃ fault, (perform s call).1 = .error fault) ∧ (perform s call).2.inner = s.inner ∨
      (perform s call).1 = (perform s.inner call).1 ∧
        (perform s call).2.inner = (perform s.inner call).2 := by
  cases call with
  | get identity => exact (read_cases s.reads _ _).imp (⟨·, rfl⟩) (⟨·, rfl⟩)
  | recent | all => exact (read_cases s.reads _ _).imp (⟨·, rfl⟩) (⟨·, rfl⟩)
  | merge r => exact write_cases (s.merges.contains r.identity) _ s _
  | trim => exact write_cases s.trims _ s _
  | upsert r =>
      refine .inr ?_
      simp only [perform, RecordStore.upsert]
      cases RecordStore.upsert s.inner r <;> exact ⟨rfl, rfl⟩
  | sweep | remove => exact write_cases false _ s _
  | size | isEmpty | reopen => exact .inr ⟨rfl, rfl⟩

instance [RefusingStore σ] : RefusingStore (FaultyStore σ) where
  shows s C := RefusingStore.shows s.inner C
  perform_cases {s C} h call := by
    rcases s.perform_inner call with ⟨hrefused, hsame⟩ | ⟨hanswer, hinner⟩
    · exact .inl ⟨hrefused, hsame ▸ h⟩
    · rw [hanswer, hinner]
      exact RefusingStore.perform_cases h call

end FaultyStore

namespace RefusingStore

variable {σ : Type} [RefusingStore σ] {s t : σ} {C : Cache} {call : Call}

theorem shows_perform (h : shows s C) {answer : Answer} (hok : perform s call = (.ok answer, t)) :
    perform C call = (.ok answer, (perform C call).2) ∧ shows t (perform C call).2 := by
  rcases perform_cases h call with ⟨⟨fault, hfault⟩, -⟩ | ⟨hanswer, hshows⟩
  · rw [hok] at hfault
    cases hfault
  · rw [hok] at hanswer hshows
    exact ⟨Prod.ext hanswer.symm rfl, hshows⟩

theorem get?_eq (h : shows s C) {identity : String} {found : Option Record}
    (hok : RecordStore.get? s identity = .ok found) : found = C.find? identity := by
  have hperform : perform s (.get identity) = (.ok (.found found), s) := by
    rw [perform, hok]
    rfl
  have hfound := congrArg Prod.fst (shows_perform h hperform).1
  exact (Answer.found.inj (Except.ok.inj hfound)).symm

theorem all_eq (h : shows s C) {stored : List Record} (hok : RecordStore.all s = .ok stored) :
    stored = C.entries.take C.capacity := by
  have hperform : perform s .all = (.ok (.listed stored), s) := by
    rw [perform, hok]
    rfl
  have hlisted := congrArg Prod.fst (shows_perform h hperform).1
  exact (Answer.listed.inj (Except.ok.inj hlisted)).symm

/-- The calls that are not refused tell what is left. -/
theorem exists_after (h : shows s C) (calls : List Call) :
    ∃ done, done.Sublist calls ∧ shows (after s calls) (after C done) := by
  induction calls generalizing s C with
  | nil => exact ⟨[], .slnil, h⟩
  | cons call calls ih =>
      rcases perform_cases h call with ⟨-, hshows⟩ | ⟨-, hshows⟩
      · obtain ⟨done, hsub, hlast⟩ := ih hshows
        exact ⟨done, hsub.cons call, hlast⟩
      · obtain ⟨done, hsub, hlast⟩ := ih hshows
        exact ⟨call :: done, hsub.cons_cons call, hlast⟩

end RefusingStore

/-- A call that stores a record with a warrant only, and takes none away but for its age. -/
def Call.Warranted (may : Record → Option Record → Prop) (C : Cache) : Call → Prop
  | upsert r => may r (C.find? r.identity)
  | merge _ | remove _ | reopen _ => False
  | get _ | recent _ | all | trim | sweep _ | size | isEmpty => True

def Call.Ages (call : Call) : Prop :=
  call = .trim ∨ ∃ olderThan, call = .sweep olderThan

namespace Cache

variable {may : Record → Option Record → Prop} {C D : Cache} {call : Call}
  {calls more : List Call} {p r : Record}

def Warranted (may : Record → Option Record → Prop) : Cache → List Call → Prop
  | _, [] => True
  | C, call :: calls => call.Warranted may C ∧ Warranted may (perform C call).2 calls

theorem warranted_append : Warranted may C (calls ++ more) ↔
    Warranted may C calls ∧ Warranted may (after C calls) more := by
  induction calls generalizing C with
  | nil => exact ⟨fun h => ⟨trivial, h⟩, And.right⟩
  | cons call calls ih =>
      rw [List.cons_append, Warranted, Warranted, ih, and_assoc]
      rfl

theorem warranted_of_sweeps (h : ∀ call ∈ calls, ∃ olderThan, call = .sweep olderThan) :
    Warranted may C calls := by
  induction calls generalizing C with
  | nil => trivial
  | cons call calls ih =>
      obtain ⟨⟨olderThan, rfl⟩, hcalls⟩ := List.forall_mem_cons.mp h
      exact ⟨trivial, ih hcalls⟩

theorem mem_perform (h : call.Warranted may C) (hr : r ∈ (perform C call).2.entries) :
    r ∈ C.entries ∨ call = .upsert r ∧ may r (C.find? r.identity) := by
  cases call with
  | upsert u =>
      by_cases hnamed : u.identity = ""
      · rw [perform_nameless rfl hnamed] at hr
        exact .inl hr
      · rw [perform_upsert hnamed] at hr
        rcases mem_put.mp hr with rfl | ⟨hr, -⟩
        · exact .inr ⟨rfl, h⟩
        · exact .inl hr
  | merge | remove | reopen => exact h.elim
  | trim => exact .inl (mem_top.mp hr).1
  | sweep => exact .inl (mem_keep.mp hr).1
  | get | recent | all | size | isEmpty => exact .inl hr

theorem mem_after (h : C.Warranted may calls) (hr : r ∈ (after C calls).entries) :
    r ∈ C.entries ∨ ∃ done rest, calls = done ++ .upsert r :: rest ∧
      may r ((after C done).find? r.identity) := by
  induction calls generalizing C with
  | nil => exact .inl hr
  | cons call calls ih =>
      rcases ih h.2 hr with hr | ⟨done, rest, rfl, hmay⟩
      · refine (mem_perform h.1 hr).imp_right ?_
        rintro ⟨rfl, hmay⟩
        exact ⟨[], calls, rfl, hmay⟩
      · exact .inr ⟨call :: done, rest, rfl, hmay⟩

def Loses (C : Cache) (calls : List Call) (p : Record) (call : Call) : Prop :=
  ∃ done rest, calls = done ++ call :: rest ∧ p ∈ (after C done).entries ∧
    p ∉ (after C (done ++ [call])).entries

theorem Loses.cons {next : Call} (h : Loses (perform C next).2 calls p call) :
    Loses C (next :: calls) p call := by
  obtain ⟨done, rest, rfl, hthere, hgone⟩ := h
  exact ⟨next :: done, rest, rfl, hthere, hgone⟩

theorem mem_perform_of_mem (h : call.Warranted may C) (hp : p ∈ C.entries) :
    p ∈ (perform C call).2.entries ∨ call.Ages ∨
      ∃ r, r.identity = p.identity ∧ may r (some p) ∧ r ∈ (perform C call).2.entries := by
  cases call with
  | upsert u =>
      by_cases hnamed : u.identity = ""
      · rw [perform_nameless rfl hnamed]
        exact .inl hp
      · rw [perform_upsert hnamed]
        by_cases hsame : u.identity = p.identity
        · have hfound : C.find? u.identity = some p := find?_eq_some_iff.mpr ⟨hp, hsame.symm⟩
          exact .inr (.inr ⟨u, hsame, hfound ▸ h, mem_put.mpr (.inl rfl)⟩)
        · exact .inl (mem_put.mpr (.inr ⟨hp, fun he => hsame he.symm⟩))
  | merge | remove | reopen => exact h.elim
  | trim => exact .inr (.inl (.inl rfl))
  | sweep olderThan => exact .inr (.inl (.inr ⟨olderThan, rfl⟩))
  | get | recent | all | size | isEmpty => exact .inl hp

theorem mem_after_or_loses (h : C.Warranted may calls) (hp : p ∈ C.entries)
    (hlast : ∀ r, may r (some p) → r = p) :
    p ∈ (after C calls).entries ∨ ∃ call, call.Ages ∧ C.Loses calls p call := by
  induction calls generalizing C with
  | nil => exact .inl hp
  | cons call calls ih =>
      by_cases hkept : p ∈ (perform C call).2.entries
      · refine (ih h.2 hkept).imp_right ?_
        rintro ⟨next, hages, hloses⟩
        exact ⟨next, hages, hloses.cons⟩
      · rcases mem_perform_of_mem h.1 hp with hp | hages | ⟨r, -, hmay, hr⟩
        · exact absurd hp hkept
        · exact .inr ⟨call, hages, [], calls, rfl, hp, hkept⟩
        · exact absurd (hlast r hmay ▸ hr) hkept

/-- If what replaces a record is not replaced in its turn, each record that was there is there
afterwards or has been replaced once, unless it has gone for its age. -/
theorem exists_mem_after_or_loses (h : C.Warranted may calls)
    (honce : ∀ p q r, may q (some p) → may r (some q) → r = q) (hp : p ∈ C.entries) :
    ∃ q, (q = p ∨ q.identity = p.identity ∧ may q (some p)) ∧
      (q ∈ (after C calls).entries ∨ ∃ call, call.Ages ∧ C.Loses calls q call) := by
  induction calls generalizing C with
  | nil => exact ⟨p, .inl rfl, .inl hp⟩
  | cons call calls ih =>
      by_cases hkept : p ∈ (perform C call).2.entries
      · obtain ⟨q, hq, hfate⟩ := ih h.2 hkept
        refine ⟨q, hq, hfate.imp_right ?_⟩
        rintro ⟨next, hages, hloses⟩
        exact ⟨next, hages, hloses.cons⟩
      · rcases mem_perform_of_mem h.1 hp with hp | hages | ⟨r, hsame, hmay, hr⟩
        · exact absurd hp hkept
        · exact ⟨p, .inl rfl, .inr ⟨call, hages, [], calls, rfl, hp, hkept⟩⟩
        · refine ⟨r, .inr ⟨hsame, hmay⟩, ?_⟩
          refine (mem_after_or_loses h.2 hr fun s hs => honce p r s hmay hs).imp_right ?_
          rintro ⟨next, hages, hloses⟩
          exact ⟨next, hages, hloses.cons⟩

end Cache

end PeerBook
