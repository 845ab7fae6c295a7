import Mathlib.Data.List.Infix
import PeerBook.Proofs.Store.IndexExactness

namespace PeerBook

open StoreKind

def Call.update? (identity key : String) : Call → Option Record
  | merge u =>
    if u.identity = identity ∧ (u.publicKey = key ∨ u.publicKey = "") then some u else none
  | _ => none

def updatesFor (identity key : String) (calls : List Call) : List Record :=
  calls.filterMap (Call.update? identity key)

theorem publicKey_of_mem_updatesFor {identity key : String} {u : Record} {calls : List Call}
    (h : u ∈ updatesFor identity key calls) : u.publicKey = key ∨ u.publicKey = "" := by
  obtain ⟨call, -, hcall⟩ := List.mem_filterMap.mp h
  cases call with
  | merge v =>
      rw [Call.update?, Option.ite_none_right_eq_some] at hcall
      obtain ⟨⟨-, hadmitted⟩, ⟨⟩⟩ := hcall
      exact hadmitted
  | get | upsert | recent | all | trim | sweep | remove | size | isEmpty | reopen => cases hcall

def latest (start : Timestamp) (updates : List Record) : Timestamp :=
  updates.foldl (fun t u => max t u.lastSeen) start

/-- What a record has become once some updates were merged into it. -/
structure Pinned (start final : Record) (updates : List Record) : Prop where
  identity : final.identity = start.identity
  publicKey : final.publicKey = start.publicKey
  lastSeen : final.lastSeen = latest start.lastSeen updates
  /-- The first update to attain the latest time tells where the peer is. -/
  moved : start.lastSeen < latest start.lastSeen updates →
    ∃ u, updates.find? (fun u => u.lastSeen = latest start.lastSeen updates) = some u ∧
      final.address = u.address ∧ final.port = u.port ∧ final.synced = u.synced
  unmoved : ¬start.lastSeen < latest start.lastSeen updates →
    final.address = start.address ∧ final.port = start.port ∧ final.synced = start.synced
  contactHint : start.contactHint.isSome → final.contactHint.isSome

theorem le_latest (start : Timestamp) (updates : List Record) : start ≤ latest start updates := by
  induction updates generalizing start with
  | nil => exact UInt64.le_refl start
  | cons u us ih =>
      refine UInt64.le_trans ?_ (ih (max start u.lastSeen))
      rw [UInt64.max_def]
      split
      · assumption
      · exact UInt64.le_refl start

theorem latest_cons_of_le {start : Timestamp} {u : Record} (h : u.lastSeen ≤ start)
    (us : List Record) : latest start (u :: us) = latest start us := by
  have hmax : max start u.lastSeen = start := by
    rw [UInt64.max_def]
    split
    · exact UInt64.le_antisymm h ‹_›
    · rfl
  rw [latest, List.foldl_cons, hmax, latest]

theorem latest_cons_of_lt {start : Timestamp} {u : Record} (h : start < u.lastSeen)
    (us : List Record) : latest start (u :: us) = latest u.lastSeen us := by
  rw [latest, List.foldl_cons, UInt64.max_def, if_pos (UInt64.le_of_lt h), latest]

namespace Pinned

variable {start final u : Record} {us : List Record}

theorem nil (r : Record) : Pinned r r [] where
  identity := rfl
  publicKey := rfl
  lastSeen := rfl
  moved h := (UInt64.lt_irrefl r.lastSeen h).elim
  unmoved _ := ⟨rfl, rfl, rfl⟩
  contactHint h := h

theorem cons_of_le (hle : u.lastSeen ≤ start.lastSeen) (h : Pinned start final us) :
    Pinned start final (u :: us) where
  identity := h.identity
  publicKey := h.publicKey
  lastSeen := by rw [latest_cons_of_le hle, h.lastSeen]
  moved hlt := by
    rw [latest_cons_of_le hle] at hlt ⊢
    obtain ⟨v, hv, hmoved⟩ := h.moved hlt
    have hne : u.lastSeen ≠ latest start.lastSeen us :=
      UInt64.ne_of_lt (UInt64.lt_of_le_of_lt hle hlt)
    exact ⟨v, by rw [List.find?_cons_of_neg (by simpa using hne), hv], hmoved⟩
  unmoved hlt := by
    rw [latest_cons_of_le hle] at hlt
    exact h.unmoved hlt
  contactHint := h.contactHint

theorem cons_of_lt (hkey : start.publicKey ≠ "") (hlt : start.lastSeen < u.lastSeen)
    (h : Pinned (start.updated u) final us) : Pinned start final (u :: us) where
  identity := h.identity
  publicKey := h.publicKey.trans (if_neg hkey)
  lastSeen := by rw [latest_cons_of_lt hlt, h.lastSeen, Record.updated]
  moved _ := by
    rw [latest_cons_of_lt hlt]
    by_cases hmore : u.lastSeen < latest u.lastSeen us
    · obtain ⟨v, hv, hmoved⟩ := h.moved hmore
      exact ⟨v, by rw [List.find?_cons_of_neg (by simpa using UInt64.ne_of_lt hmore), ← hv]; rfl,
        hmoved⟩
    · have heq : u.lastSeen = latest u.lastSeen us :=
        UInt64.le_antisymm (le_latest _ _) (UInt64.not_lt.mp hmore)
      exact ⟨u, by rw [List.find?_cons_of_pos (by simpa using heq)], h.unmoved hmore⟩
  unmoved hnot := by
    rw [latest_cons_of_lt hlt] at hnot
    exact (hnot (UInt64.lt_of_lt_of_le hlt (le_latest _ _))).elim
  contactHint hhint := h.contactHint (by simp [Record.updated, hhint])

theorem foldl_absorb (hkey : start.publicKey ≠ "")
    (hus : ∀ u ∈ us, u.publicKey = start.publicKey ∨ u.publicKey = "") :
    Pinned start (us.foldl Record.absorb start) us := by
  induction us generalizing start with
  | nil => exact nil start
  | cons u us ih =>
      obtain ⟨hu, hus⟩ := List.forall_mem_cons.mp hus
      have hpass : ¬start.contradicts u := by
        rw [Record.contradicts_iff hkey]
        rintro ⟨hne, hother⟩
        exact hu.elim hother hne
      rw [List.foldl_cons]
      by_cases hle : u.lastSeen ≤ start.lastSeen
      · rw [Record.absorb_of_le hle]
        exact cons_of_le hle (ih hkey hus)
      · have hlt := UInt64.not_le.mp hle
        have hsame : (start.updated u).publicKey = start.publicKey := if_neg hkey
        rw [Record.absorb_of_lt hpass hlt]
        exact cons_of_lt hkey hlt (ih (hsame ▸ hkey) (hsame ▸ hus))

end Pinned

def Call.sheds : Call → Bool
  | trim | sweep _ => true
  | _ => false

theorem Call.written?_of_sheds {call : Call} (h : call.sheds) : call.written? = none := by
  cases call with
  | trim | sweep => rfl
  | _ => cases h

open RecordStore in
/-- No call writes the identity but by a merge, none removes it, and it outlives what the store
sheds. -/
structure Undisturbed {σ : Type} [StoreKind σ] (s : σ) (identity : String) (calls : List Call) :
    Prop where
  notOverwritten : ∀ r, .upsert r ∈ calls → r.identity ≠ identity
  notRemoved : .remove identity ∉ calls
  notShed : ∀ done call, done ++ [call] <+: calls → call.sheds →
    ∃ r, get? (after s (done ++ [call])) identity = .ok (some r)

namespace Undisturbed

variable {σ : Type} [StoreKind σ] {s : σ} {identity : String} {call : Call} {calls more : List Call}

theorem left (h : Undisturbed s identity (calls ++ more)) : Undisturbed s identity calls where
  notOverwritten r hr := h.notOverwritten r (List.mem_append_left more hr)
  notRemoved hin := h.notRemoved (List.mem_append_left more hin)
  notShed done call hdone := h.notShed done call (hdone.trans (List.prefix_append calls more))

theorem tail (h : Undisturbed s identity (call :: calls)) :
    Undisturbed (perform s call).2 identity calls where
  notOverwritten r hr := h.notOverwritten r (List.mem_cons_of_mem call hr)
  notRemoved hin := h.notRemoved (List.mem_cons_of_mem call hin)
  notShed done c hdone := h.notShed (call :: done) c (List.cons_prefix_cons.mpr ⟨rfl, hdone⟩)

theorem head (h : Undisturbed s identity (call :: calls)) : Undisturbed s identity [call] :=
  left (show Undisturbed s identity ([call] ++ calls) from h)

end Undisturbed

def Call.absorbed (identity : String) (r : Record) : Call → Record
  | merge u => if u.identity = identity then r.absorb u else r
  | _ => r

theorem foldl_absorbed {identity : String} {r : Record} (hkey : r.publicKey ≠ "")
    (calls : List Call) :
    calls.foldl (Call.absorbed identity) r =
      (updatesFor identity r.publicKey calls).foldl Record.absorb r := by
  induction calls generalizing r with
  | nil => rfl
  | cons call calls ih =>
      cases call with
      | merge u =>
          rw [List.foldl_cons, Call.absorbed, updatesFor, List.filterMap_cons, Call.update?]
          by_cases hu : u.identity = identity
          · have hsame : (r.absorb u).publicKey = r.publicKey := Record.publicKey_absorb hkey
            rw [if_pos hu, ih (hsame ▸ hkey), hsame]
            by_cases hadmitted : u.publicKey = r.publicKey ∨ u.publicKey = ""
            · rw [if_pos ⟨hu, hadmitted⟩]
              rfl
            · have hother : r.contradicts u := by
                rw [Record.contradicts_iff hkey]
                exact ⟨fun h => hadmitted (.inr h), fun h => hadmitted (.inl h)⟩
              rw [if_neg fun h => hadmitted h.2, Record.absorb_of_contradicts hother]
              rfl
          · rw [if_neg hu, if_neg fun h => hu h.1, ih hkey]
            rfl
      | get | upsert | recent | all | trim | sweep | remove | size | isEmpty | reopen =>
          exact ih hkey

namespace Cache

variable {C : Cache} {r s u : Record} {identity : String} {call : Call} {calls : List Call}

theorem find?_merge (hr : C.find? u.identity = some r) :
    ((resolveMerge (some r) u).record?.elim C C.put).find? u.identity = some (r.absorb u) := by
  rw [Record.absorb]
  cases hmerged : (resolveMerge (some r) u).record? with
  | none => exact hr
  | some merged =>
      have hstored : ∀ s ∈ some r, s.identity = u.identity := hr ▸ find?_identity
      have hidentity := identity_of_resolveMerge hstored hmerged
      rw [Option.elim_some, find?_put, if_pos hidentity, Option.getD_some]

theorem find?_merge_of_ne (h : u.identity ≠ identity) :
    ((resolveMerge (C.find? u.identity) u).record?.elim C C.put).find? identity =
      C.find? identity := by
  cases hmerged : (resolveMerge (C.find? u.identity) u).record? with
  | none => rfl
  | some merged =>
      have hidentity := identity_of_resolveMerge find?_identity hmerged
      rw [Option.elim_some, find?_put, if_neg (hidentity ▸ h)]

theorem find?_perform_merge (h : r.identity ≠ "") : (perform C (.merge r)).2.find? r.identity =
    some (Record.mergedInto (C.find? r.identity) r) := by
  rw [perform_merge h]
  cases hfound : C.find? r.identity with
  | none => rw [resolveMerge, Resolution.record?, Option.elim_some, find?_put, if_pos rfl]; rfl
  | some stored => exact find?_merge hfound

theorem find?_perform_merge_of_ne (h : u.identity ≠ identity) :
    (perform C (.merge u)).2.find? identity = C.find? identity := by
  by_cases hnamed : u.identity = ""
  · rw [perform_nameless rfl hnamed]
  · rw [perform_merge hnamed]
    exact find?_merge_of_ne h

/-- Shedding leaves a record that outlives it as it is. -/
theorem find?_perform_of_sheds (hsheds : call.sheds) (h : Undisturbed C identity [call]) :
    (perform C call).2.find? identity = C.find? identity := by
  obtain ⟨s, hs⟩ := h.notShed [] call List.prefix_rfl hsheds
  have hs : (perform C call).2.find? identity = some s := Except.ok.inj hs
  exact hs.trans (find?_of_subset (entries_perform_subset (Call.written?_of_sheds hsheds)) hs).symm

/-- One call that does not disturb a record puts into it what it merges for it, and nothing else. -/
theorem find?_perform (hidentity : identity ≠ "") (hr : C.find? identity = some r)
    (h : Undisturbed C identity [call]) :
    (perform C call).2.find? identity = some (call.absorbed identity r) := by
  cases call with
  | upsert u =>
      by_cases hu : u.identity = ""
      · rw [perform_nameless rfl hu]
        exact hr
      · rw [perform_upsert hu, find?_put, if_neg (h.notOverwritten u List.mem_cons_self)]
        exact hr
  | merge u =>
      rw [Call.absorbed]
      by_cases hown : u.identity = identity
      · subst hown
        rw [find?_perform_merge hidentity, hr, if_pos rfl]
        rfl
      · rw [find?_perform_merge_of_ne hown, if_neg hown]
        exact hr
  | remove other =>
      have hne : identity ≠ other := fun he => h.notRemoved (he ▸ List.mem_cons_self)
      obtain ⟨hmem, rfl⟩ := find?_eq_some_iff.mp hr
      exact find?_eq_some_iff.mpr ⟨mem_keep.mpr ⟨hmem, decide_eq_true hne⟩, rfl⟩
  | trim | sweep => exact (find?_perform_of_sheds rfl h).trans hr
  | get | recent | all | size | isEmpty | reopen => exact hr

theorem find?_after (hidentity : identity ≠ "") (hr : C.find? identity = some r)
    (h : Undisturbed C identity calls) :
    (after C calls).find? identity = some (calls.foldl (Call.absorbed identity) r) := by
  induction calls generalizing C r with
  | nil => exact hr
  | cons call calls ih =>
      rw [after_cons, ih (find?_perform hidentity hr h.head) h.tail, List.foldl_cons]

end Cache

section Pins

variable {σ τ : Type} [StoreKind σ] [StoreKind τ]

open RecordStore in
/-- A record whose key is known goes through undisturbed calls under its identity and its key, and
takes from the updates what is latest. An update is turned away for its key exactly if it brings
another one, however late it is. -/
def KeepsPins (s : σ) (calls : List Call) : Prop :=
  ∀ identity start, get? s identity = .ok (some start) → start.publicKey ≠ "" →
    Undisturbed s identity calls →
    (∃ final, get? (after s calls) identity = .ok (some final) ∧ final.identity = identity ∧
      Pinned start final (updatesFor identity start.publicKey calls)) ∧
    ∀ done u rest, calls = done ++ .merge u :: rest → u.identity = identity →
      ∃ report, (perform (after s done) (.merge u)).1 = .ok (.merged report) ∧
        (report.outcome = .rejected .keyMismatch ↔
          u.publicKey ≠ "" ∧ u.publicKey ≠ start.publicKey)

theorem Cache.keepsPins {C : Cache} (hC : C.Named) (calls : List Call) : KeepsPins C calls := by
  intro identity start hstart hkey h
  have hstart : C.find? identity = some start := Except.ok.inj hstart
  obtain ⟨hmem, hfiled⟩ := Cache.find?_eq_some_iff.mp hstart
  have hidentity : identity ≠ "" := hfiled ▸ hC start hmem
  have hpinned (done : List Call) :
      Pinned start (done.foldl (Call.absorbed identity) start)
        (updatesFor identity start.publicKey done) := by
    rw [foldl_absorbed hkey]
    exact Pinned.foldl_absorb hkey fun _ => publicKey_of_mem_updatesFor
  refine ⟨⟨_, congrArg Except.ok (Cache.find?_after hidentity hstart h),
    (hpinned calls).identity.trans hfiled, hpinned calls⟩, ?_⟩
  rintro done u rest rfl hu
  subst hu
  rw [Cache.perform_merge hidentity, Cache.find?_after hidentity hstart h.left]
  refine ⟨_, rfl, ?_⟩
  have hsame := (hpinned done).publicKey
  rw [outcome_eq_keyMismatch_iff, Record.contradicts_iff (hsame ▸ hkey), hsame]

theorem StoreKind.Lockstep.keepsPins {rel : σ → τ → Prop} (L : Lockstep rel) {s : σ} {t : τ}
    (h : rel s t) {calls : List Call} (ht : KeepsPins t calls) : KeepsPins s calls := by
  have hget (done : List Call) (identity : String) :
      RecordStore.get? (StoreKind.after s done) identity =
        RecordStore.get? (StoreKind.after t done) identity :=
    L.get? (L.after h done) identity
  intro identity start hstart hkey hs
  have hundisturbed : Undisturbed t identity calls := by
    refine ⟨hs.notOverwritten, hs.notRemoved, fun done call hdone hsheds => ?_⟩
    rw [← hget]
    exact hs.notShed done call hdone hsheds
  obtain ⟨hfinal, hreports⟩ := ht identity start (hget [] identity ▸ hstart) hkey hundisturbed
  refine ⟨hget calls identity ▸ hfinal, fun done u rest hcalls hu => ?_⟩
  rw [(L.perform (L.after h done) (.merge u)).1]
  exact hreports done u rest hcalls hu

/-- From any state that calls lead to, both stores keep a known key for as long as its record stays,
and the record is the latest of what was merged for it under this key or under none. -/
theorem keepsPins_after (capacity : Nat) (past calls : List Call) :
    KeepsPins (after (MemoryStore.empty capacity) past) calls ∧
      KeepsPins (after (DurableStore.empty capacity) past) calls := by
  have hnamed := Cache.Named.after (C := Cache.empty capacity) (fun _ hr => nomatch hr) past
  have hmemory := MemoryStore.lockstep_shows.keepsPins (MemoryStore.shows_after capacity past)
    (Cache.keepsPins hnamed calls)
  exact ⟨hmemory,
    DurableStore.lockstep_mirrors.keepsPins (DurableStore.mirrors_after capacity past) hmemory⟩

open RecordStore in
/-- A forgery, however late, leaves no trace beside an update without a key. -/
theorem keepsPins_after_forgery :
    let start : Record := { identity := "a", publicKey := "k", lastSeen := 5 }
    let forged : Record := { start with publicKey := "f", lastSeen := 9 }
    let keyless : Record := { start with publicKey := "", lastSeen := 7, port := 1 }
    let other : Record := { start with identity := "b" }
    let calls : List Call := [.merge forged, .upsert other, .merge keyless, .trim, .remove "b"]
    let s := after (MemoryStore.empty 2) [.merge start]
    get? s "a" = .ok (some start) ∧ Undisturbed s "a" calls ∧
      ∃ final, get? (after s calls) "a" = .ok (some final) ∧ final.identity = "a" ∧
        Pinned start final [keyless] := by
  intro start forged keyless other calls s
  have hstart : get? s "a" = .ok (some start) := by decide +kernel
  have hkept : ∀ done ∈ calls.inits, ((after s done).find? "a").isSome := by decide +kernel
  have hundisturbed : Undisturbed s "a" calls := by
    refine ⟨fun r hr => ?_, by decide, fun done call hdone _ => ?_⟩
    · have hr : r = other := by simpa [calls] using hr
      subst hr
      decide
    · obtain ⟨r, hr⟩ := Option.isSome_iff_exists.mp (hkept _ ((List.mem_inits _ _).mpr hdone))
      exact ⟨r, congrArg Except.ok hr⟩
  have hkeeps := (keepsPins_after 2 [.merge start] calls).1
  exact ⟨hstart, hundisturbed, (hkeeps "a" start hstart (by decide) hundisturbed).1⟩

end Pins

end PeerBook
