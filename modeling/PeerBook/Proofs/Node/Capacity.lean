import PeerBook.Proofs.Node.Interleaving

namespace PeerBook

open StoreKind

namespace Cache

variable {C D : Cache} {own : Option String} {calls more : List Call} {r : Record}

def others (own : Option String) (C : Cache) : Nat :=
  C.entries.countP fun r => some r.identity ≠ own

theorem others_none (C : Cache) : C.others none = C.entries.length := by
  simp [others]

theorem others_le (h : ∀ r ∈ D.entries, some r.identity ≠ own →
    ∃ s ∈ C.entries, s.identity = r.identity) : D.others own ≤ C.others own := by
  -- An identity has one record only, so that records can be counted by their identities.
  have hcount (E : Cache) : E.others own =
      ((E.entries.map Record.identity).filter fun identity => some identity ≠ own).length := by
    rw [← List.countP_eq_length_filter, List.countP_map]
    rfl
  rw [hcount, hcount]
  refine (List.subperm_of_subset (D.nodup_identities.filter _) fun identity hmem => ?_).length_le
  obtain ⟨hidentity, hother⟩ := List.mem_filter.mp hmem
  obtain ⟨r, hr, rfl⟩ := List.mem_map.mp hidentity
  obtain ⟨s, hs, he⟩ := h r hr (of_decide_eq_true hother)
  exact List.mem_filter.mpr ⟨List.mem_map.mpr ⟨s, hs, he⟩, hother⟩

theorem length_le_of_identities
    (h : ∀ r ∈ D.entries, ∃ s ∈ C.entries, s.identity = r.identity) :
    D.entries.length ≤ C.entries.length := by
  rw [← others_none, ← others_none]
  exact others_le fun r hr _ => h r hr

theorem length_le_others (own : Option String) (C : Cache) :
    C.entries.length ≤ C.others own + 1 := by
  have hone : (C.entries.countP fun r => some r.identity = own) ≤ 1 := by
    cases own with
    | none => simp
    | some own =>
        have hcount := List.nodup_iff_count_le_one.mp C.nodup_identities own
        rw [List.count, List.countP_map] at hcount
        refine le_of_eq_of_le (List.countP_congr fun r _ => ?_) hcount
        simp
  have hsplit := C.entries.length_eq_countP_add_countP fun r => some r.identity ≠ own
  simp only [decide_eq_true_eq, not_not] at hsplit
  rw [others]
  omega

theorem capacity_perform {call : Call} (h : ∀ other, call ≠ .reopen other) :
    (perform C call).2.capacity = C.capacity := by
  cases call with
  | upsert r =>
      by_cases hnamed : r.identity = ""
      · rw [perform_nameless rfl hnamed]
      · rw [perform_upsert hnamed]
        rfl
  | merge r =>
      by_cases hnamed : r.identity = ""
      · rw [perform_nameless rfl hnamed]
      · rw [perform_merge hnamed]
        cases (resolveMerge (C.find? r.identity) r).record? <;> rfl
  | reopen other => exact absurd rfl (h other)
  | get | recent | all | trim | sweep | remove | size | isEmpty => rfl

theorem capacity_after (h : ∀ call ∈ calls, ∀ other, call ≠ .reopen other) :
    (after C calls).capacity = C.capacity := by
  induction calls generalizing C with
  | nil => rfl
  | cons call calls ih =>
      obtain ⟨hcall, hrest⟩ := List.forall_mem_cons.mp h
      exact (ih hrest).trans (capacity_perform hcall)

/-- Calls have left no more records than the capacity, but for an own one that was put there after
the last trim. -/
structure Within (own : Option String) (capacity : Nat) (calls : List Call) (C : Cache) :
    Prop where
  capacity_eq : C.capacity = capacity
  others_le : C.others own ≤ capacity
  excess : capacity < C.entries.length → ∃ before r since,
    calls = before ++ .upsert r :: since ∧ some r.identity = own ∧ .trim ∉ since

namespace Within

variable {capacity : Nat}

theorem of_length_le (hcapacity : C.capacity = capacity) (h : C.entries.length ≤ capacity) :
    C.Within own capacity calls :=
  ⟨hcapacity, List.countP_le_length.trans h, fun hexceeds => absurd h (Nat.not_le.mpr hexceeds)⟩

theorem top (h : C.capacity = capacity) : C.top.Within own capacity calls :=
  of_length_le h ((List.length_take_le _ _).trans_eq h)

theorem length_le (h : C.Within own capacity calls) : C.entries.length ≤ capacity + 1 :=
  (C.length_le_others own).trans (Nat.succ_le_succ h.others_le)

theorem append (h : C.Within own capacity calls) (hcapacity : D.capacity = C.capacity)
    (hD : ∀ r ∈ D.entries, ∃ s ∈ C.entries, s.identity = r.identity) (hmore : .trim ∉ more) :
    D.Within own capacity (calls ++ more) where
  capacity_eq := hcapacity.trans h.capacity_eq
  others_le := (Cache.others_le fun r hr _ => hD r hr).trans h.others_le
  excess hexceeds := by
    obtain ⟨before, r, since, rfl, hown, hsince⟩ :=
      h.excess (hexceeds.trans_le (length_le_of_identities hD))
    refine ⟨before, r, since ++ more, by simp, hown, ?_⟩
    rw [List.mem_append, not_or]
    exact ⟨hsince, hmore⟩

theorem put_stored (h : C.Within own capacity calls) (hr : (C.find? r.identity).isSome) :
    (C.put r).Within own capacity (calls ++ [.upsert r]) := by
  obtain ⟨p, hp⟩ := Option.isSome_iff_exists.mp hr
  obtain ⟨hmem, hidentity⟩ := find?_eq_some_iff.mp hp
  refine h.append rfl (fun s hs => ?_) (by simp)
  rcases mem_put.mp hs with rfl | ⟨hs, -⟩
  · exact ⟨p, hmem, hidentity⟩
  · exact ⟨s, hs, rfl⟩

theorem put_own (h : C.Within own capacity calls) (hr : some r.identity = own) :
    (C.put r).Within own capacity (calls ++ [.upsert r]) where
  capacity_eq := h.capacity_eq
  others_le := by
    refine le_trans (Cache.others_le fun s hs hother => ?_) h.others_le
    rcases mem_put.mp hs with rfl | ⟨hs, -⟩
    · exact absurd hr hother
    · exact ⟨s, hs, rfl⟩
  excess _ := ⟨calls, r, [], rfl, hr, List.not_mem_nil⟩

theorem upsert_nameless (h : C.Within own capacity calls) :
    C.Within own capacity (calls ++ [.upsert r]) :=
  h.append rfl (fun s hs => ⟨s, hs, rfl⟩) (by simp)

theorem sweeps (h : C.Within own capacity calls) (hmore : ∀ call ∈ more, call.IsSweep) :
    (after C more).Within own capacity (calls ++ more) := by
  have hother (call : Call) (hcall : ∀ olderThan, call ≠ .sweep olderThan) : call ∉ more := by
    intro hmem
    obtain ⟨olderThan, he⟩ := hmore call hmem
    exact hcall olderThan he
  refine h.append (capacity_after fun call hcall other he => ?_) (fun r hr => ⟨r, ?_, rfl⟩)
    (hother _ nofun)
  · exact hother (.reopen other) nofun (he ▸ hcall)
  · refine entries_after_subset (fun call hcall => ?_) r hr
    obtain ⟨olderThan, rfl⟩ := hmore call hcall
    rfl

/-- A packet ends with a trim if anything of it is taken in. -/
theorem text {σ : Type} [StoreKind σ] (h : C.Within own capacity calls) (g : Gossiper σ)
    (text source : String) (now : Nat) :
    (after C (g.callsOfText text source now)).Within own capacity
      (calls ++ g.callsOfText text source now) := by
  rw [Gossiper.callsOfText]
  split
  · rw [Gossiper.batchCalls, after_append]
    refine .top ((capacity_after fun call hcall other => ?_).trans h.capacity_eq)
    obtain ⟨r, -, rfl⟩ := List.mem_map.mp hcall
    simp
  · rw [List.append_nil]
    exact h

end Within

end Cache

/-- How a store stands between two requests of a script. -/
inductive Standing where
  | loose
  /-- There is nothing left to do. The identity was found to be stored, if one is given. -/
  | settled (stored : Option String)

def Standing.Holds (own : Option String) (capacity : Nat) (calls : List Call) (C : Cache) :
    Standing → Prop
  | loose => C.capacity = capacity
  | settled stored =>
    C.Within own capacity calls ∧ ∀ identity ∈ stored, (C.find? identity).isSome

theorem Standing.holds_settled {own : Option String} {capacity : Nat} {calls : List Call}
    {C : Cache} (h : C.Within own capacity calls) :
    (settled none).Holds own capacity calls C :=
  ⟨h, by simp⟩

namespace Script

variable {α β : Type} {own : Option String}

/-- Whether each record is followed by a trim, unless it is an own one or one for an identity that
was stored just before. -/
def Tidy (own : Option String) : Standing → Script α → Prop
  | .settled _, .done _ => True
  | .settled _, .get identity next =>
      ∀ found : Option Record, (∀ r ∈ found, r.identity = identity) →
        Tidy own (.settled (found.map Record.identity)) (next found)
  | .settled stored, .upsert r next =>
      (some r.identity = own ∨ some r.identity = stored) ∧ Tidy own (.settled none) (next ()) ∨
        Tidy own .loose (next ())
  | .settled _, .lookup _ next => ∀ found, Tidy own (.settled none) (next found)
  | .settled _, .publish _ _ next => ∀ accepted, Tidy own (.settled none) (next accepted)
  | _, .trim next => ∀ evicted, Tidy own (.settled none) (next evicted)
  | .loose, _ => False

theorem Tidy.bind {standing : Standing} {p : Script α} {f : α → Script β}
    (hp : p.Tidy own standing) (hf : ∀ a stored, (f a).Tidy own (.settled stored)) :
    (p.bind f).Tidy own standing := by
  induction p generalizing standing with
  | done a =>
      cases standing with
      | loose => exact hp.elim
      | settled stored => exact hf a stored
  | get identity next ih =>
      cases standing with
      | loose => exact hp.elim
      | settled stored => exact fun found hfound => ih found (hp found hfound)
  | upsert r next ih =>
      cases standing with
      | loose => exact hp.elim
      | settled stored => exact hp.imp (fun h => ⟨h.1, ih () h.2⟩) (ih ())
  | trim next ih => cases standing <;> exact fun evicted => ih evicted (hp evicted)
  | lookup identity next ih =>
      cases standing with
      | loose => exact hp.elim
      | settled stored => exact fun found => ih found (hp found)
  | publish identity r next ih =>
      cases standing with
      | loose => exact hp.elim
      | settled stored => exact fun accepted => ih accepted (hp accepted)

theorem Tidy.mapM {f : α → Script β} (hf : ∀ a stored, (f a).Tidy own (.settled stored))
    (as : List α) (stored : Option String) : (as.mapM f).Tidy own (.settled stored) := by
  induction as generalizing stored with
  | nil => trivial
  | cons a as ih =>
      rw [List.mapM_cons]
      exact (hf a stored).bind fun b stored => (ih stored).bind fun bs stored => trivial

end Script

section Errands

variable {own : Option String}

theorem Contacts.find_tidy (salt name digits : String) (stored : Option String) :
    (Contacts.find salt name digits).Tidy own (.settled stored) := by
  intro found hfound
  cases found with
  | none =>
      intro answer
      cases answer with
      | none => trivial
      | some r => exact .inr fun _ => trivial
  | some r =>
      change (Contacts.hint name digits (Phone.hash salt digits) r).Tidy own _
      rw [Contacts.hint]
      split
      · trivial
      · exact .inl ⟨.inr rfl, trivial⟩

theorem Node.resolve_tidy (identity : String) (stored : Option String) :
    (Node.resolve identity).Tidy own (.settled stored) := by
  intro found _
  cases found with
  | some r => trivial
  | none =>
      intro answer
      cases answer with
      | none => trivial
      | some r => exact .inr fun _ => trivial

theorem Node.discover_tidy {σ : Type} (n : Node σ) (phoneBook : List PhoneBookEntry)
    (stored : Option String) : (n.discover phoneBook).Tidy own (.settled stored) := by
  have hfind (entry : String × String) (stored : Option String) :
      (Contacts.find n.config.identitySalt entry.1 entry.2).Tidy own (.settled stored) :=
    Contacts.find_tidy _ _ _ stored
  exact (Script.Tidy.mapM hfind (Contacts.distinct [] phoneBook) stored).bind fun _ _ => trivial

theorem Node.publishSelf_tidy {σ : Type} [RecordStore σ] (n : Node σ) (phone : Option String)
    (address : String) (port : UInt16) (today : Timestamp) (stored : Option String) :
    (n.publishSelf phone address port today).Tidy (some n.identity) (.settled stored) := by
  refine .inl ⟨.inl rfl, fun accepted => ?_⟩
  cases phone with
  | none => trivial
  | some phone => exact fun acceptedByPhone => trivial

def Deed.Publishes : Deed → Prop
  | errand (.publish ..) => True
  | errand _ | receive .. | round _ | sweep | wait _ | setToday _ => False

theorem Errand.tidy_script {σ : Type} [RecordStore σ] (errand : Errand) (n : Node σ)
    (today : Timestamp) (h : (Deed.errand errand).Publishes → own = some n.identity) :
    (errand.script n today).Tidy own (.settled none) := by
  cases errand with
  | publish phone address port =>
      rw [h trivial]
      exact (n.publishSelf_tidy phone address port today none).bind fun _ _ => trivial
  | resolve identity => exact (Node.resolve_tidy identity none).bind fun _ _ => trivial
  | contact r => exact .inr fun _ => trivial
  | discover phoneBook => exact (n.discover_tidy phoneBook none).bind fun _ _ => trivial

end Errands

namespace Cluster

open CacheLike Cache

variable {σ β α : Type} [CacheLike σ] {i : Nat} {c : Cluster σ β} {m : Node σ} {C : Cache}
  {own : Option String} {capacity : Nat} {done : List Call}

theorem within_upsert {stored : Option String} {r : Record}
    (h : (Standing.settled stored).Holds own capacity done C)
    (hr : some r.identity = own ∨ some r.identity = stored) :
    (after C [.upsert r]).Within own capacity (done ++ [.upsert r]) := by
  by_cases hnamed : r.identity = ""
  · rw [after_cons, perform_nameless rfl hnamed]
    exact h.1.upsert_nameless
  · rw [after_cons, perform_upsert hnamed]
    rcases hr with hown | hstored
    · exact h.1.put_own hown
    · exact h.1.put_stored (h.2 r.identity hstored.symm)

variable [DirectoryBackend β] [Timer]

theorem nameless_of_host_upsert {n : Node σ} {draws : Nat → Draws} {r : Record} {fault : Fault}
    (hm : c.nodes[i]? = some m) (hC : shows m.store C)
    (h : (host i n draws).upsert c r = .error fault) : r.identity = "" := by
  by_contra hnamed
  obtain ⟨t, hwrite, -⟩ := upsert_of_named hC hnamed
  rw [host_upsert_eq hm, hwrite] at h
  cases h

/-- A tidy script leaves the store within its capacity, wherever it ends. -/
theorem within_script (n : Node σ) (draws : Nat → Draws) {p : Script α} {standing : Standing}
    (hp : p.Tidy own standing) (hm : c.nodes[i]? = some m) (hC : shows m.store C)
    (hstanding : standing.Holds own capacity done C) :
    (after C (callsOfScript i n draws p c)).Within own capacity
      (done ++ callsOfScript i n draws p c) := by
  -- While the script waits for an answer of the directory, the node may sweep but adds nothing.
  induction p generalizing c m C standing done with
  | done a =>
      cases standing with
      | loose => exact hp.elim
      | settled stored =>
          rw [callsOfScript, List.append_nil]
          exact hstanding.1
  | get identity next ih =>
      cases standing with
      | loose => exact hp.elim
      | settled stored =>
          rw [callsOfScript, host_get?_eq hm, lockstep.get? hC, List.append_cons]
          refine ih _ (hp _ find?_identity) hm hC ⟨?_, ?_⟩
          · exact hstanding.1.append rfl (fun s hs => ⟨s, hs, rfl⟩) (by simp)
          · intro other hother
            obtain ⟨r, hr, rfl⟩ := Option.map_eq_some_iff.mp hother
            rw [find?_identity r hr]
            exact Option.isSome_iff_exists.mpr ⟨r, hr⟩
  | upsert r next ih =>
      cases standing with
      | loose => exact hp.elim
      | settled stored =>
          rw [callsOfScript, List.append_cons]
          cases hwrite : (host i n draws).upsert c r with
          | error fault =>
              rw [after_cons, perform_nameless rfl (nameless_of_host_upsert hm hC hwrite),
                List.append_nil]
              exact hstanding.1.upsert_nameless
          | ok d =>
              obtain ⟨o, ho, hshown⟩ := shown_of_upsert hm hC hwrite
              rcases hp with ⟨hr, hnext⟩ | hnext
              · exact ih () hnext ho hshown (Standing.holds_settled (within_upsert hstanding hr))
              · have hcapacity : (after C [.upsert r]).capacity = C.capacity :=
                  capacity_perform (by simp)
                exact ih () hnext ho hshown (hcapacity.trans hstanding.1.capacity_eq)
  | trim next ih =>
      obtain ⟨hnext, hcapacity⟩ : (∀ evicted, (next evicted).Tidy own (.settled none)) ∧
          C.capacity = capacity := by
        cases standing with
        | loose => exact ⟨hp, hstanding⟩
        | settled stored => exact ⟨hp, hstanding.1.capacity_eq⟩
      rw [callsOfScript, List.append_cons]
      cases htrim : (host i n draws).trim c with
      | error fault => exact .top hcapacity
      | ok result =>
          obtain ⟨o, ho, hshown⟩ := shown_of_trim hm hC htrim
          exact ih result.1 (hnext result.1) ho hshown (Standing.holds_settled (.top hcapacity))
  | lookup identity next ih =>
      cases standing with
      | loose => exact hp.elim
      | settled stored =>
          obtain ⟨o, ho, hshown⟩ := (becomes_await i c draws
            (Directory.lookup (timeoutOf n) c.directory identity)).shown hm hC
          rw [callsOfScript, after_append, ← List.append_assoc]
          exact ih _ (hp _) ho hshown
            (Standing.holds_settled (hstanding.1.sweeps (c.isSweep_of_mem_callsMeanwhile i _)))
  | publish identity r next ih =>
      cases standing with
      | loose => exact hp.elim
      | settled stored =>
          obtain ⟨o, ho, hshown⟩ := (becomes_await i c draws
            (Directory.publish (timeoutOf n) c.directory identity r)).shown hm hC
          rw [callsOfScript, after_append, ← List.append_assoc]
          exact ih _ (hp _) ho hshown
            (Standing.holds_settled (hstanding.1.sweeps (c.isSweep_of_mem_callsMeanwhile i _)))

theorem within_deed (draws : Nat → Draws) {deed : Deed}
    (hdeed : deed.Publishes → own = some m.identity) (hm : c.nodes[i]? = some m)
    (hC : shows m.store C) (h : C.Within own capacity done) :
    (after C (callsOfDeed i draws c deed)).Within own capacity
      (done ++ callsOfDeed i draws c deed) := by
  simp only [callsOfDeed, hm]
  cases deed with
  | errand errand =>
      exact within_script m draws (errand.tidy_script m c.today hdeed) hm hC
        (Standing.holds_settled h)
  | receive text source => exact h.text m.gossiper text source c.clock
  | sweep => exact h.sweeps (List.forall_mem_singleton.mpr ⟨_, rfl⟩)
  | wait milliseconds => exact h.sweeps (c.isSweep_of_mem_callsMeanwhile i milliseconds)
  | round | setToday => exact (List.append_nil done).symm ▸ h

theorem within_deeds (draws : Nat → Draws) {deeds : List Deed}
    (hdeeds : ∀ deed ∈ deeds, deed.Publishes → own = some m.identity) (hm : c.nodes[i]? = some m)
    (hC : shows m.store C) (h : C.Within own capacity done) :
    (after C (callsOfDeeds i draws c deeds)).Within own capacity
      (done ++ callsOfDeeds i draws c deeds) := by
  induction deeds generalizing c m C done with
  | nil =>
      rw [callsOfDeeds, List.append_nil]
      exact h
  | cons deed deeds ih =>
      obtain ⟨hdeed, hrest⟩ := List.forall_mem_cons.mp hdeeds
      obtain ⟨o, ho, hbecomes⟩ := becomes_act draws c deed m hm
      have hshown := lockstep.after hC (callsOfDeed i draws c deed)
      rw [← hbecomes.store] at hshown
      rw [← hbecomes.identity] at hrest
      rw [callsOfDeeds, after_append, ← List.append_assoc]
      exact ih hrest ho hshown (within_deed draws hdeed hm hC h)

end Cluster

theorem Node.shows_of_opened {scheme : SignatureScheme} {config : Config} {fresh : Seed}
    {n : Node DurableStore} (h : Node.opened scheme config {} fresh = .ok n) :
    CacheLike.shows n.store (Cache.empty config.capacity.toNat) := by
  rw [Node.opened] at h
  cases hvalid : config.validate with
  | error fault =>
      rw [hvalid] at h
      cases h
  | ok _ =>
      rw [hvalid] at h
      cases h
      exact ⟨.empty config.capacity.toNat, ⟨rfl, fun _ => rfl, fun _ => nofun, rfl⟩,
        MemoryStore.lockstep_shows.empty _⟩

namespace Cluster

open CacheLike Cache

variable {σ β : Type} [CacheLike σ] {i : Nat} {c : Cluster σ β} {m : Node σ} {C : Cache}

def HoldsAtMost (i limit : Nat) (c : Cluster σ β) : Prop :=
  ∃ m size, c.nodes[i]? = some m ∧ RecordStore.size m.store = .ok size ∧ size ≤ limit

theorem holdsAtMost_iff {limit : Nat} (hm : c.nodes[i]? = some m) (hC : shows m.store C) :
    c.HoldsAtMost i limit ↔ C.entries.length ≤ limit := by
  have hsize : RecordStore.size m.store = .ok C.entries.length := lockstep.size hC
  constructor
  · rintro ⟨o, size, ho, hmeasured, hle⟩
    obtain rfl := Option.some.inj (hm.symm.trans ho)
    obtain rfl := Except.ok.inj (hsize.symm.trans hmeasured)
    exact hle
  · exact fun hle => ⟨m, _, hm, hsize, hle⟩

/-- A node never stores more than its capacity and its own record. It stores more than its capacity
only while no trim has followed its own record, and nothing but publishing itself ever brings it to
that. -/
theorem holdsAtMost_of_opened [DirectoryBackend β] [Timer] {scheme : SignatureScheme}
    {config : Config} {fresh : Seed} {n : Node DurableStore}
    (hopened : Node.opened scheme config {} fresh = .ok n)
    {c : Cluster DurableStore β} (hn : c.nodes[i]? = some n) (draws : Nat → Draws)
    (deeds : List Deed) :
    let capacity := config.capacity.toNat
    let d := deeds.foldl (act i draws) c
    d.HoldsAtMost i (capacity + 1) ∧
      (d.HoldsAtMost i capacity ∨ ∃ before r since,
        callsOfDeeds i draws c deeds = before ++ .upsert r :: since ∧ r.identity = n.identity ∧
          .trim ∉ since) ∧
      ∀ later : List Deed, (∀ deed ∈ later, ¬deed.Publishes) → d.HoldsAtMost i capacity →
        (later.foldl (act i draws) d).HoldsAtMost i capacity := by
  intro capacity d
  have hempty := Node.shows_of_opened hopened
  obtain ⟨m, hm, hbecomes⟩ := becomes_acts draws c deeds n hn
  have hshown := lockstep.after hempty (callsOfDeeds i draws c deeds)
  rw [← hbecomes.store] at hshown
  have hstart : (Cache.empty capacity).Within (some n.identity) capacity [] :=
    .of_length_le rfl (Nat.zero_le _)
  have hwithin := within_deeds draws (fun deed (_ : deed ∈ deeds) _ => rfl) hn hempty hstart
  rw [List.nil_append] at hwithin
  rw [holdsAtMost_iff hm hshown, holdsAtMost_iff hm hshown]
  refine ⟨hwithin.length_le, ?_, fun later hlater hfits => ?_⟩
  · refine (Nat.lt_or_ge capacity _).symm.imp id fun hexceeds => ?_
    obtain ⟨before, r, since, hcalls, hown, hsince⟩ := hwithin.excess hexceeds
    exact ⟨before, r, since, hcalls, Option.some.inj hown, hsince⟩
  · obtain ⟨o, ho, hlast⟩ := becomes_acts draws d later m hm
    have hend := lockstep.after hshown (callsOfDeeds i draws d later)
    rw [← hlast.store] at hend
    have hquiet : ∀ deed ∈ later, deed.Publishes → none = some m.identity :=
      fun deed hdeed hpublishes => absurd hpublishes (hlater deed hdeed)
    have hagain : (after (Cache.empty capacity) (callsOfDeeds i draws c deeds)).Within none
        capacity [] := .of_length_le hwithin.capacity_eq hfits
    have hstill := within_deeds draws hquiet hm hshown hagain
    rw [holdsAtMost_iff ho hend, ← others_none]
    exact hstill.others_le

attribute [local instance] Timer.seconds63

/-- In a store of one a packet about another node does not add to the own record. -/
theorem holdsAtMost_of_packet :
    let config : Config := { capacity := 1 }
    let fresh : Seed := ⟨List.replicate 32 0, rfl⟩
    let text := "\x7b\"nodes\":[\x7b\"hash\":\"h\",\"publicKey\":\"k\",\"lastSeen\":10\x7d]\x7d"
    ∃ n, Node.opened ed25519 config {} fresh = .ok n ∧
      let c : Cluster DurableStore SharedDirectory := { nodes := [n], directory := {}, today := 5 }
      let d := [.errand (.publish none "10.0.0.1" 8888)].foldl (act 0 fun _ => {}) c
      c.nodes[0]? = some n ∧ (∀ deed ∈ [Deed.receive text "peer"], ¬deed.Publishes) ∧
        d.HoldsAtMost 0 1 ∧
          ([.receive text "peer"].foldl (act 0 fun _ => {}) d).HoldsAtMost 0 1 := by
  intro config fresh text
  refine ⟨_, rfl, ?_⟩
  intro c d
  have hquiet : ∀ deed ∈ [Deed.receive text "peer"], ¬deed.Publishes :=
    List.forall_mem_singleton.mpr id
  have hone : d.nodes[0]?.map (fun m => RecordStore.size m.store) = some (.ok 1) := by
    decide +kernel
  obtain ⟨m, hm, hsize⟩ := Option.map_eq_some_iff.mp hone
  have hfits : d.HoldsAtMost 0 1 := ⟨m, 1, hm, hsize, le_rfl⟩
  have hopened : Node.opened ed25519 config {} fresh = .ok _ := rfl
  have hn : c.nodes[0]? = some _ := rfl
  obtain ⟨-, -, hkept⟩ :=
    holdsAtMost_of_opened hopened hn (fun _ => {}) [.errand (.publish none "10.0.0.1" 8888)]
  exact ⟨rfl, hquiet, hfits, hkept _ hquiet hfits⟩

/-- A node with room for one record meets a peer at first hand and then publishes itself. -/
theorem not_holdsAtMost_of_publication :
    let config : Config := { capacity := 1 }
    let fresh : Seed := ⟨List.replicate 32 0, rfl⟩
    let met : Record := { identity := "h", publicKey := "k", lastSeen := 10 }
    let deeds : List Deed := [.errand (.contact met), .errand (.publish none "10.0.0.1" 8888)]
    ∃ n, Node.opened ed25519 config {} fresh = .ok n ∧
      let c : Cluster DurableStore SharedDirectory := { nodes := [n], directory := {}, today := 5 }
      ¬(deeds.foldl (act 0 fun _ => {}) c).HoldsAtMost 0 1 := by
  intro config fresh met deeds
  refine ⟨_, rfl, ?_⟩
  rintro c ⟨m, size, hm, hsize, hle⟩
  have htwo : (deeds.foldl (act 0 fun _ => {}) c).nodes[0]?.map
      (fun m => RecordStore.size m.store) = some (.ok 2) := by decide +kernel
  rw [hm, Option.map_some, hsize] at htwo
  cases htwo
  exact absurd hle (by decide)

end Cluster

end PeerBook
