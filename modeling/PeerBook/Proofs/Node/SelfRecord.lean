import PeerBook.Proofs.Node.Interleaving
import PeerBook.Proofs.Store.Pinning

namespace PeerBook

open StoreKind

/-- A call that leaves the record under an identity alone, but for digits that are listed for it, and
unless the record is too old. -/
def Call.Spares (listed : (digits identity : String) → Prop) (call : Call) (identity : String)
    (C : Cache) : Prop :=
  match call with
  | upsert r => r.identity = identity → r.Succeeds listed (C.find? identity)
  | merge r => r.identity ≠ identity
  | remove other => other ≠ identity
  | get _ | recent _ | all | trim | sweep _ | size | isEmpty | reopen _ => True

def Call.Outdates {σ : Type} [RecordStore σ] (call : Call) (r : Record) (s : σ) : Prop :=
  match call with
  | trim => ∃ latest, RecordStore.all s = .ok latest ∧ latest.length = RecordStore.capacity s ∧
      ∀ p ∈ latest, r.stamp < p.stamp
  | sweep olderThan => r.lastSeen < olderThan
  | get _ | upsert _ | merge _ | recent _ | all | remove _ | size | isEmpty | reopen _ => False

/-- Whether a store has a record, up to a hint that is listed for its identity. -/
def RecordStore.Retains {σ : Type} [RecordStore σ] (listed : (digits identity : String) → Prop)
    (s : σ) (r : Record) : Prop :=
  ∃ hint, RecordStore.get? s r.identity = .ok (some { r with contactHint := hint }) ∧
    (hint = r.contactHint ∨ ∃ digits, hint = some digits ∧ listed digits r.identity)

open RecordStore (Retains)

namespace Cache

variable {listed : String → String → Prop} {C D : Cache} {r : Record} {calls more : List Call}

theorem outdates_of_le_above (h : C.capacity ≤ C.above r) : Call.trim.Outdates r C := by
  have hfront : C.entries.Pairwise
      fun x y => decide (r.stamp < y.stamp) → decide (r.stamp < x.stamp) :=
    C.latestFirst.imp fun hlt hr => by simpa using lt_trans (by simpa using hr) hlt
  have hcount : (C.entries.take C.capacity).countP (fun y => decide (r.stamp < y.stamp)) =
      C.capacity :=
    (countP_take_of_pairwise hfront C.capacity).trans (Nat.min_eq_left h)
  have hlength : (C.entries.take C.capacity).length = C.capacity := by
    have hle := List.countP_le_length (p := fun s => decide (r.stamp < s.stamp)) (l := C.entries)
    rw [List.length_take]
    rw [above] at h
    omega
  refine ⟨C.entries.take C.capacity, rfl, hlength, ?_⟩
  simpa using List.countP_eq_length.mp (hcount.trans hlength.symm)

theorem retains_of_find?_eq (hr : Retains listed C r)
    (h : D.find? r.identity = C.find? r.identity) : Retains listed D r := by
  obtain ⟨hint, hfound, hhint⟩ := hr
  exact ⟨hint, (congrArg Except.ok h).trans hfound, hhint⟩

theorem retains_put (hr : Retains listed C r) {u : Record}
    (hu : u.identity = r.identity → u.Succeeds listed (C.find? r.identity)) :
    Retains listed (C.put u) r := by
  by_cases hown : u.identity = r.identity
  · obtain ⟨hint, hfound, hhint⟩ := hr
    obtain ⟨-, digits, hlisted, rfl⟩ := hu hown _ (Except.ok.inj hfound)
    refine ⟨some digits, congrArg Except.ok ?_, .inr ⟨digits, rfl, hlisted⟩⟩
    rw [find?_put, if_pos rfl]
  · exact retains_of_find?_eq hr (by rw [find?_put, if_neg hown])

theorem retains_keep (hr : Retains listed C r) {p : Record → Bool}
    (hp : ∀ hint, p { r with contactHint := hint }) : Retains listed (C.keep p) r := by
  obtain ⟨hint, hfound, hhint⟩ := hr
  have hmem := find?_eq_some_iff.mp (Except.ok.inj hfound)
  exact ⟨hint, congrArg Except.ok (find?_eq_some_iff.mpr ⟨mem_keep.mpr ⟨hmem.1, hp hint⟩, rfl⟩),
    hhint⟩

theorem retains_perform (hr : Retains listed C r) {call : Call}
    (hcall : call.Spares listed r.identity C) :
    Retains listed (perform C call).2 r ∨ call.Outdates r C := by
  cases call with
  | upsert u =>
      by_cases hnamed : u.identity = ""
      · rw [perform_nameless rfl hnamed]
        exact .inl hr
      · rw [perform_upsert hnamed]
        exact .inl (retains_put hr hcall)
  | merge u =>
      by_cases hnamed : u.identity = ""
      · rw [perform_nameless rfl hnamed]
        exact .inl hr
      · rw [perform_merge hnamed]
        exact .inl (retains_of_find?_eq hr (find?_merge_of_ne hcall))
  | trim =>
      rcases Nat.lt_or_ge (C.above r) C.capacity with hbelow | habove
      · obtain ⟨hint, hfound, hhint⟩ := hr
        have hmem := find?_eq_some_iff.mp (Except.ok.inj hfound)
        have htop := mem_top.mpr ⟨hmem.1, hbelow⟩
        exact .inl ⟨hint, congrArg Except.ok (find?_eq_some_iff.mpr ⟨htop, rfl⟩), hhint⟩
      · exact .inr (outdates_of_le_above habove)
  | sweep olderThan =>
      by_cases hfresh : olderThan ≤ r.lastSeen
      · exact .inl (retains_keep hr fun hint => decide_eq_true hfresh)
      · exact .inr (UInt64.not_le.mp hfresh)
  | remove other => exact .inl (retains_keep hr fun hint => decide_eq_true (Ne.symm hcall))
  | get | recent | all | size | isEmpty | reopen => exact .inl hr

def Spared (listed : (digits identity : String) → Prop) (identity : String) :
    Cache → List Call → Prop
  | _, [] => True
  | C, call :: calls =>
    call.Spares listed identity C ∧ Spared listed identity (perform C call).2 calls

theorem Spared.append {identity : String} (h : Spared listed identity C calls)
    (hmore : Spared listed identity (after C calls) more) :
    Spared listed identity C (calls ++ more) := by
  induction calls generalizing C with
  | nil => exact hmore
  | cons call calls ih => exact ⟨h.1, ih h.2 hmore⟩

theorem Spared.of_forall {identity : String}
    (h : ∀ call ∈ calls, ∀ C, call.Spares listed identity C) : Spared listed identity C calls := by
  induction calls generalizing C with
  | nil => trivial
  | cons call calls ih =>
      obtain ⟨hcall, hcalls⟩ := List.forall_mem_cons.mp h
      exact ⟨hcall C, ih hcalls⟩

def Recalls (C : Cache) (seen : Option (String × Option Record)) : Prop :=
  ∀ p ∈ seen, C.find? p.1 = p.2 ∨ C.find? p.1 = none

theorem recalls_none (C : Cache) : C.Recalls none := by
  intro p hp
  cases hp

theorem recalls_find? (C : Cache) (identity : String) :
    C.Recalls (some (identity, C.find? identity)) := by
  intro p hp
  cases hp
  exact .inl rfl

/-- While nothing is stored, a record may go, but nothing comes in its place. -/
theorem Recalls.after {seen : Option (String × Option Record)} (hseen : C.Recalls seen)
    (h : ∀ call ∈ calls, call.written? = none) : (after C calls).Recalls seen := by
  intro p hp
  rcases find?_eq_or_none_of_subset (entries_after_subset h) p.1 with hkept | hlost
  · rw [hkept]
    exact hseen p hp
  · exact .inr hlost

theorem retains_after (hr : Retains listed C r) (h : Spared listed r.identity C calls) :
    Retains listed (after C calls) r ∨ ∃ done call rest, calls = done ++ call :: rest ∧
      Retains listed (after C done) r ∧ call.Outdates r (after C done) := by
  induction calls generalizing C with
  | nil => exact .inl hr
  | cons call calls ih =>
      rcases retains_perform hr h.1 with hkept | houtdated
      · refine (ih hkept h.2).imp_right ?_
        rintro ⟨done, next, rest, rfl, hheld, houtdated⟩
        exact ⟨call :: done, next, rest, rfl, hheld, houtdated⟩
      · exact .inr ⟨[], call, calls, rfl, hr, houtdated⟩

end Cache

def Deed.Spares (deed : Deed) (own : String) : Prop :=
  match deed with
  | errand (.publish ..) => False
  | errand (.contact r) => r.identity ≠ own
  | errand (.resolve _) | errand (.discover _) => True
  | receive .. | round _ | sweep | wait _ | setToday _ => True

/-- The digits for an identity that are in a phone book which some deed goes through, under the salt
of the node. -/
def Node.Lists {σ : Type} (n : Node σ) (deeds : List Deed) (digits identity : String) : Prop :=
  ∃ phoneBook, .errand (.discover phoneBook) ∈ deeds ∧
    Contacts.Lists n.config.identitySalt phoneBook digits identity

theorem Node.Lists.mono {σ : Type} {n m : Node σ} {deeds more : List Deed}
    (hconfig : m.config = n.config) (hdeeds : deeds ⊆ more) (digits identity : String)
    (h : m.Lists deeds digits identity) : n.Lists more digits identity := by
  obtain ⟨phoneBook, hmem, hlists⟩ := h
  exact ⟨phoneBook, hdeeds hmem, hconfig ▸ hlists⟩

theorem Errand.guarded_script {σ : Type} [RecordStore σ] {own : String} (errand : Errand)
    (n : Node σ) (today : Timestamp) (h : (Deed.errand errand).Spares own) :
    (errand.script n today).Guarded (fun r => r.identity ≠ own) (n.Lists [.errand errand])
      none := by
  have hno : ∀ r : Record, False → r.identity ≠ own := fun _ => False.elim
  cases errand with
  | publish => exact h.elim
  | resolve identity =>
      exact ((Node.resolve_guarded identity none).mono hno fun _ _ => False.elim).bind
        fun _ _ => trivial
  | contact r => exact ⟨.inl h, fun _ => trivial⟩
  | discover phoneBook =>
      exact ((n.discover_guarded phoneBook none).mono hno fun _ _ hlists =>
        ⟨phoneBook, List.mem_singleton_self _, hlists⟩).bind fun _ _ => trivial

theorem Node.publishSelf_eq {σ : Type} [RecordStore σ] (n : Node σ) (phone : Option String)
    (address : String) (port : UInt16) (today : Timestamp) :
    ∃ next, n.publishSelf phone address port today =
        .upsert (n.ownRecord address port today) next ∧
      ∀ firstHand listed seen, (next ()).Guarded firstHand listed seen := by
  refine ⟨_, rfl, fun firstHand listed seen accepted => ?_⟩
  cases phone with
  | none => trivial
  | some phone => exact fun acceptedByPhone => trivial

namespace CacheLike

variable {σ : Type} [CacheLike σ] {listed : String → String → Prop} {s : σ} {C : Cache}
  {r : Record}

theorem retains_iff (h : shows s C) : Retains listed s r ↔ Retains listed C r := by
  rw [Retains, Retains, lockstep.get? h]

theorem outdates_iff (h : shows s C) {call : Call} : call.Outdates r s ↔ call.Outdates r C := by
  cases call with
  | trim =>
      rw [Call.Outdates, Call.Outdates, RecordStore.all, RecordStore.all, lockstep.recent h,
        lockstep.capacity h]
  | _ => rfl

end CacheLike

namespace Cluster

open CacheLike Cache

variable {σ β α : Type} {listed : String → String → Prop} {i : Nat} {c d : Cluster σ β}
  {m : Node σ} {C : Cache} {own : String} {calls : List Call}

theorem spared_meanwhile (c : Cluster σ β) (i milliseconds : Nat) :
    Spared listed own C (c.callsMeanwhile i milliseconds) := by
  refine Spared.of_forall fun call hcall C => ?_
  obtain ⟨olderThan, rfl⟩ := c.isSweep_of_mem_callsMeanwhile i milliseconds call hcall
  trivial

variable [CacheLike σ] [DirectoryBackend β]

section Sparing

variable [Timer]

/-- What a script writes under an identity succeeds the record that is there by then. -/
theorem spared_script (n : Node σ) (draws : Nat → Draws) {p : Script α}
    {seen : Option (String × Option Record)}
    (hp : p.Guarded (fun r => r.identity ≠ own) listed seen) (hm : c.nodes[i]? = some m)
    (hC : shows m.store C) (hseen : C.Recalls seen) :
    Spared listed own C (callsOfScript i n draws p c) := by
  induction p generalizing c m C seen with
  | done a => trivial
  | get identity next ih =>
      rw [callsOfScript, host_get?_eq hm, lockstep.get? hC]
      exact ⟨trivial, ih _ (hp _ find?_identity) hm hC (C.recalls_find? identity)⟩
  | upsert r next ih =>
      have hspares : (Call.upsert r).Spares listed own C := by
        rintro rfl
        obtain ⟨found, hlast, hsucceeds⟩ := hp.1.resolve_left fun hne => hne rfl
        rcases hseen _ hlast with hfound | hnone
        · rwa [hfound]
        · rw [hnone]
          exact r.succeeds_none listed
      rw [callsOfScript]
      refine ⟨hspares, ?_⟩
      cases hwrite : (host i n draws).upsert c r with
      | error fault => trivial
      | ok d =>
          obtain ⟨o, ho, hshown⟩ := shown_of_upsert hm hC hwrite
          exact ih () hp.2 ho hshown (recalls_none _)
  | trim next ih =>
      rw [callsOfScript]
      refine ⟨trivial, ?_⟩
      cases htrim : (host i n draws).trim c with
      | error fault => trivial
      | ok result =>
          obtain ⟨o, ho, hshown⟩ := shown_of_trim hm hC htrim
          exact ih result.1 (hp result.1) ho hshown (recalls_none _)
  | lookup identity next ih =>
      have hwait := becomes_await i c draws (Directory.lookup (timeoutOf n) c.directory identity)
      have hanswer := Directory.identity_of_lookup (timeoutOf n) c.directory identity
      obtain ⟨o, ho, hshown⟩ := hwait.shown hm hC
      exact (spared_meanwhile c i _).append
        (ih _ (hp _ hanswer) ho hshown (hseen.after (written?_meanwhile c i _)))
  | publish identity r next ih =>
      have hwait := becomes_await i c draws (Directory.publish (timeoutOf n) c.directory identity r)
      obtain ⟨o, ho, hshown⟩ := hwait.shown hm hC
      exact (spared_meanwhile c i _).append
        (ih _ (hp _) ho hshown (hseen.after (written?_meanwhile c i _)))

theorem spared_deed (draws : Nat → Draws) {deed : Deed} (hdeed : deed.Spares own)
    (hlisted : ∀ digits identity, m.Lists [deed] digits identity → listed digits identity)
    (hm : c.nodes[i]? = some m) (hown : m.identity = own) (hC : shows m.store C) :
    Spared listed own C (callsOfDeed i draws c deed) := by
  simp only [callsOfDeed, hm]
  cases deed with
  | errand errand =>
      have hguarded := (errand.guarded_script m c.today hdeed).mono (fun _ hne => hne) hlisted
      exact spared_script m draws hguarded hm hC C.recalls_none
  | receive text source =>
      refine Spared.of_forall fun call hcall C => ?_
      obtain ⟨packet, -, hbatch⟩ := Gossiper.mem_callsOfText hcall
      rcases Gossiper.mem_batchCalls.mp hbatch with ⟨r, -, hne, rfl⟩ | rfl
      · exact fun he => hne (he.trans hown.symm)
      · trivial
  | sweep => exact ⟨trivial, trivial⟩
  | wait milliseconds => exact spared_meanwhile c i milliseconds
  | round | setToday => trivial

theorem spared_deeds (draws : Nat → Draws) {deeds : List Deed}
    (hdeeds : ∀ deed ∈ deeds, deed.Spares own)
    (hlisted : ∀ digits identity, m.Lists deeds digits identity → listed digits identity)
    (hm : c.nodes[i]? = some m) (hown : m.identity = own) (hC : shows m.store C) :
    Spared listed own C (callsOfDeeds i draws c deeds) := by
  induction deeds generalizing c m C with
  | nil => trivial
  | cons deed deeds ih =>
      obtain ⟨hdeed, hrest⟩ := List.forall_mem_cons.mp hdeeds
      obtain ⟨o, ho, hbecomes⟩ := becomes_act draws c deed m hm
      have hshown := lockstep.after hC (callsOfDeed i draws c deed)
      rw [← hbecomes.store] at hshown
      have hnow (digits identity : String) (h : m.Lists [deed] digits identity) :
          listed digits identity :=
        hlisted digits identity (h.mono rfl (by simp) digits identity)
      have hlater (digits identity : String) (h : o.Lists deeds digits identity) :
          listed digits identity :=
        hlisted digits identity (h.mono hbecomes.config (List.subset_cons_self _ _) digits identity)
      exact (spared_deed draws hdeed hnow hm hown hC).append
        (ih hrest hlater ho (hbecomes.identity.trans hown) hshown)

/-- The node's own record is stored before anything is published, so that the calls that come after
it find it there. -/
theorem calls_of_published {n : Node σ} (hn : c.nodes[i]? = some n) (hC : shows n.store C)
    {draws : Nat → Draws} {phone : Option String} {address : String} {port : UInt16}
    {today : Timestamp} {accepted : Bool}
    (hpublished : (n.publishSelf phone address port today).run (host i n draws) c =
      (.ok accepted, d)) :
    let record := n.ownRecord address port today
    ∃ since, callsOfScript i n draws (n.publishSelf phone address port today) c =
        .upsert record :: since ∧ record.identity ≠ "" ∧
      ∀ listed, Spared listed n.identity (C.put record) since := by
  intro record
  obtain ⟨next, hscript, hguarded⟩ := n.publishSelf_eq phone address port today
  rw [hscript, Script.run] at hpublished
  rw [hscript, callsOfScript]
  cases hresult : (host i n draws).upsert c record with
  | error fault =>
      rw [hresult] at hpublished
      cases hpublished
  | ok e =>
      obtain ⟨t, hstored, -⟩ := host_upsert_eq_ok hn hresult
      have hnamed : record.identity ≠ "" := named_of_upsert hC hstored
      obtain ⟨o, ho, hshown⟩ := shown_of_upsert hn hC hresult
      rw [after_cons, perform_upsert hnamed] at hshown
      exact ⟨_, rfl, hnamed, fun listed =>
        spared_script n draws (hguarded _ listed none) ho hshown (recalls_none _)⟩

/-- The record that a node has published stays in its store until it is outdated. Only its hint may be
filled in, with digits from a phone book that the node has gone through since. -/
theorem own_record_retained_or_outdated {n : Node σ} (hn : c.nodes[i]? = some n)
    (hC : shows n.store C) {draws : Nat → Draws} {phone : Option String} {address : String}
    {port : UInt16} {today : Timestamp} {accepted : Bool}
    (hpublished : (n.publishSelf phone address port today).run (host i n draws) c =
      (.ok accepted, d)) {deeds : List Deed} (hdeeds : ∀ deed ∈ deeds, deed.Spares n.identity) :
    let record := n.ownRecord address port today
    let calls := callsOfScript i n draws (n.publishSelf phone address port today) c ++
      callsOfDeeds i draws d deeds
    ∃ m, (deeds.foldl (act i draws) d).nodes[i]? = some m ∧ m.store = after n.store calls ∧
      (Retains (n.Lists deeds) m.store record ∨ ∃ done call rest, calls = done ++ call :: rest ∧
        Retains (n.Lists deeds) (after n.store done) record ∧
          call.Outdates record (after n.store done)) := by
  intro record calls
  obtain ⟨since, hcalls, hnamed, hsince⟩ := calls_of_published hn hC hpublished
  obtain ⟨o, ho, hpublishing⟩ :=
    becomes_script n draws (n.publishSelf phone address port today) c n hn
  rw [hpublished] at ho
  have hshown := lockstep.after hC
    (callsOfScript i n draws (n.publishSelf phone address port today) c)
  rw [← hpublishing.store] at hshown
  have hlater := spared_deeds draws hdeeds
    (Node.Lists.mono hpublishing.config (List.Subset.refl deeds)) ho hpublishing.identity hshown
  obtain ⟨m, hm, hdoing⟩ := becomes_acts draws d deeds o ho
  have hstore : m.store = after n.store calls := (hpublishing.trans hdoing).store
  refine ⟨m, hm, hstore, ?_⟩
  rw [hcalls, after_cons, perform_upsert hnamed] at hlater
  have hsplit : calls = .upsert record :: (since ++ callsOfDeeds i draws d deeds) := by
    rw [← List.cons_append, ← hcalls]
  have hstart : Retains (n.Lists deeds) (C.put record) record :=
    ⟨none, congrArg Except.ok (by rw [find?_put, if_pos rfl]; rfl), .inl rfl⟩
  have hafter (done : List Call) :
      shows (after n.store (.upsert record :: done)) (after (C.put record) done) := by
    have h := lockstep.after hC (.upsert record :: done)
    rwa [after_cons C, perform_upsert hnamed] at h
  rcases retains_after hstart ((hsince _).append hlater) with
    hkept | ⟨done, call, rest, he, hheld, hout⟩
  · rw [hstore, hsplit]
    exact .inl ((retains_iff (hafter _)).mpr hkept)
  · refine .inr ⟨.upsert record :: done, call, rest, ?_, ?_, ?_⟩
    · rw [hsplit, he, List.cons_append]
    · exact (retains_iff (hafter done)).mpr hheld
    · exact (outdates_iff (hafter done)).mpr hout

end Sparing

attribute [local instance] Timer.seconds63

/-- In a store of one a later record in a packet has the own one evicted. -/
theorem own_record_outdated_of_packet :
    let n : Node DurableStore := .start {} "key" (.empty 1)
    let c : Cluster DurableStore SharedDirectory := { nodes := [n], directory := {}, today := 5 }
    let record := n.ownRecord "10.0.0.1" 8888 5
    let p := n.publishSelf none "10.0.0.1" 8888 5
    let text := "\x7b\"nodes\":[\x7b\"hash\":\"h\",\"publicKey\":\"k\",\"lastSeen\":10\x7d]\x7d"
    let d := (p.run (host 0 n fun _ => {}) c).2
    let calls := callsOfScript 0 n (fun _ => {}) p c ++
      callsOfDeeds 0 (fun _ => {}) d [.receive text "peer"]
    ∃ done call rest, calls = done ++ call :: rest ∧
      Retains (n.Lists [.receive text "peer"]) (after n.store done) record ∧
        call.Outdates record (after n.store done) := by
  intro n c record p text d calls
  have hgone : ([Deed.receive text "peer"].foldl (act 0 fun _ => {}) d).nodes[0]?.map
      (fun m => RecordStore.get? m.store n.identity) = some (.ok none) := by decide +kernel
  have hpublished : p.run (host 0 n fun _ => {}) c = (.ok true, d) :=
    Script.run_eq_of_fst (by decide +kernel)
  have hdeeds : ∀ deed ∈ [Deed.receive text "peer"], deed.Spares n.identity :=
    List.forall_mem_singleton.mpr trivial
  obtain ⟨m, hm, -, hheld | hlost⟩ :=
    own_record_retained_or_outdated rfl (lockstep.empty 1) hpublished hdeeds
  · obtain ⟨hint, hfound, -⟩ := hheld
    rw [hm] at hgone
    cases hfound.symm.trans (Option.some.inj hgone)
  · exact hlost

def RemembersItself [Timer] (i : Nat) (draws : Nat → Draws) (c : Cluster σ β) : Prop :=
  ∀ (n : Node σ) (phone : Option String) (address : String) (port : UInt16) (today : Timestamp)
    (accepted : Bool) (d : Cluster σ β) (deeds : List Deed), c.nodes[i]? = some n →
    (n.publishSelf phone address port today).run (host i n draws) c = (.ok accepted, d) →
      (∀ deed ∈ deeds, deed.Spares n.identity) →
        ((deeds.foldl (act i draws) d).nodes[i]?.map
          fun m => RecordStore.get? m.store n.identity) =
            some (.ok (some (n.ownRecord address port today)))

/-- A later record in a packet drives the own one out of a store of one, and a sweep long after
deletes it from a store of any size. -/
theorem not_remembersItself :
    let lone (capacity : Nat) : Cluster DurableStore SharedDirectory :=
      { nodes := [.start {} "key" (.empty capacity)], directory := {}, today := 5 }
    ¬RemembersItself 0 (fun _ => {}) (lone 1) ∧ ¬RemembersItself 0 (fun _ => {}) (lone 2500) := by
  intro lone
  let node (capacity : Nat) : Node DurableStore := .start {} "key" (.empty capacity)
  refine ⟨fun h => ?evicted, fun h => ?swept⟩
  case evicted =>
    let text := "\x7b\"nodes\":[\x7b\"hash\":\"h\",\"publicKey\":\"k\",\"lastSeen\":10\x7d]\x7d"
    have hkept := h (node 1) none "10.0.0.1" 8888 5 true _ [.receive text "peer"] rfl
      (Script.run_eq_of_fst (by decide +kernel)) (List.forall_mem_singleton.mpr trivial)
    revert hkept
    decide +kernel
  case swept =>
    have hkept := h (node 2500) none "10.0.0.1" 8888 5 true _ [.setToday 1000000000, .sweep] rfl
      (Script.run_eq_of_fst (by decide +kernel)) (by simp [Deed.Spares])
    revert hkept
    decide +kernel

end Cluster

end PeerBook
