import PeerBook.Proofs.Node.Requests

namespace PeerBook

open StoreKind RefusingStore

namespace Errand

variable {σ : Type} {n : Node σ} {today : Timestamp} {errand : Errand} {p q r : Record}

def firstHand? (errand : Errand) (n : Node σ) (today : Timestamp) : Option Record :=
  match errand with
  | publish _ address port => some (n.ownRecord address port today)
  | contact r => some r
  | resolve _ | discover _ => none

def Learns (errand : Errand) (n : Node σ) (r : Record) : Prop :=
  match errand with
  | resolve identity => r.identity = identity ∧ r.synced = true
  | discover phoneBook => r.synced = true ∧ ∃ digits, r.contactHint = some digits ∧
      Contacts.Lists n.config.identitySalt phoneBook digits r.identity
  | publish .. | contact _ => False

/-- Whether a record may be stored in the place of one that lacks a hint. -/
def Fills (errand : Errand) (n : Node σ) (p r : Record) : Prop :=
  match errand with
  | discover phoneBook => p.contactHint = none ∧ ∃ digits,
      r = { p with contactHint := some digits } ∧
        Contacts.Lists n.config.identitySalt phoneBook digits p.identity
  | publish .. | contact _ | resolve _ => False

def MayStore (errand : Errand) (n : Node σ) (today : Timestamp) (r : Record)
    (found : Option Record) : Prop :=
  errand.firstHand? n today = some r ∨ found = none ∧ errand.Learns n r ∨
    ∃ p ∈ found, errand.Fills n p r

theorem not_fills_of_firstHand? (h : errand.firstHand? n today = some r) :
    ¬errand.Fills n p q := by
  cases errand with
  | discover phoneBook => cases h
  | publish | contact | resolve => exact id

/-- An errand fills in nothing that it has stored itself. -/
theorem not_fills {found : Option Record} (h : errand.MayStore n today q found) :
    ¬errand.Fills n q r := by
  cases errand with
  | discover phoneBook =>
      rintro ⟨hnone, -⟩
      rcases h with hfirst | ⟨-, -, digits, hsome, -⟩ | ⟨p, -, -, digits, rfl, -⟩
      · cases hfirst
      · cases hnone.symm.trans hsome
      · cases hnone
  | publish | contact | resolve => exact id

theorem eq_of_mayStore (hq : errand.MayStore n today q (some p))
    (hr : errand.MayStore n today r (some q)) : r = q := by
  rcases hr with hr | ⟨habsent, -⟩ | ⟨s, hs, hfills⟩
  · rcases hq with hq | ⟨habsent, -⟩ | ⟨s, -, hfills⟩
    · exact Option.some.inj (hr.symm.trans hq)
    · cases habsent
    · exact absurd hfills (not_fills_of_firstHand? hr)
  · cases habsent
  · cases hs
    exact absurd hfills (not_fills hq)

section Scripts

variable {phoneBook : List PhoneBookEntry} {name digits : String}

theorem hint_warranted {stored : Record}
    (h : Contacts.Lists n.config.identitySalt phoneBook digits stored.identity) :
    (Contacts.hint name digits stored.identity stored).Warranted
      ((discover phoneBook).MayStore n today) (some (stored.identity, some stored)) := by
  by_cases hhint : stored.contactHint.isSome
  · rw [Contacts.hint, if_pos hhint]
    trivial
  · rw [Contacts.hint, if_neg hhint]
    have hnone : stored.contactHint = none := by simpa using hhint
    exact ⟨.inr ⟨some stored, rfl, .inr (.inr ⟨stored, rfl, hnone, digits, rfl, h⟩)⟩, trivial⟩

theorem find_warranted (h : Contacts.Lists n.config.identitySalt phoneBook digits
      (Phone.hash n.config.identitySalt digits)) (seen : Option (String × Option Record)) :
    (Contacts.find n.config.identitySalt name digits).Warranted
      ((discover phoneBook).MayStore n today) seen := by
  intro found hfound
  cases found with
  | some stored =>
      rw [← hfound stored rfl] at h ⊢
      exact hint_warranted h
  | none =>
      intro answer hanswer
      cases answer with
      | none => trivial
      | some r =>
          obtain ⟨hidentity, -⟩ := hanswer r rfl
          rw [← hidentity] at h ⊢
          exact ⟨.inr ⟨none, rfl, .inr (.inl ⟨rfl, rfl, digits, rfl, h⟩)⟩, fun _ => trivial⟩

theorem warranted_script [RecordStore σ] (errand : Errand) (n : Node σ) (today : Timestamp) :
    (errand.script n today).Warranted (errand.MayStore n today) none := by
  cases errand with
  | publish phone address port =>
      refine ⟨.inl fun _ => .inl rfl, fun accepted => ?_⟩
      cases phone with
      | none => trivial
      | some phone => exact fun acceptedByPhone => trivial
  | resolve identity =>
      intro found hfound
      cases found with
      | some r => trivial
      | none =>
          intro answer hanswer
          cases answer with
          | none => trivial
          | some r =>
              obtain ⟨rfl, hsynced⟩ := hanswer r rfl
              exact ⟨.inr ⟨none, rfl, .inr (.inl ⟨rfl, rfl, hsynced⟩)⟩, fun _ => trivial⟩
  | contact r => exact ⟨.inl fun _ => .inl rfl, fun _ => trivial⟩
  | discover phoneBook =>
      have hfind : ((Contacts.distinct [] phoneBook).mapM fun entry =>
          Contacts.find n.config.identitySalt entry.1 entry.2).Warranted
            ((discover phoneBook).MayStore n today) none :=
        .mapM (fun entry hentry => find_warranted (Contacts.lists_of_mem_distinct _ hentry)) none
      have hdiscover : (n.discover phoneBook).Warranted
          ((discover phoneBook).MayStore n today) none :=
        hfind.bind fun _ _ => trivial
      exact hdiscover.bind fun _ _ => trivial

end Scripts

/-- What the calls of an errand have done to a store: nothing was added that was not asked for, and
what was there is unchanged or filled in, unless the errand has rewritten it at first hand or it has
gone for its age. Only the sweeps of a node that is not idle take away what no trim does. -/
structure Confined (errand : Errand) (n : Node σ) (today : Timestamp) (idle : Prop) (C : Cache)
    (calls : List Call) : Prop where
  added : ∀ r ∈ (after C calls).entries, r ∈ C.entries ∨ errand.firstHand? n today = some r ∨
    errand.Learns n r ∨ ∃ p ∈ C.entries, errand.Fills n p r
  kept : ∀ p ∈ C.entries, ∃ q,
    (q = p ∨ errand.Fills n p q ∨
      errand.firstHand? n today = some q ∧ q.identity = p.identity) ∧
    (q ∈ (after C calls).entries ∨
      ∃ call, (call = .trim ∨ call.IsSweep ∧ ¬idle) ∧ C.Loses calls q call)

variable {idle : Prop} {C : Cache} {calls : List Call}

theorem mem_of_fills (h : C.Warranted (errand.MayStore n today) calls)
    (hp : p ∈ (after C calls).entries) (hfills : errand.Fills n p r) : p ∈ C.entries := by
  rcases Cache.mem_after h hp with hp | ⟨done, rest, rfl, hmay⟩
  · exact hp
  · exact absurd hfills (not_fills hmay)

theorem confined_of_warranted (h : C.Warranted (errand.MayStore n today) calls)
    (hidle : idle → ∀ call ∈ calls, ¬call.IsSweep) :
    errand.Confined n today idle C calls where
  added r hr := by
    rcases Cache.mem_after h hr with hr | ⟨done, rest, rfl, hfirst | ⟨-, hlearns⟩ | ⟨p, hp, hfills⟩⟩
    · exact .inl hr
    · exact .inr (.inl hfirst)
    · exact .inr (.inr (.inl hlearns))
    · -- Nothing that the errand itself has stored is filled in, so this was there before.
      have hthere := (Cache.find?_eq_some_iff.mp hp).1
      have hp := mem_of_fills (Cache.warranted_append.mp h).1 hthere hfills
      exact .inr (.inr (.inr ⟨p, hp, hfills⟩))
  kept p hp := by
    obtain ⟨q, hq, hfate⟩ :=
      Cache.exists_mem_after_or_loses h (fun _ _ _ => eq_of_mayStore) hp
    refine ⟨q, ?_, hfate.imp_right ?_⟩
    · rcases hq with rfl | ⟨hidentity, hfirst | ⟨habsent, -⟩ | ⟨s, hs, hfills⟩⟩
      · exact .inl rfl
      · exact .inr (.inr ⟨hfirst, hidentity⟩)
      · cases habsent
      · cases hs
        exact .inr (.inl hfills)
    · rintro ⟨call, hages, hloses⟩
      refine ⟨call, hages.imp_right fun hsweep => ⟨hsweep, fun hstill => ?_⟩, hloses⟩
      obtain ⟨done, rest, rfl, -⟩ := hloses
      exact hidle hstill call (by simp) hsweep

end Errand

namespace Cluster

section Withstanding

variable {σ β : Type} [RefusingStore σ] [DirectoryBackend β] [Timer] {i : Nat}

/-- An errand of the node at `i`, whose store has the records of `C`, comes to no harm. It fails
only with a call that the store refuses, it takes no more time than its requests to the directory
wait, and of its calls those that are not refused are confined to what it may store. -/
structure Withstands (i : Nat) (draws : Nat → Draws) (idle : Prop) (errand : Errand)
    (c : Cluster σ β) (n : Node σ) (C : Cache) : Prop where
  fault : ∀ fault, ((errand.script n c.today).run (host i n draws) c).1 = .error fault →
    ∃ done call, callsOfScript i n draws (errand.script n c.today) c = done ++ [call] ∧
      (perform (after n.store done) call).1 = .error fault
  clock : ((errand.script n c.today).run (host i n draws) c).2.clock =
    c.clock + (waitsOfScript i n draws (errand.script n c.today) c).sum
  wait_le : ∀ wait ∈ waitsOfScript i n draws (errand.script n c.today) c, wait ≤ timeoutOf n
  store : ∃ done o, done.Sublist (callsOfScript i n draws (errand.script n c.today) c) ∧
    ((errand.script n c.today).run (host i n draws) c).2.nodes[i]? = some o ∧
    shows o.store (after C done) ∧ errand.Confined n c.today idle C done

theorem withstands {c : Cluster σ β} {n : Node σ} {C : Cache} (hn : c.nodes[i]? = some n)
    (hC : shows n.store C) {idle : Prop} (hidle : idle → c.Idle i) (draws : Nat → Draws)
    (errand : Errand) : c.Withstands i draws idle errand n C where
  fault fault := error_of_run hn
  clock := (clock_of_script hn n draws _).1
  wait_le := (clock_of_script hn n draws _).2
  store := by
    obtain ⟨done, o, hsub, ho, hshown, hwarranted⟩ :=
      warranted_script n draws (errand.warranted_script n c.today) hn hC nofun
    refine ⟨done, o, hsub, ho, hshown, Errand.confined_of_warranted hwarranted ?_⟩
    intro hstill call hcall
    exact (idle_script (hidle hstill) n draws _).2 call (hsub.subset hcall)

/-- No directory alters what a node has stored, in any errand that comes after any deeds. -/
theorem withstands_after {start : Cluster σ β} {m : Node σ} {C : Cache}
    (hm : start.nodes[i]? = some m) (hC : shows m.store C) (draws : Nat → Draws)
    (before : List Deed) (errand : Errand) :
    let c := before.foldl (act i draws) start
    ∃ n D, c.nodes[i]? = some n ∧ shows n.store D ∧
      c.Withstands i draws (start.Idle i) errand n D := by
  intro c
  obtain ⟨n, hn, hbecomes⟩ := becomes_acts draws start before m hm
  obtain ⟨done, -, hshown⟩ := exists_after hC (callsOfDeeds i draws start before)
  rw [← hbecomes.store] at hshown
  exact ⟨n, after C done, hn, hshown,
    withstands hn hshown (fun hidle => idle_acts hidle draws before) draws errand⟩

end Withstanding

attribute [local instance] Timer.seconds63

/-- A directory that answers everything with one nameless record has it stored under the identity
that was asked for, and under no other. -/
theorem withstands_after_forgery :
    let known : Record := { identity := "k", publicKey := "key", lastSeen := 10 }
    let forged : Record := { identity := "", publicKey := "forged", lastSeen := 99 }
    let store : FaultyStore MemoryStore := { inner := .empty 2500, trims := true }
    let start : Cluster (FaultyStore MemoryStore) (AnyDirectory MemoryStore) :=
      { nodes := [.start {} "key" store], directory := .fixed forged, today := 5 }
    let c := [Deed.errand (.contact known)].foldl (act 0 fun _ => {}) start
    ∃ n C done, c.nodes[0]? = some n ∧ C.find? "k" = some known ∧ C.find? "x" = none ∧
      (Errand.resolve "x").Confined n 5 (start.Idle 0) C done ∧ start.Idle 0 ∧
      (after C done).find? "k" = some known ∧
      (after C done).find? "x" = some { forged with identity := "x", synced := true } := by
  intro known forged store start c
  have hm : start.nodes[0]? = some (.start {} "key" store) := rfl
  have hempty : shows store (StoreKind.empty 2500) := CacheLike.lockstep.empty 2500
  obtain ⟨n, C, hn, hC, hwithstands⟩ :=
    withstands_after hm hempty (fun _ => {}) [.errand (.contact known)] (.resolve "x")
  obtain ⟨done, o, -, ho, hO, hconfined⟩ := hwithstands.store
  have hnode : n = c.nodes[0]?.getD (.start {} "key" store) := by
    rw [hn]
    rfl
  subst hnode
  refine ⟨_, C, done, hn, find?_of_shown hn hC ?_, find?_of_shown hn hC ?_, hconfined,
    ⟨_, rfl, rfl⟩, find?_of_shown ho hO ?_, find?_of_shown ho hO ?_⟩ <;> decide +kernel

end Cluster

end PeerBook
