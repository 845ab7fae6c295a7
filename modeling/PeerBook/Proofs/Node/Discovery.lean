import PeerBook.Proofs.Identity.Hashes
import PeerBook.Proofs.Node.Hearsay
import PeerBook.Proofs.Node.Publications

namespace PeerBook

open StoreKind

namespace Contacts

variable {digits : String} {seen : List String} {phoneBook before : List PhoneBookEntry}

theorem not_seen_of_mem_distinct {x : String × String} (h : x ∈ distinct seen phoneBook) :
    x.2 ∉ seen := by
  induction phoneBook generalizing seen with
  | nil => cases h
  | cons entry phoneBook ih =>
      rw [distinct] at h
      split at h
      · exact ih h
      · rename_i found _
        split at h
        · exact ih h
        · rename_i hnew
          rcases List.mem_cons.mp h with rfl | h
          · simpa using hnew
          · exact fun hmem => ih h (List.mem_cons_of_mem found hmem)

/-- The first entry with a number stands for it, and no other does. -/
theorem distinct_append_cons (entry : PhoneBookEntry) (after : List PhoneBookEntry)
    (hbefore : ∀ e ∈ before, Phone.digits? e.phone ≠ some digits) (hseen : digits ∉ seen)
    (hentry : Phone.digits? entry.phone = some digits) :
    ∃ later, distinct seen (before ++ entry :: after) =
        distinct seen before ++ (entry.name, digits) :: later ∧
      (∀ x ∈ distinct seen before, x.2 ≠ digits) ∧ ∀ x ∈ later, x.2 ≠ digits := by
  induction before generalizing seen with
  | nil =>
      refine ⟨distinct (digits :: seen) after, ?_, nofun, ?_⟩
      · simp [distinct, hentry, hseen]
      · exact fun x hx he => not_seen_of_mem_distinct hx (he ▸ List.mem_cons_self)
  | cons e before ih =>
      obtain ⟨he, hrest⟩ := List.forall_mem_cons.mp hbefore
      cases hdigits : Phone.digits? e.phone with
      | none => simpa [distinct, hdigits] using ih hrest hseen
      | some other =>
          have hother : other ≠ digits := fun heq => he (hdigits.trans (congrArg some heq))
          by_cases hold : other ∈ seen
          · simpa [distinct, hdigits, hold] using ih hrest hseen
          · obtain ⟨later, heq, hearlier, hlater⟩ :=
              ih hrest (List.not_mem_cons_of_ne_of_not_mem hother.symm hseen)
            refine ⟨later, by simp [distinct, hdigits, hold, heq], ?_, hlater⟩
            simpa [distinct, hdigits, hold, hother] using hearlier

def keepAnswer (name digits identity : String) : Option Record → Script Contact
  | none => .done ⟨name, digits, identity, .notFound, none⟩
  | some r =>
    let hinted := { r with contactHint := some digits, synced := true }
    .upsert hinted fun _ => .trim fun _ => .done ⟨name, digits, identity, .found, some hinted⟩

theorem find_eq (salt name digits : String) :
    find salt name digits = .get (Phone.hash salt digits) fun
      | some stored => hint name digits (Phone.hash salt digits) stored
      | none => .lookup (Phone.hash salt digits) (keepAnswer name digits (Phone.hash salt digits)) :=
  congrArg (Script.get _) <| funext fun found => by
    cases found with
    | none => exact congrArg (Script.lookup _) (funext fun answer => by cases answer <;> rfl)
    | some stored => rfl

/-- What comes back is about the number that was looked for. -/
theorem find_returns (salt name digits : String) :
    (find salt name digits).Returns fun x =>
      x.name = name ∧ x.digits = digits ∧ x.identity = Phone.hash salt digits := by
  rw [find_eq]
  intro found
  cases found with
  | none =>
      intro answer
      cases answer with
      | none => exact ⟨rfl, rfl, rfl⟩
      | some r => exact fun _ => ⟨rfl, rfl, rfl⟩
  | some stored =>
      change (hint name digits (Phone.hash salt digits) stored).Returns _
      rw [hint]
      split <;> exact ⟨rfl, rfl, rfl⟩

theorem find_named (salt name digits : String) (seen : Option (String × Option Record)) :
    (find salt name digits).Warranted (fun r _ => r.identity ≠ "") seen := by
  have hnamed : Phone.hash salt digits ≠ "" := (Issued.phone salt digits).ne_empty
  rw [find_eq]
  intro found hfound
  cases found with
  | none =>
      intro answer hanswer
      cases answer with
      | none => trivial
      | some r =>
          obtain ⟨hidentity, -⟩ := hanswer r rfl
          exact ⟨.inl fun _ => hidentity ▸ hnamed, fun _ => trivial⟩
  | some stored =>
      have hstored : stored.identity ≠ "" := hfound stored rfl ▸ hnamed
      change (hint name digits (Phone.hash salt digits) stored).Warranted _ _
      rw [hint]
      split
      · trivial
      · exact ⟨.inl fun _ => hstored, trivial⟩

end Contacts

namespace Node

variable {σ ω : Type} {n : Node σ} {phoneBook : List PhoneBookEntry} {host : Script.Host ω}
  {w u : ω} {contacts : List Contact}

def found (n : Node σ) (numbers : List (String × String)) : Script (List Contact) :=
  numbers.mapM fun number => Contacts.find n.config.identitySalt number.1 number.2

theorem discover_run_eq_ok :
    (n.discover phoneBook).run host w = (.ok contacts, u) ↔
      ∃ results, (n.found (Contacts.distinct [] phoneBook)).run host w = (.ok results, u) ∧
        contacts = results.mergeSort Contact.precedes := by
  refine Script.run_bind_eq_ok.trans ⟨?_, ?_⟩
  · rintro ⟨results, v, hrun, hsorted⟩
    cases hsorted
    exact ⟨results, hrun, rfl⟩
  · rintro ⟨results, hrun, rfl⟩
    exact ⟨results, u, hrun, rfl⟩

theorem filter_found {numbers : List (String × String)} {digits : String}
    (h : (n.found numbers).run host w = (.ok contacts, u))
    (hnumbers : ∀ number ∈ numbers, number.2 ≠ digits) :
    contacts.filter (fun contact => contact.digits = digits) = [] := by
  refine List.filter_eq_nil_iff.mpr fun contact hcontact => ?_
  obtain ⟨number, hnumber, _, _, hrun⟩ := Script.exists_run_of_mem_mapM h contact hcontact
  obtain ⟨-, hdigits, -⟩ := (Contacts.find_returns _ _ _).of_run hrun
  simpa [hdigits] using hnumbers number hnumber

/-- The entry that is the first with its number is looked for in the state to which the entries
before it lead, and what comes of that is the only contact for the number. -/
theorem exists_contact_of_discover {before rest : List PhoneBookEntry} {entry : PhoneBookEntry}
    {digits : String} (hbefore : ∀ e ∈ before, Phone.digits? e.phone ≠ some digits)
    (hentry : Phone.digits? entry.phone = some digits)
    (h : (n.discover (before ++ entry :: rest)).run host w = (.ok contacts, u)) :
    ∃ earlier contact v v', (n.discover before).run host w = (.ok earlier, v) ∧
      (Contacts.find n.config.identitySalt entry.name digits).run host v = (.ok contact, v') ∧
        contacts.filter (fun contact => contact.digits = digits) = [contact] := by
  obtain ⟨results, hresults, rfl⟩ := discover_run_eq_ok.mp h
  obtain ⟨others, hdistinct, hearlier, hothers⟩ :=
    Contacts.distinct_append_cons entry rest hbefore List.not_mem_nil hentry
  rw [hdistinct, found] at hresults
  obtain ⟨front, more, v, rfl, hfront, hmore⟩ := Script.run_mapM_append_eq_ok hresults
  obtain ⟨contact, back, v', rfl, hcontact, hback⟩ := Script.run_mapM_cons_eq_ok hmore
  refine ⟨_, contact, v, v', discover_run_eq_ok.mpr ⟨front, hfront, rfl⟩, hcontact, ?_⟩
  have hdigits : decide (contact.digits = digits) = true :=
    decide_eq_true ((Contacts.find_returns _ _ _).of_run hcontact).2.1
  have hsorted := (List.mergeSort_perm (front ++ contact :: back) Contact.precedes).filter
    fun contact => contact.digits = digits
  rw [List.filter_append, filter_found hfront hearlier, List.nil_append,
    List.filter_cons, if_pos hdigits, filter_found hback hothers] at hsorted
  exact List.perm_singleton.mp hsorted

theorem discover_named (n : Node σ) (phoneBook : List PhoneBookEntry)
    (seen : Option (String × Option Record)) :
    (n.discover phoneBook).Warranted (fun r _ => r.identity ≠ "") seen := by
  have hfound : (n.found (Contacts.distinct [] phoneBook)).Warranted
      (fun r _ => r.identity ≠ "") seen :=
    .mapM (fun number _ => Contacts.find_named _ number.1 number.2) seen
  exact hfound.bind fun _ _ => trivial

end Node

namespace Cluster

open CacheLike

section Published

variable {σ : Type} [CacheLike σ] [Timer] {i j : Nat} {c₀ c₁ c d : Cluster σ SharedDirectory}
  {a b m : Node σ} {draws : Nat → Draws} {C : Cache} {before : List PhoneBookEntry}
  {later : List (String × Record)} {p q name digits address : String} {port : UInt16}
  {today : Timestamp}

theorem directory_of_discover (j : Nat) (b : Node σ) (draws : Nat → Draws)
    (phoneBook : List PhoneBookEntry) (c : Cluster σ SharedDirectory) :
    ((b.discover phoneBook).run (host j b draws) c).2.directory = c.directory := by
  obtain ⟨later, hlater, hdirectory⟩ :=
    published_of_run j b draws (b.discover_publishes (fun _ => False) phoneBook) c
  rw [hdirectory, List.eq_nil_iff_forall_not_mem.mpr hlater]
  rfl

/-- A number that is not stored but published is found. -/
theorem contact_of_find {x : Contact} {r : Record} {identity : String}
    (hm : c.nodes[j]? = some m) (hstored : RecordStore.get? m.store identity = .ok none)
    (hentry : c.directory.entries[identity]? = some r) (hr : r.identity = identity)
    (hidentity : identity = Phone.hash b.config.identitySalt digits)
    (h : (Contacts.find b.config.identitySalt name digits).run (host j b draws) c = (.ok x, d)) :
    x = ⟨name, digits, identity, .found,
      some { r with contactHint := some digits, synced := true }⟩ := by
  subst hr
  have haccept : Directory.accept? r.identity r = some { r with synced := true } :=
    if_pos (.inr rfl)
  rw [Contacts.find_eq, ← hidentity, Script.run, host_get?_eq hm, hstored] at h
  simp only [Script.run, host_lookup_shared, hentry, Option.bind_some, haccept] at h
  have hreturns :
      (Contacts.keepAnswer name digits r.identity (some { r with synced := true })).Returns
        (· = ⟨name, digits, r.identity, .found,
          some { r with contactHint := some digits, synced := true }⟩) := fun _ => rfl
  exact hreturns.of_run h

/-- Whoever has the number in a phone book, under the same salt, finds the node that has published
itself under it: exactly once, whatever else the phone book, the directory and the store hold. -/
theorem discover_published (draws' : Nat → Draws)
    (hpublished : (a.publishSelf (some p) address port today).run (host i a draws) c₀ =
      (.ok true, c₁))
    (hp : Phone.digits? p = some digits)
    (hlater : c.directory = c₁.directory.published later)
    (hnone : ∀ publication ∈ later, publication.1 ≠ a.config.phoneHash p)
    (hb : c.nodes[j]? = some b) (hC : shows b.store C)
    (hsalt : b.config.identitySalt = a.config.identitySalt)
    (hfirst : ∀ entry ∈ before, Phone.digits? entry.phone ≠ some digits)
    (hq : Phone.digits? q = some digits)
    (hreached : (((b.discover before).run (host j b draws') c).2.nodes[j]?.map fun m =>
      RecordStore.get? m.store (a.config.phoneHash p)) = some (.ok none))
    (name : String) (rest : List PhoneBookEntry) :
    ∃ contacts d, (b.discover (before ++ ⟨name, q⟩ :: rest)).run (host j b draws') c =
        (.ok contacts, d) ∧
      contacts.filter (fun contact => contact.digits = digits) =
        [⟨name, digits, a.config.phoneHash p, .found, some {
          identity := a.config.phoneHash p, address, port, publicKey := a.publicKey,
          contactHint := some digits, lastSeen := today, synced := true }⟩] := by
  have hhash : a.config.phoneHash p = Phone.hash b.config.identitySalt digits := by
    rw [hsalt, Phone.hash_of_digits? _ hp, Config.phoneHash]
  obtain ⟨contacts, d, hrun⟩ :=
    exists_run_ok_of_named (b.discover_named (before ++ ⟨name, q⟩ :: rest) none) hb hC
  obtain ⟨earlier, contact, e, e', hbefore, hcontact, hunique⟩ :=
    Node.exists_contact_of_discover hfirst hq hrun
  have hquiet : e.directory = c.directory := by
    have hdirectory := directory_of_discover j b draws' before c
    rwa [hbefore] at hdirectory
  have hentry : e.directory.entries[a.config.phoneHash p]? =
      some { a.ownRecord address port today with identity := a.config.phoneHash p } := by
    rw [hquiet, hlater, SharedDirectory.entries_published hnone]
    exact entry_of_publishSelf hpublished
  rw [hbefore] at hreached
  obtain ⟨m, hm, hstored⟩ := Option.map_eq_some_iff.mp hreached
  refine ⟨contacts, d, hrun, ?_⟩
  rw [hunique, contact_of_find hm hstored hentry rfl hhash hcontact]
  rfl

end Published

attribute [local instance] Timer.seconds63

/-- A number is published in one spelling and found in another. That the node has moved since, and
has published itself without the number, does not show. -/
theorem discover_published_respelled :
    let a : Node DurableStore := .start {} "one" (.empty 10)
    let b : Node DurableStore := .start {} "other" (.empty 10)
    let c₁ := ((a.publishSelf (some "+1 (555) 123-4567") "10.0.0.1" 8889 5).run
      (host 0 a fun _ => {}) { nodes := [a], directory := ({} : SharedDirectory), today := 5 }).2
    let deeds : List (Nat × Deed) := [(0, .errand (.publish none "10.0.0.2" 8889))]
    let moved := deeds.foldl (fun c p => act p.1 (fun _ => {}) c p.2) c₁
    let c := { moved with nodes := b :: moved.nodes }
    let phoneBook : List PhoneBookEntry :=
      [⟨"Nobody", "-"⟩, ⟨"Ann", "1-555-123-4567"⟩, ⟨"Bob", "555"⟩, ⟨"Ann again", "15551234567"⟩]
    let identity := a.config.phoneHash "+1 (555) 123-4567"
    ∃ contacts d, (b.discover phoneBook).run (host 0 b fun _ => {}) c = (.ok contacts, d) ∧
      contacts.filter (fun contact => contact.digits = "15551234567") =
        [⟨"Ann", "15551234567", identity, .found, some {
          identity, address := "10.0.0.1", port := 8889, publicKey := "one",
          contactHint := some "15551234567", lastSeen := 5, synced := true }⟩] := by
  intro a b c₁ deeds moved c phoneBook identity
  have hleft : c₁.LeavesAlone identity (fun _ => {}) deeds := by
    rw [LeavesAlone, LeavesAlone]
    exact ⟨by decide +kernel, trivial⟩
  obtain ⟨later, hnone, hlater⟩ := published_of_acts hleft
  have hpublished : (a.publishSelf (some "+1 (555) 123-4567") "10.0.0.1" 8889 5).run
      (host 0 a fun _ => {}) { nodes := [a], directory := ({} : SharedDirectory), today := 5 } =
        (.ok true, c₁) := Script.run_eq_of_fst (by decide +kernel)
  have hmoved : c.directory = c₁.directory.published later := by
    dsimp only [c]
    exact hlater
  have hp : Phone.digits? "+1 (555) 123-4567" = some "15551234567" := by decide +kernel
  have hq : Phone.digits? "1-555-123-4567" = some "15551234567" := by decide +kernel
  have hsalt : b.config.identitySalt = a.config.identitySalt := by decide +kernel
  have hb : c.nodes[0]? = some b := rfl
  have hfirst : ∀ entry ∈ [(⟨"Nobody", "-"⟩ : PhoneBookEntry)],
      Phone.digits? entry.phone ≠ some "15551234567" := by decide +kernel
  exact discover_published (fun _ => {}) hpublished hp hmoved hnone hb (lockstep.empty 10) hsalt
    hfirst hq (by decide +kernel) "Ann" [⟨"Bob", "555"⟩, ⟨"Ann again", "15551234567"⟩]

end Cluster

end PeerBook
