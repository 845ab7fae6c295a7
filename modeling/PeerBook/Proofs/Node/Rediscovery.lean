import Mathlib.Data.List.Dedup
import PeerBook.Proofs.Node.Matching
import PeerBook.Proofs.Node.Resolution
import PeerBook.Proofs.Node.Searches

namespace PeerBook

open StoreKind

namespace Cache

variable {C : Cache} {r : Record}

theorem length_put_le : (C.put r).entries.length ≤ C.entries.length + 1 := by
  have hperm : (C.put r).entries.Perm
      (r :: C.entries.filter fun s => decide (s.identity ≠ r.identity)) :=
    List.mergeSort_perm _ _
  rw [hperm.length_eq, List.length_cons]
  exact Nat.succ_le_succ (List.length_filter_le _ _)

theorem top_eq_self (h : C.entries.length ≤ C.capacity) : C.top = C := by
  simp only [top, List.take_of_length_le h]

theorem after_upsert (hnamed : r.identity ≠ "") : after C [.upsert r] = C.put r := by
  rw [after_cons, perform_upsert hnamed]
  rfl

theorem after_upsert_trim (hnamed : r.identity ≠ "") (hroom : C.entries.length + 1 ≤ C.capacity) :
    after C [.upsert r, .trim] = C.put r := by
  rw [after_cons, perform_upsert hnamed]
  exact top_eq_self (length_put_le.trans hroom)

end Cache

namespace Contact

def confirmed (x : Contact) : Contact :=
  { x with status := if x.status = .found then .known else x.status }

theorem isMatched_confirmed (x : Contact) : x.confirmed.isMatched = x.isMatched := by
  obtain ⟨name, digits, identity, status, record⟩ := x
  cases status <;> rfl

theorem precedes_confirmed (x y : Contact) : x.confirmed.precedes y.confirmed = x.precedes y := by
  rw [precedes, precedes, isMatched_confirmed, isMatched_confirmed]
  rfl

end Contact

namespace Contacts

variable {answer : String → Option Record} {C : Cache} {x y : Contact} {r : Record}
  {name digits identity : String} {calls : List Call}

/-- Whether a contact will come up again as it did: its record is stored with a number, or there is
none and the directory has none either. -/
inductive Settled (answer : String → Option Record) (C : Cache) (x : Contact) : Prop
  | matched {r : Record} (record : x.record = some r) (status : x.isMatched)
      (stored : C.find? x.identity = some r) (hint : r.contactHint.isSome)
  | missing (record : x.record = none) (status : x.status = .notFound)
      (absent : C.find? x.identity = none) (unknown : answer x.identity = none)

theorem Settled.put (hx : Settled answer C x)
    (hstored : ∀ s ∈ C.find? r.identity, s.contactHint = none)
    (hknown : C.find? r.identity = none → answer r.identity ≠ none) :
    Settled answer (C.put r) x := by
  have hne : r.identity ≠ x.identity := by
    intro heq
    rw [heq] at hstored hknown
    cases hx with
    | matched _ _ stored hint =>
        rw [hstored _ stored] at hint
        cases hint
    | missing _ _ absent unknown => exact hknown absent unknown
  have hsame : (C.put r).find? x.identity = C.find? x.identity := by
    rw [Cache.find?_put, if_neg hne]
  cases hx with
  | matched record status stored hint => exact .matched record status (hsame ▸ stored) hint
  | missing record status absent unknown => exact .missing record status (hsame ▸ absent) unknown

/-- What a search leaves: the contact is settled, others stay so, and there is at most one record
more. -/
structure Leaves (answer : String → Option Record) (C : Cache) (x : Contact) (D : Cache) :
    Prop where
  settled : Settled answer D x
  others : ∀ y, Settled answer C y → Settled answer D y
  capacity : D.capacity = C.capacity
  length : D.entries.length ≤ C.entries.length + 1

theorem Leaves.refl (h : Settled answer C x) : Leaves answer C x C :=
  ⟨h, fun _ hy => hy, rfl, Nat.le_succ _⟩

theorem Leaves.put (hidentity : r.identity = x.identity) (hrecord : x.record = some r)
    (hstatus : x.isMatched) (hhint : r.contactHint.isSome)
    (hstored : ∀ s ∈ C.find? r.identity, s.contactHint = none)
    (hknown : C.find? r.identity = none → answer r.identity ≠ none) :
    Leaves answer C x (C.put r) where
  settled := .matched hrecord hstatus (by rw [Cache.find?_put, if_pos hidentity]) hhint
  others _ hy := hy.put hstored hknown
  capacity := rfl
  length := Cache.length_put_le

theorem Search.leaves
    (h : Search name digits identity (answer identity) (C.find? identity) x calls)
    (hnamed : identity ≠ "")
    (hdirectory : ∀ r, answer identity = some r → r.identity = identity)
    (hroom : C.entries.length + 1 ≤ C.capacity) : Leaves answer C x (after C calls) := by
  generalize hfound : C.find? identity = found at h
  cases h with
  | known hint => exact .refl (.matched rfl rfl hfound hint)
  | @hinted stored hint =>
      obtain rfl : stored.identity = identity := Cache.find?_identity stored hfound
      rw [Cache.after_upsert (r := { stored with contactHint := some digits }) hnamed]
      refine .put rfl rfl rfl rfl (fun s hs => ?_) fun habsent => ?_
      · obtain rfl := Option.some.inj (hfound.symm.trans hs)
        exact hint
      · cases hfound.symm.trans habsent
  | notFound hanswer => exact .refl (.missing rfl rfl hfound hanswer)
  | @found r hanswer =>
      obtain rfl := hdirectory r hanswer
      rw [Cache.after_upsert_trim (r := { r with contactHint := some digits, synced := true })
        hnamed hroom]
      refine .put rfl rfl rfl rfl (fun s hs => ?_) fun _ hunknown => ?_
      · cases hfound.symm.trans hs
      · cases hanswer.symm.trans hunknown

/-- What is settled comes up again, and nothing is written. -/
theorem Search.confirmed (hx : Settled answer C x)
    (h : Search x.name x.digits x.identity (answer x.identity) (C.find? x.identity) y calls) :
    y = x.confirmed ∧ calls = [] := by
  obtain ⟨name, digits, identity, status, record⟩ := x
  cases hx with
  | @matched r hrecord hstatus stored hint =>
      dsimp only at *
      rw [stored] at h
      subst hrecord
      cases h with
      | known _ =>
          cases status with
          | known | found => exact ⟨rfl, rfl⟩
          | notFound => cases hstatus
      | hinted hnone => simp [hnone] at hint
  | missing hrecord hstatus absent unknown =>
      dsimp only at *
      rw [absent] at h
      subst hrecord hstatus
      cases h with
      | notFound _ => exact ⟨rfl, rfl⟩
      | found hanswer => cases unknown.symm.trans hanswer

end Contacts

namespace Contacts

variable {name digits identity : String} {stored : Record} {answer : Option Record}

def Noted (digits : String) (x : Contact) : Prop :=
  ∃ r, x.record = some r ∧ r.contactHint = some digits

theorem hint_notes : (hint name digits identity stored).Returns fun x =>
    x.status = .known ∧ (stored.contactHint = none → Noted digits x) := by
  rw [hint]
  split
  · rename_i hhint
    refine ⟨rfl, fun hnone => ?_⟩
    rw [hnone] at hhint
    cases hhint
  · exact ⟨rfl, fun _ => ⟨_, rfl, rfl⟩⟩

theorem keepAnswer_notes : (keepAnswer name digits identity answer).Returns fun x =>
    x.status ≠ .known ∧ (x.status = .found → Noted digits x) := by
  cases answer with
  | none => exact ⟨nofun, nofun⟩
  | some r => exact fun _ => ⟨nofun, fun _ => ⟨_, rfl, rfl⟩⟩

end Contacts

namespace Node

open Contacts

variable {σ ω : Type} {n : Node σ} {phoneBook : List PhoneBookEntry} {host : Script.Host ω}
  {w u : ω} {results : List Contact} {x : Contact}

def Notes (n : Node σ) (host : Script.Host ω) (phoneBook : List PhoneBookEntry) (w : ω)
    (x : Contact) : Prop :=
  x.status = .found ∨ x.status = .known ∧
    ∃ stored, host.get? (n.reached host phoneBook w x.digits) x.identity = .ok (some stored) ∧
      stored.contactHint = none

theorem noted_of_found (h : (n.found (distinct [] phoneBook)).run host w = (.ok results, u))
    (hx : x ∈ results) (hnotes : n.Notes host phoneBook w x) : Noted x.digits x := by
  obtain ⟨turn, hturn, hrun⟩ := Script.exists_turn_of_mem h hx
  replace hrun := Script.run_eq_of_fst hrun
  obtain ⟨-, hdigits, hidentity⟩ := (find_returns _ _ _).of_run hrun
  rw [Notes, hdigits, hidentity, ← reached_of_mem_turns h hturn] at hnotes
  rw [hdigits]
  rcases find_cases hrun with ⟨stored, hread, hhint⟩ | ⟨hread, hkeep⟩
  · obtain ⟨hstatus, hnoted⟩ := hint_notes.of_run hhint
    rcases hnotes with hfound | ⟨-, other, hother, hnone⟩
    · cases hstatus.symm.trans hfound
    · obtain rfl := Option.some.inj (Except.ok.inj (hread.symm.trans hother))
      exact hnoted hnone
  · obtain ⟨hstatus, hnoted⟩ := keepAnswer_notes.of_run hkeep
    rcases hnotes with hfound | ⟨hknown, -⟩
    · exact hnoted hfound
    · exact absurd hknown hstatus

end Node

namespace Cluster

open CacheLike Contacts

theorem length_distinct (phoneBook : List PhoneBookEntry) :
    (distinct [] phoneBook).length =
      (phoneBook.filterMap fun entry => Phone.digits? entry.phone).dedup.length := by
  have hsame (digits : String) : digits ∈ (distinct [] phoneBook).map Prod.snd ↔
      digits ∈ (phoneBook.filterMap fun entry => Phone.digits? entry.phone).dedup := by
    rw [List.mem_dedup, List.mem_filterMap, List.mem_map, exists_mem_distinct_iff]
  have hperm := (List.perm_ext_iff_of_nodup nodup_distinct (List.nodup_dedup _)).mpr hsame
  rw [← hperm.length_eq, List.length_map]

section Searching

variable {σ β : Type} [CacheLike σ] [DirectoryBackend β] [Timer] {i : Nat} {n m : Node σ}
  {draws : Nat → Draws} {c d : Cluster σ β} {answer : String → Option Record} {C : Cache}
  {salt name digits : String} {x : Contact} {numbers : List (String × String)}
  {results again : List Contact}

theorem steady_of_find (hsteady : Directory.Steady (timeoutOf n) c.directory answer)
    (h : (find salt name digits).run (host i n draws) c = (.ok x, d)) :
    Directory.Steady (timeoutOf n) d.directory answer := by
  have hdirectory : ((find salt name digits).run (host i n draws) c).2.directory =
      Directory.afterLookups c.directory ((find salt name digits).lookups (host i n draws) c) :=
    directory_of_run (find_publishes (fun _ => False) salt name digits) c
  rw [h] at hdirectory
  exact hdirectory ▸ hsteady.after _

theorem leaves_of_find (hm : c.nodes[i]? = some m) (hC : shows m.store C)
    (hsteady : Directory.Steady (timeoutOf n) c.directory answer)
    (hquiet : Undisturbed i n draws (find salt name digits) c)
    (hroom : C.entries.length + 1 ≤ C.capacity)
    (h : (find salt name digits).run (host i n draws) c = (.ok x, d)) :
    ∃ D o, Leaves answer C x D ∧ d.nodes[i]? = some o ∧ shows o.store D ∧
      Directory.Steady (timeoutOf n) d.directory answer := by
  obtain ⟨found, calls, o, hread, hsearch, ho, hstore⟩ := search_of_find hm hquiet h
  rw [lockstep.get? hC] at hread
  obtain rfl := Except.ok.inj hread
  rw [hsteady.outcome] at hsearch
  have hnamed : Phone.hash salt digits ≠ "" := (Issued.phone salt digits).ne_empty
  exact ⟨_, o, hsearch.leaves hnamed (fun r hr => hsteady.identity hr) hroom, ho,
    hstore ▸ lockstep.after hC calls, steady_of_find hsteady h⟩

/-- After a search for numbers with room for all of them, whatever came of them is settled. -/
theorem settled_of_found (hm : c.nodes[i]? = some m) (hC : shows m.store C)
    (hsteady : Directory.Steady (timeoutOf n) c.directory answer)
    (hquiet : Undisturbed i n draws (n.found numbers) c)
    (hroom : C.entries.length + numbers.length ≤ C.capacity)
    (h : (n.found numbers).run (host i n draws) c = (.ok results, d)) :
    ∃ D o, (∀ x ∈ results, Settled answer D x) ∧ (∀ y, Settled answer C y → Settled answer D y) ∧
      D.entries.length ≤ D.capacity ∧ d.nodes[i]? = some o ∧ shows o.store D ∧
        Directory.Steady (timeoutOf n) d.directory answer := by
  induction numbers generalizing c m C results with
  | nil =>
      cases h
      exact ⟨C, m, nofun, fun _ hy => hy, hroom, hm, hC, hsteady⟩
  | cons number numbers ih =>
      obtain ⟨x, rest, e, rfl, hfirst, hrest⟩ := Script.run_mapM_cons_eq_ok h
      rw [Node.found, List.mapM_cons] at hquiet
      obtain ⟨hquiet, hlater⟩ := hquiet.of_bind hfirst
      obtain ⟨hquiet', -⟩ := hlater.of_bind hrest
      rw [List.length_cons] at hroom
      obtain ⟨D, o, hleaves, ho, hD, hsteady'⟩ :=
        leaves_of_find hm hC hsteady hquiet (by omega) hfirst
      have hcapacity := hleaves.capacity
      have hlength := hleaves.length
      obtain ⟨E, l, hsettled, hothers, hfits, hl, hE, hlast⟩ :=
        ih ho hD hsteady' hquiet' (by omega) hrest
      refine ⟨E, l, List.forall_mem_cons.mpr ⟨hothers x hleaves.settled, hsettled⟩, ?_, hfits, hl,
        hE, hlast⟩
      exact fun y hy => hothers y (hleaves.others y hy)

theorem find_again {y : Contact} (hm : c.nodes[i]? = some m) (hC : shows m.store C)
    (hsteady : Directory.Steady (timeoutOf n) c.directory answer)
    (hquiet : Undisturbed i n draws (find salt x.name x.digits) c) (hx : Settled answer C x)
    (hhash : x.identity = Phone.hash salt x.digits)
    (h : (find salt x.name x.digits).run (host i n draws) c = (.ok y, d)) :
    y = x.confirmed ∧
      (find salt x.name x.digits).lookups (host i n draws) c =
        ([x].filter fun x => x.status = .notFound).map Contact.identity ∧
      ∃ o, d.nodes[i]? = some o ∧ o.store = m.store := by
  obtain ⟨found, calls, o, hread, hsearch, ho, hstore⟩ := search_of_find hm hquiet h
  rw [lockstep.get? hC] at hread
  obtain rfl := Except.ok.inj hread
  rw [← hhash, hsteady.outcome] at hsearch
  obtain ⟨rfl, rfl⟩ := hsearch.confirmed hx
  refine ⟨rfl, ?_, o, ho, hstore⟩
  have hget : RecordStore.get? C x.identity = .ok (C.find? x.identity) := rfl
  rw [lookups_find h, host_get?_eq hm, lockstep.get? hC, ← hhash, hget]
  cases hx with
  | matched _ status stored _ =>
      have hfound : x.status ≠ .notFound := by simpa [Contact.isMatched] using status
      simp [stored, hfound]
  | missing _ status absent _ => simp [absent, status]

/-- A search for numbers that are settled gives the same contacts, writes nothing, and asks the
directory about the missing ones. -/
theorem found_again (hm : c.nodes[i]? = some m) (hC : shows m.store C)
    (hsteady : Directory.Steady (timeoutOf n) c.directory answer)
    (hquiet : Undisturbed i n draws (n.found (results.map fun x => (x.name, x.digits))) c)
    (hsettled : ∀ x ∈ results, Settled answer C x)
    (hhashed : ∀ x ∈ results, x.identity = Phone.hash n.config.identitySalt x.digits)
    (h : (n.found (results.map fun x => (x.name, x.digits))).run (host i n draws) c =
      (.ok again, d)) :
    again = results.map Contact.confirmed ∧
      (n.found (results.map fun x => (x.name, x.digits))).lookups (host i n draws) c =
        (results.filter fun x => x.status = .notFound).map Contact.identity ∧
      ∃ o, d.nodes[i]? = some o ∧ o.store = m.store := by
  induction results generalizing c m again with
  | nil =>
      cases h
      exact ⟨rfl, rfl, m, hm, rfl⟩
  | cons x results ih =>
      obtain ⟨hx, hsettled⟩ := List.forall_mem_cons.mp hsettled
      obtain ⟨hhash, hhashed⟩ := List.forall_mem_cons.mp hhashed
      obtain ⟨y, rest, e, rfl, hfirst, hrest⟩ := Script.run_mapM_cons_eq_ok h
      rw [List.map_cons, Node.found, List.mapM_cons] at hquiet
      obtain ⟨hquiet, hlater⟩ := hquiet.of_bind hfirst
      obtain ⟨hquiet', -⟩ := hlater.of_bind hrest
      obtain ⟨rfl, hasked, o, ho, hstore⟩ := find_again hm hC hsteady hquiet hx hhash hfirst
      obtain ⟨rfl, hasked', l, hl, hstore'⟩ :=
        ih ho (hstore ▸ hC) (steady_of_find hsteady hfirst) hquiet' hsettled hhashed hrest
      have hdone : (pure (x.confirmed :: results.map Contact.confirmed) :
          Script (List Contact)).lookups (host i n draws) d = [] := rfl
      refine ⟨rfl, ?_, l, hl, hstore'.trans hstore⟩
      rw [List.map_cons, Node.found, List.mapM_cons, Script.lookups_bind hfirst,
        Script.lookups_bind hrest, hdone, List.append_nil, hasked]
      exact (congrArg (_ ++ ·) hasked').trans
        (by rw [← List.map_append, ← List.filter_append, List.singleton_append])

variable {phoneBook : List PhoneBookEntry} {contacts : List Contact} {size : Nat}

/-- The node at `i` goes through a phone book again: it gets the same contacts in the same order,
whoever was found is known now, nothing is written, and the directory is asked just about those who
are missing. -/
structure Repeats (i : Nat) (n : Node σ) (draws : Nat → Draws) (phoneBook : List PhoneBookEntry)
    (contacts : List Contact) (c : Cluster σ β) : Prop where
  result : ((n.discover phoneBook).run (host i n draws) c).1 =
    .ok (contacts.map Contact.confirmed)
  store : (((n.discover phoneBook).run (host i n draws) c).2.nodes[i]?.map Node.store) =
    c.nodes[i]?.map Node.store
  lookups : ((n.discover phoneBook).lookups (host i n draws) c).Perm
    ((contacts.filter fun x => x.status = .notFound).map Contact.identity)

theorem repeats_of_settled (hm : c.nodes[i]? = some m) (hC : shows m.store C)
    (hsteady : Directory.Steady (timeoutOf n) c.directory answer)
    (hquiet : Undisturbed i n draws (n.discover phoneBook) c)
    (hnumbers : results.map (fun x => (x.name, x.digits)) = distinct [] phoneBook)
    (hsettled : ∀ x ∈ results, Settled answer C x)
    (hhashed : ∀ x ∈ results, x.identity = Phone.hash n.config.identitySalt x.digits) :
    c.Repeats i n draws phoneBook (results.mergeSort Contact.precedes) := by
  obtain ⟨again, d, hrun⟩ := exists_run_ok_of_named (n.discover_named phoneBook none) hm hC
  obtain ⟨found, hfound, rfl⟩ := Node.discover_run_eq_ok.mp hrun
  have hlookups : (n.discover phoneBook).lookups (host i n draws) c =
      (n.found (distinct [] phoneBook)).lookups (host i n draws) c ++ [] :=
    Script.lookups_bind hfound
  obtain ⟨hquiet, -⟩ := Undisturbed.of_bind hquiet hfound
  rw [← hnumbers] at hfound hlookups
  obtain ⟨rfl, hasked, o, ho, hstore⟩ :=
    found_again hm hC hsteady (hnumbers ▸ hquiet) hsettled hhashed hfound
  refine ⟨?_, ?_, ?_⟩
  · rw [hrun, List.map_mergeSort fun x _ y _ => (Contact.precedes_confirmed x y).symm]
  · rw [hrun, hm, ho, Option.map_some, Option.map_some, hstore]
  · rw [hlookups, List.append_nil, hasked]
    exact (((List.mergeSort_perm results _).symm).filter _).map _

/-- While no sweep falls due, a second search finds everything where the first one has left it, and
each record that has its number from the first one is matched by it. -/
theorem rediscovered (hn : c.nodes[i]? = some n) (hC : shows n.store C)
    (hsize : RecordStore.size n.store = .ok size)
    (hroom : size + (phoneBook.filterMap fun entry => Phone.digits? entry.phone).dedup.length ≤
      RecordStore.capacity n.store)
    (hsteady : Directory.Steady (timeoutOf n) c.directory answer)
    (hquiet : Undisturbed i n draws (n.discover phoneBook) c) :
    ∃ contacts d m, (n.discover phoneBook).run (host i n draws) c = (.ok contacts, d) ∧
      d.nodes[i]? = some m ∧
      (∀ draws', Undisturbed i n draws' (n.discover phoneBook) d →
        d.Repeats i n draws' phoneBook contacts) ∧
      ∀ x ∈ contacts, n.Notes (host i n draws) phoneBook c x →
        ∀ spellings, (∃ p ∈ spellings, Phone.SameEnding p x.digits) →
          ∃ matched, Contacts.matching m.store spellings = .ok matched ∧
            ∃ r ∈ matched, x.record = some r := by
  rw [lockstep.size hC] at hsize
  obtain rfl := Except.ok.inj hsize
  rw [lockstep.capacity hC, ← length_distinct] at hroom
  obtain ⟨contacts, d, hrun⟩ := exists_run_ok_of_named (n.discover_named phoneBook none) hn hC
  obtain ⟨hcontacts, -⟩ := contacts_of_discover hn hC (congrArg Prod.fst hrun)
  obtain ⟨results, hresults, rfl⟩ := Node.discover_run_eq_ok.mp hrun
  obtain ⟨hquiet, -⟩ := Undisturbed.of_bind hquiet hresults
  obtain ⟨D, m, hsettled, -, hfits, hm, hD, hsteady⟩ :=
    settled_of_found hn hC hsteady hquiet hroom hresults
  refine ⟨_, d, m, hrun, hm, fun draws' hquiet' => ?_, fun x hx hnotes spellings hspelled => ?_⟩
  · exact repeats_of_settled hm hD hsteady hquiet' (Node.map_of_found hresults) hsettled
      fun x hx => hcontacts.hashed x (List.mem_mergeSort.mpr hx)
  · have hlisted := (hcontacts.listed x.digits).mp ⟨x, hx, rfl⟩
    obtain ⟨entry, -, hdigits⟩ := hlisted
    rw [List.mem_mergeSort] at hx
    obtain ⟨r, hrecord, hhint⟩ := Node.noted_of_found hresults hx hnotes
    cases hsettled x hx with
    | missing hnone _ _ _ => cases hrecord.symm.trans hnone
    | matched hrecord' _ hstored _ =>
        obtain rfl := Option.some.inj (hrecord.symm.trans hrecord')
        obtain ⟨matched, hmatched, hr⟩ := mem_matching hD hfits
          (Cache.find?_eq_some_iff.mp hstored).1 hhint (Phone.digits?_of_digits? hdigits) hspelled
        exact ⟨matched, hmatched, r, hr, hrecord⟩

end Searching

attribute [local instance] Timer.seconds63

/-- One number is published, one is stored without its number, and nobody knows the third. -/
theorem rediscovered_published :
    let published : Record :=
      { identity := Phone.hash Phone.defaultSalt "15551234567", publicKey := "k", lastSeen := 7 }
    let stored : Record :=
      { identity := Phone.hash Phone.defaultSalt "2", publicKey := "l", lastSeen := 3 }
    let n : Node DurableStore := .start {} "key" (after (.empty 10) [.upsert stored])
    let c : Cluster DurableStore SharedDirectory :=
      { nodes := [n], directory := ({} : SharedDirectory).insert published.identity published,
        today := 5 }
    let phoneBook : List PhoneBookEntry := [⟨"Cid", "3"⟩, ⟨"Bob", "2"⟩, ⟨"Ann", "1-555-123-4567"⟩]
    ∃ contacts d m, (n.discover phoneBook).run (host 0 n fun _ => {}) c = (.ok contacts, d) ∧
      (contacts.map fun x => (x.digits, x.status)).Perm
        [("3", .notFound), ("2", .known), ("15551234567", .found)] ∧
      d.nodes[0]? = some m ∧ d.Repeats 0 n (fun _ => {}) phoneBook contacts ∧
      ∀ x ∈ contacts, x.status = .found →
        ∃ matched, Contacts.matching m.store ["7", "(555) 123 4567"] = .ok matched ∧
          ∃ r ∈ matched, x.record = some r := by
  intro published stored n c phoneBook
  have hshown (calls : List Call) :
      CacheLike.shows (Node.start {} "key" (after (DurableStore.empty 10) calls)).store
        (after (Cache.empty 10) calls) :=
    CacheLike.shows_after 10 calls
  have hn : c.nodes[0]? = some n := rfl
  have hC : CacheLike.shows n.store _ := hshown [.upsert stored]
  have hidle : c.Idle 0 := ⟨n, hn, rfl⟩
  have hsteady : Directory.Steady (timeoutOf n) c.directory _ :=
    Directory.steady_of_unchanged fun _ => rfl
  have hsize : RecordStore.size n.store = .ok 1 := by decide +kernel
  have hroom : 1 + (phoneBook.filterMap fun entry => Phone.digits? entry.phone).dedup.length ≤
      RecordStore.capacity n.store := by decide +kernel
  have hfound : ((n.found (Contacts.distinct [] phoneBook)).run (host 0 n fun _ => {}) c).1.map
      (List.map fun x => (x.digits, x.status)) =
        .ok [("3", .notFound), ("2", .known), ("15551234567", .found)] := by decide +kernel
  have hquiet := (idle_script hidle n (fun _ => {}) (n.discover phoneBook)).2
  obtain ⟨contacts, d, m, hrun, hm, hrepeats, hmatched⟩ :=
    rediscovered hn hC hsize hroom hsteady hquiet
  have hidle' : d.Idle 0 := by
    have hlater := (idle_script hidle n (fun _ => {}) (n.discover phoneBook)).1
    rwa [hrun] at hlater
  obtain ⟨results, hresults, hsorted⟩ := Node.discover_run_eq_ok.mp hrun
  rw [hresults] at hfound
  have hperm : (contacts.map fun x => (x.digits, x.status)).Perm
      [("3", .notFound), ("2", .known), ("15551234567", .found)] :=
    Except.ok.inj hfound ▸ (hsorted ▸ List.mergeSort_perm results Contact.precedes).map _
  refine ⟨contacts, d, m, hrun, hperm, hm, hrepeats _ (idle_script hidle' n _ _).2, ?_⟩
  intro x hx hstatus
  have hdigits : x.digits = "15551234567" := by
    have hmem := hperm.subset (List.mem_map_of_mem (f := fun x => (x.digits, x.status)) hx)
    simpa [hstatus] using hmem
  exact hmatched x hx (.inl hstatus) _ ⟨"(555) 123 4567", by simp, by rw [hdigits]; rfl⟩

end Cluster

end PeerBook
