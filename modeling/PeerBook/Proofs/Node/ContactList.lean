import PeerBook.Proofs.Node.Discovery
import PeerBook.Proofs.Node.Turns

namespace PeerBook

section Sorting

variable {α : Type} {le : α → α → Bool} {l : List α}

/-- Those that are all equal for the sort stay as they were. -/
theorem filter_mergeSort (trans : ∀ a b c, le a b → le b c → le a c)
    (total : ∀ a b, le a b || le b a) {p : α → Bool} (h : ∀ a b, p a → p b → le a b) :
    (l.mergeSort le).filter p = l.filter p := by
  have hequal : (l.filter p).Pairwise fun a b => le a b :=
    List.pairwise_of_forall_mem_list fun a ha b hb =>
      h a b (List.mem_filter.mp ha).2 (List.mem_filter.mp hb).2
  have hsub := (List.sublist_mergeSort trans total hequal List.filter_sublist).filter p
  rw [List.filter_filter] at hsub
  simp only [Bool.and_self] at hsub
  -- The one is a part of the other, and no shorter.
  exact (hsub.eq_of_length ((List.mergeSort_perm l le).filter p).length_eq.symm).symm

theorem pairwise_mergeSort_of_pairwise (trans : ∀ a b c, le a b → le b c → le a c)
    (total : ∀ a b, le a b || le b a) {before : α → α → Prop} (h : l.Pairwise before) :
    (l.mergeSort le).Pairwise fun a b => le a b ∧ (le b a → before a b) := by
  have hsorted : (l.mergeSort le).Pairwise fun a b => le a b :=
    List.pairwise_mergeSort trans total l
  refine hsorted.and (List.pairwise_iff_forall_sublist.mpr fun {a b} hsub hback => ?_)
  have hforth : le a b := List.pairwise_iff_forall_sublist.mp hsorted hsub
  have hself : le a a := by simpa using total a a
  have hkept := filter_mergeSort (l := l) trans total (p := fun x => le a x && le x a)
    fun x y hx hy => by
      simp only [Bool.and_eq_true] at hx hy
      exact trans x a y hx.2 hy.1
  -- All that are equal to `a` are in their old order, and `b` is one of them.
  have hpair : [a, b].filter (fun x => le a x && le x a) = [a, b] := by
    simp [hself, hforth, hback]
  have hboth := hsub.filter fun x => le a x && le x a
  rw [hpair, hkept] at hboth
  exact List.pairwise_iff_forall_sublist.mp h (hboth.trans List.filter_sublist)

end Sorting

theorem flatMap_ite_nil {α β : Type} (p : α → Prop) [DecidablePred p] (f : α → β) (l : List α) :
    (l.flatMap fun a => if p a then [f a] else []) = (l.filter p).map f := by
  induction l with
  | nil => rfl
  | cons a l ih =>
      rw [List.flatMap_cons, ih, List.filter_cons]
      by_cases h : p a <;> simp [h]

namespace Contact

theorem precedes_iff {x y : Contact} : x.precedes y ↔
    x.isMatched = true ∧ y.isMatched = false ∨
      x.isMatched = y.isMatched ∧ Text.lowercase x.name ≤ Text.lowercase y.name := by
  rw [precedes]
  cases x.isMatched <;> cases y.isMatched <;> simp

theorem precedes_trans (x y z : Contact) (hxy : x.precedes y) (hyz : y.precedes z) :
    x.precedes z := by
  rw [precedes_iff] at *
  rcases hxy with ⟨hx, hy⟩ | ⟨hsame, hle⟩
  · rcases hyz with ⟨hy', -⟩ | ⟨hsame, -⟩
    · cases hy.symm.trans hy'
    · exact .inl ⟨hx, hsame ▸ hy⟩
  · rcases hyz with ⟨hy, hz⟩ | ⟨hsame', hle'⟩
    · exact .inl ⟨hsame ▸ hy, hz⟩
    · exact .inr ⟨hsame.trans hsame', hle.trans hle'⟩

theorem precedes_total (x y : Contact) : x.precedes y || y.precedes x := by
  rw [Bool.or_eq_true, precedes_iff, precedes_iff]
  cases x.isMatched <;> cases y.isMatched <;> simp [le_total]

end Contact

namespace Contacts

variable {phoneBook : List PhoneBookEntry} {seen : List String} {name digits : String}

def spells (digits : String) (entry : PhoneBookEntry) : Bool :=
  Phone.digits? entry.phone = some digits

theorem mem_distinct_iff : (name, digits) ∈ distinct seen phoneBook ↔
    digits ∉ seen ∧ (phoneBook.find? (spells digits)).map PhoneBookEntry.name = some name := by
  induction phoneBook generalizing seen with
  | nil => simp [distinct]
  | cons entry phoneBook ih =>
      rw [distinct, List.find?_cons]
      cases hentry : Phone.digits? entry.phone with
      | none => simp [spells, hentry, ih]
      | some other =>
          by_cases hseen : other ∈ seen
          · by_cases hsame : other = digits
            · subst hsame
              simp [spells, hentry, hseen, ih]
            · simp [spells, hentry, hseen, ih, hsame]
          · by_cases hsame : other = digits
            · subst hsame
              simp [spells, hentry, hseen, ih, eq_comm]
            · simp [spells, hentry, hseen, ih, hsame, Ne.symm hsame]

/-- Numbers come in the order of the first entries that have them. -/
theorem pairwise_distinct : (distinct seen phoneBook).Pairwise fun x y =>
    phoneBook.findIdx (spells x.2) < phoneBook.findIdx (spells y.2) := by
  induction phoneBook generalizing seen with
  | nil => exact .nil
  | cons entry phoneBook ih =>
      have hlater {seen : List String} (h : ∀ x ∈ distinct seen phoneBook, ¬spells x.2 entry) :
          (distinct seen phoneBook).Pairwise fun x y =>
            (entry :: phoneBook).findIdx (spells x.2) <
              (entry :: phoneBook).findIdx (spells y.2) := by
        refine ih.imp_of_mem fun {x y} hx hy hlt => ?_
        simpa [List.findIdx_cons, h x hx, h y hy] using hlt
      rw [distinct]
      cases hentry : Phone.digits? entry.phone with
      | none => exact hlater fun x _ => by simp [spells, hentry]
      | some other =>
          have hother {seen : List String} (h : other ∈ seen) :
              ∀ x ∈ distinct seen phoneBook, ¬spells x.2 entry := by
            rintro x hx hspells
            obtain rfl : other = x.2 := by simpa [spells, hentry] using hspells
            exact not_seen_of_mem_distinct hx h
          by_cases hseen : other ∈ seen
          · simpa [hseen] using hlater (hother hseen)
          · have hrest : ∀ x ∈ distinct (other :: seen) phoneBook, ¬spells x.2 entry :=
              hother List.mem_cons_self
            have hfirst : spells other entry := by simp [spells, hentry]
            simp only [List.contains_eq_mem, hseen, decide_false, Bool.false_eq_true, if_false]
            refine List.pairwise_cons.mpr ⟨fun x hx => ?_, hlater hrest⟩
            simp [List.findIdx_cons, hrest x hx, hfirst]

theorem nodup_distinct : ((distinct seen phoneBook).map Prod.snd).Nodup :=
  List.pairwise_map.mpr (pairwise_distinct.imp fun hlt he => hlt.ne (by rw [he]))

theorem exists_mem_distinct_iff : (∃ x ∈ distinct [] phoneBook, x.2 = digits) ↔
    ∃ entry ∈ phoneBook, Phone.digits? entry.phone = some digits := by
  constructor
  · rintro ⟨⟨name, digits⟩, hx, rfl⟩
    obtain ⟨-, hname⟩ := mem_distinct_iff.mp hx
    obtain ⟨entry, hfind, -⟩ := Option.map_eq_some_iff.mp hname
    have hentry : spells digits entry := List.find?_some hfind
    exact ⟨entry, List.mem_of_find?_eq_some hfind, of_decide_eq_true hentry⟩
  · rintro ⟨entry, hentry, hdigits⟩
    have hsome : (phoneBook.find? (spells digits)).isSome :=
      List.find?_isSome.mpr ⟨entry, hentry, decide_eq_true hdigits⟩
    obtain ⟨first, hfirst⟩ := Option.isSome_iff_exists.mp hsome
    refine ⟨(first.name, digits), mem_distinct_iff.mpr ⟨List.not_mem_nil, ?_⟩, rfl⟩
    rw [hfirst, Option.map_some]

section Searches

variable {ω : Type} {host : Script.Host ω} {u w : ω} {salt identity : String} {x : Contact}
  {stored : Record} {answer : Option Record}

theorem lookups_hint : (hint name digits identity stored).lookups host w = [] := by
  rw [hint]
  split
  · rfl
  · rw [Script.lookups]
    cases host.upsert w { stored with contactHint := some digits } <;> rfl

theorem lookups_keepAnswer : (keepAnswer name digits identity answer).lookups host w = [] := by
  cases answer with
  | none => rfl
  | some r =>
      rw [keepAnswer, Script.lookups]
      cases host.upsert w { r with contactHint := some digits, synced := true } with
      | error fault => rfl
      | ok v =>
          simp only [Script.lookups]
          cases host.trim v <;> rfl

def Backed (x : Contact) : Prop :=
  (x.record.isSome ↔ x.isMatched) ∧ ∀ r ∈ x.record, r.identity = x.identity

theorem hint_returns (h : stored.identity = identity) :
    (hint name digits identity stored).Returns Backed := by
  rw [hint]
  split <;> simpa [Script.Returns, Backed, Contact.isMatched] using h

theorem keepAnswer_returns (h : ∀ r ∈ answer, r.identity = identity) :
    (keepAnswer name digits identity answer).Returns Backed := by
  cases answer with
  | none => simp [keepAnswer, Script.Returns, Backed, Contact.isMatched]
  | some r => simpa [keepAnswer, Script.Returns, Backed, Contact.isMatched] using h

theorem find_cases (h : (find salt name digits).run host w = (.ok x, u)) :
    let identity := Phone.hash salt digits
    (∃ stored, host.get? w identity = .ok (some stored) ∧
      (hint name digits identity stored).run host w = (.ok x, u)) ∨
    host.get? w identity = .ok none ∧
      (keepAnswer name digits identity (host.lookup w identity).1).run host
        (host.lookup w identity).2 = (.ok x, u) := by
  intro identity
  rw [find_eq, Script.run] at h
  cases hread : host.get? w identity with
  | error fault =>
      rw [hread] at h
      cases h
  | ok found =>
      rw [hread] at h
      cases found with
      | some stored => exact .inl ⟨stored, rfl, h⟩
      | none => exact .inr ⟨rfl, h⟩

/-- The directory is asked about a number if nothing is stored under its hash, and not otherwise. -/
theorem lookups_find (h : (find salt name digits).run host w = (.ok x, u)) :
    (find salt name digits).lookups host w =
      if host.get? w (Phone.hash salt digits) = .ok none then [Phone.hash salt digits] else [] := by
  rw [find_eq, Script.lookups]
  rcases find_cases h with ⟨stored, hread, -⟩ | ⟨hread, -⟩
  · simpa [hread] using lookups_hint
  · rw [hread, if_pos rfl]
    exact congrArg (Phone.hash salt digits :: ·) lookups_keepAnswer

/-- A store and a directory that give no record but the one that was asked for lead to no other. -/
theorem backed_of_find (h : (find salt name digits).run host w = (.ok x, u))
    (hstore : ∀ stored, host.get? w (Phone.hash salt digits) = .ok (some stored) →
      stored.identity = Phone.hash salt digits)
    (hdirectory : ∀ r ∈ (host.lookup w (Phone.hash salt digits)).1,
      r.identity = Phone.hash salt digits) : Backed x := by
  rcases find_cases h with ⟨stored, hread, hrun⟩ | ⟨-, hrun⟩
  · exact (hint_returns (hstore stored hread)).of_run hrun
  · exact (keepAnswer_returns hdirectory).of_run hrun

end Searches

end Contacts

namespace Node

open Contacts

variable {σ ω : Type} {n : Node σ} {phoneBook : List PhoneBookEntry} {host : Script.Host ω}
  {w u : ω} {contacts results : List Contact} {numbers : List (String × String)}

def reached (n : Node σ) (host : Script.Host ω) (phoneBook : List PhoneBookEntry) (w : ω)
    (digits : String) : ω :=
  ((n.discover (phoneBook.takeWhile fun entry => !spells digits entry)).run host w).2

def search (n : Node σ) (number : String × String) : Script Contact :=
  find n.config.identitySalt number.1 number.2

theorem fst_mem_of_mem_turns {turn : (String × String) × ω}
    (h : turn ∈ Script.turns host n.search numbers w) : turn.1 ∈ numbers := by
  rw [← Script.map_fst_turns host n.search numbers w]
  exact List.mem_map_of_mem h

theorem reached_of_mem_turns (h : (n.found (distinct [] phoneBook)).run host w = (.ok results, u))
    {turn : (String × String) × ω}
    (hturn : turn ∈ Script.turns host n.search (distinct [] phoneBook) w) :
    turn.2 = n.reached host phoneBook w turn.1.2 := by
  obtain ⟨⟨name, digits⟩, v⟩ := turn
  obtain ⟨-, hname⟩ := mem_distinct_iff.mp (fst_mem_of_mem_turns hturn)
  obtain ⟨entry, hfind, -⟩ := Option.map_eq_some_iff.mp hname
  obtain ⟨hentry, before, rest, rfl, hbefore⟩ := List.find?_eq_some_iff_append.mp hfind
  have hfirst : ∀ e ∈ before, Phone.digits? e.phone ≠ some digits := fun e he => by
    simpa [spells] using hbefore e he
  obtain ⟨later, hdistinct, hearlier, hlater⟩ :=
    distinct_append_cons entry rest hfirst List.not_mem_nil (of_decide_eq_true hentry)
  rw [hdistinct] at h hturn
  obtain ⟨front, back, v', -, hfront, -⟩ := Script.run_mapM_append_eq_ok h
  have hprefix : (before ++ entry :: rest).takeWhile (fun e => !spells digits e) = before := by
    rw [List.takeWhile_append_of_pos hbefore, List.takeWhile_cons_of_neg (by simp [hentry]),
      List.append_nil]
  rw [reached, hprefix, discover_run_eq_ok.mpr ⟨front, hfront, rfl⟩]
  have hturns := Script.turns_append (f := n.search) hfront ((entry.name, digits) :: later)
  rw [hturns, List.mem_append, Script.turns, List.mem_cons] at hturn
  -- No turn is about the number but that of the first entry that has it.
  rcases hturn with hturn | hturn | hturn
  · exact (hearlier _ (fst_mem_of_mem_turns hturn) rfl).elim
  · exact congrArg Prod.snd hturn
  · exact (hlater _ (fst_mem_of_mem_turns hturn) rfl).elim

theorem map_of_found (h : (n.found numbers).run host w = (.ok results, u)) :
    results.map (fun x => (x.name, x.digits)) = numbers := by
  induction numbers generalizing w results with
  | nil =>
      cases h
      rfl
  | cons number numbers ih =>
      obtain ⟨x, rest, v, rfl, hfirst, hrest⟩ := Script.run_mapM_cons_eq_ok h
      obtain ⟨hname, hdigits, -⟩ := (find_returns _ _ _).of_run hfirst
      rw [List.map_cons, ih hrest, hname, hdigits]

def absent (n : Node σ) (host : Script.Host ω) (numbers : List (String × String)) (w : ω) :
    List String :=
  ((Script.turns host n.search numbers w).filter fun turn =>
    host.get? turn.2 (Phone.hash n.config.identitySalt turn.1.2) = .ok none).map (·.1.2)

theorem absent_sublist (n : Node σ) (host : Script.Host ω) (numbers : List (String × String))
    (w : ω) : (n.absent host numbers w).Sublist (numbers.map Prod.snd) := by
  have hnumbers : (Script.turns host n.search numbers w).map (fun turn => turn.1.2) =
      numbers.map Prod.snd := by
    have hfst := congrArg (List.map Prod.snd) (Script.map_fst_turns host n.search numbers w)
    rwa [List.map_map] at hfst
  exact hnumbers ▸ List.filter_sublist.map _

theorem mem_absent_iff (h : (n.found (distinct [] phoneBook)).run host w = (.ok results, u))
    (digits : String) : digits ∈ n.absent host (distinct [] phoneBook) w ↔
      (∃ entry ∈ phoneBook, Phone.digits? entry.phone = some digits) ∧
        host.get? (n.reached host phoneBook w digits) (Phone.hash n.config.identitySalt digits) =
          .ok none := by
  constructor
  · intro hdigits
    obtain ⟨turn, hturn, rfl⟩ := List.mem_map.mp hdigits
    obtain ⟨hturn, habsent⟩ := List.mem_filter.mp hturn
    refine ⟨exists_mem_distinct_iff.mp ⟨turn.1, fst_mem_of_mem_turns hturn, rfl⟩, ?_⟩
    rw [← reached_of_mem_turns h hturn]
    exact of_decide_eq_true habsent
  · rintro ⟨hlisted, habsent⟩
    obtain ⟨number, hnumber, rfl⟩ := exists_mem_distinct_iff.mpr hlisted
    rw [← Script.map_fst_turns host n.search (distinct [] phoneBook) w] at hnumber
    obtain ⟨turn, hturn, rfl⟩ := List.mem_map.mp hnumber
    rw [← reached_of_mem_turns h hturn] at habsent
    exact List.mem_map.mpr ⟨turn, List.mem_filter.mpr ⟨hturn, decide_eq_true habsent⟩, rfl⟩

theorem lookups_found (h : (n.found numbers).run host w = (.ok results, u)) :
    (n.found numbers).lookups host w =
      (n.absent host numbers w).map (Phone.hash n.config.identitySalt) := by
  have hlookups : (n.found numbers).lookups host w =
      (Script.turns host n.search numbers w).flatMap fun turn =>
        (n.search turn.1).lookups host turn.2 := Script.lookups_mapM h
  rw [hlookups, absent, List.map_map]
  refine (List.flatMap_congr fun turn hturn => ?_).trans (flatMap_ite_nil _ _ _)
  obtain ⟨x, -, hx⟩ := Script.exists_of_mem_turns h hturn
  exact lookups_find (Script.run_eq_of_fst hx)

theorem lookups_discover (h : (n.discover phoneBook).run host w = (.ok contacts, u)) :
    ∃ asked : List String, asked.Nodup ∧
      (n.discover phoneBook).lookups host w = asked.map (Phone.hash n.config.identitySalt) ∧
      ∀ digits, digits ∈ asked ↔
        (∃ entry ∈ phoneBook, Phone.digits? entry.phone = some digits) ∧
          host.get? (n.reached host phoneBook w digits) (Phone.hash n.config.identitySalt digits) =
            .ok none := by
  obtain ⟨results, hresults, rfl⟩ := discover_run_eq_ok.mp h
  have hdone : (n.discover phoneBook).lookups host w =
      (n.found (distinct [] phoneBook)).lookups host w ++ [] := Script.lookups_bind hresults
  rw [List.append_nil, lookups_found hresults] at hdone
  exact ⟨_, nodup_distinct.sublist (n.absent_sublist host _ w), hdone, mem_absent_iff hresults⟩

end Node

namespace Contacts

variable {phoneBook : List PhoneBookEntry} {x y : Contact}

/-- Whether a contact stands before another one: the matched ones before the others, and in each
group by the name in lowercase, then as in the phone book. -/
def StandsBefore (phoneBook : List PhoneBookEntry) (x y : Contact) : Prop :=
  x.isMatched = true ∧ y.isMatched = false ∨ x.isMatched = y.isMatched ∧
    (Text.lowercase x.name < Text.lowercase y.name ∨
      Text.lowercase x.name = Text.lowercase y.name ∧
        phoneBook.findIdx (spells x.digits) < phoneBook.findIdx (spells y.digits))

theorem standsBefore_of_precedes (h : x.precedes y) (htie : y.precedes x →
    phoneBook.findIdx (spells x.digits) < phoneBook.findIdx (spells y.digits)) :
    StandsBefore phoneBook x y := by
  rcases Contact.precedes_iff.mp h with hgroups | ⟨hsame, hle⟩
  · exact .inl hgroups
  · rcases hle.lt_or_eq with hlt | heq
    · exact .inr ⟨hsame, .inl hlt⟩
    · exact .inr ⟨hsame, .inr ⟨heq, htie (Contact.precedes_iff.mpr (.inr ⟨hsame.symm, heq.ge⟩))⟩⟩

/-- The contacts of a phone book: one for each number, under the name of the first entry that has
it, with a record if it is matched. -/
structure AreOf (salt : String) (phoneBook : List PhoneBookEntry) (contacts : List Contact) :
    Prop where
  once : (contacts.map Contact.digits).Nodup
  listed (digits : String) : (∃ x ∈ contacts, x.digits = digits) ↔
    ∃ entry ∈ phoneBook, Phone.digits? entry.phone = some digits
  named : ∀ x ∈ contacts, ∃ entry, phoneBook.find? (spells x.digits) = some entry ∧
    x.name = entry.name
  hashed : ∀ x ∈ contacts, x.identity = Phone.hash salt x.digits
  backed : ∀ x ∈ contacts, Backed x
  ordered : contacts.Pairwise (StandsBefore phoneBook)

end Contacts

namespace Node

open Contacts

variable {σ ω : Type} {n : Node σ} {phoneBook : List PhoneBookEntry} {host : Script.Host ω}
  {w u : ω} {contacts : List Contact}

theorem areOf_of_discover (h : (n.discover phoneBook).run host w = (.ok contacts, u))
    (hbacked : ∀ x ∈ contacts, Backed x) : AreOf n.config.identitySalt phoneBook contacts := by
  obtain ⟨results, hresults, rfl⟩ := discover_run_eq_ok.mp h
  have hnumbers := map_of_found hresults
  have hmem : ∀ x ∈ results.mergeSort Contact.precedes,
      (x.name, x.digits) ∈ distinct [] phoneBook := fun x hx =>
    hnumbers ▸ List.mem_map_of_mem (List.mem_mergeSort.mp hx)
  have hdigits : results.map Contact.digits = (distinct [] phoneBook).map Prod.snd := by
    rw [← hnumbers, List.map_map]
    rfl
  refine ⟨?_, fun digits => ?_, fun x hx => ?_, fun x hx => ?_, hbacked, ?_⟩
  · have hperm := (List.mergeSort_perm results Contact.precedes).map Contact.digits
    rw [hperm.nodup_iff, hdigits]
    exact nodup_distinct
  · rw [← exists_mem_distinct_iff, ← hnumbers]
    simp [List.mem_mergeSort]
  · obtain ⟨-, hname⟩ := mem_distinct_iff.mp (hmem x hx)
    obtain ⟨entry, hfind, heq⟩ := Option.map_eq_some_iff.mp hname
    exact ⟨entry, hfind, heq.symm⟩
  · obtain ⟨number, -, v, v', hrun⟩ :=
      Script.exists_run_of_mem_mapM hresults x (List.mem_mergeSort.mp hx)
    obtain ⟨-, hdigits, hidentity⟩ := (find_returns _ _ _).of_run hrun
    rw [hidentity, hdigits]
  · have hplaces : results.Pairwise fun x y =>
        phoneBook.findIdx (spells x.digits) < phoneBook.findIdx (spells y.digits) := by
      have hpairwise : (distinct [] phoneBook).Pairwise _ := pairwise_distinct
      rwa [← hnumbers, List.pairwise_map] at hpairwise
    exact (pairwise_mergeSort_of_pairwise Contact.precedes_trans Contact.precedes_total
      hplaces).imp fun ⟨hle, htie⟩ => standsBefore_of_precedes hle htie

end Node

namespace Directory

variable {β : Type}

def afterLookups [DirectoryBackend β] (backend : β) (identities : List String) : β :=
  identities.foldl (fun backend identity => (DirectoryBackend.lookup backend identity).2) backend

theorem backend_within [Timer] {α : Type} (timeout : Nat) (reply : Reply α × β) :
    (within timeout reply).backend = reply.2 := by
  dsimp only [within]
  split <;> rfl

end Directory

namespace Cluster

open StoreKind RefusingStore

section Telling

variable {σ β : Type} [RefusingStore σ] [DirectoryBackend β] [Timer] {i : Nat} {c : Cluster σ β}
  {n m : Node σ} {draws : Nat → Draws} {C : Cache} {phoneBook : List PhoneBookEntry}
  {contacts : List Contact}

theorem shown_of_run {α : Type} (hm : c.nodes[i]? = some m) (hC : shows m.store C)
    (p : Script α) : ∃ o D, (p.run (host i n draws) c).2.nodes[i]? = some o ∧ shows o.store D := by
  obtain ⟨o, ho, hcalls⟩ := becomes_script n draws p c m hm
  obtain ⟨done, -, hshown⟩ := exists_after hC (callsOfScript i n draws p c)
  exact ⟨o, _, ho, hcalls.store ▸ hshown⟩

theorem backed_of_discover (hn : c.nodes[i]? = some n) (hC : shows n.store C)
    (h : ((n.discover phoneBook).run (host i n draws) c).1 = .ok contacts) :
    ∀ x ∈ contacts, Contacts.Backed x := by
  obtain ⟨results, hresults, rfl⟩ := Node.discover_run_eq_ok.mp (Script.run_eq_of_fst h)
  intro x hx
  obtain ⟨turn, hturn, hrun⟩ := Script.exists_turn_of_mem hresults (List.mem_mergeSort.mp hx)
  obtain ⟨o, D, ho, hD⟩ := shown_of_run hn hC
    (n.discover (phoneBook.takeWhile fun entry => !Contacts.spells turn.1.2 entry))
  rw [← Node.reached, ← Node.reached_of_mem_turns hresults hturn] at ho
  refine Contacts.backed_of_find (Script.run_eq_of_fst hrun) (fun stored hstored => ?_) ?_
  · rw [host_get?_eq ho] at hstored
    exact Cache.find?_identity stored (get?_eq hD hstored).symm
  · exact Directory.identity_of_lookup (timeoutOf n) turn.2.directory _

/-- Whatever a script does that publishes nothing, it leaves the directory as its lookups do. -/
theorem directory_of_run {α : Type} {p : Script α} (hp : p.Publishes fun _ => False)
    (c : Cluster σ β) : (p.run (host i n draws) c).2.directory =
      Directory.afterLookups c.directory (p.lookups (host i n draws) c) := by
  induction p generalizing c with
  | done a => rfl
  | get identity next ih =>
      rw [Script.run, Script.lookups]
      cases (host i n draws).get? c identity with
      | error fault => rfl
      | ok found => exact ih found (hp found) c
  | upsert r next ih =>
      rw [Script.run, Script.lookups, host]
      dsimp only
      cases RecordStore.upsert (c.nodes[i]?.getD n).store r with
      | error fault => rfl
      | ok t => exact ih () hp _
  | trim next ih =>
      rw [Script.run, Script.lookups, host]
      dsimp only
      cases RecordStore.trim (c.nodes[i]?.getD n).store with
      | error fault => rfl
      | ok result => exact ih result.1 (hp result.1) _
  | lookup identity next ih =>
      have hlookup : ((host i n draws).lookup c identity).2.directory =
          (DirectoryBackend.lookup c.directory identity).2 :=
        (directory_advance _ _ draws).trans (Directory.backend_within _ _)
      exact (ih _ (hp _) _).trans (congrArg (Directory.afterLookups · _) hlookup)
  | publish identity r next ih => exact hp.1.elim

/-- The numbers about which the directory is asked while the node at `i` goes through a phone book:
once about each under whose hash the node has nothing stored when it reaches the entry. -/
structure Asks (i : Nat) (n : Node σ) (draws : Nat → Draws) (phoneBook : List PhoneBookEntry)
    (c : Cluster σ β) (asked : List String) : Prop where
  once : asked.Nodup
  lookups : (n.discover phoneBook).lookups (host i n draws) c =
    asked.map (Phone.hash n.config.identitySalt)
  directory : ((n.discover phoneBook).run (host i n draws) c).2.directory =
    Directory.afterLookups c.directory (asked.map (Phone.hash n.config.identitySalt))
  mem_iff (digits : String) : digits ∈ asked ↔
    (∃ entry ∈ phoneBook, Phone.digits? entry.phone = some digits) ∧
      (host i n draws).get? (n.reached (host i n draws) phoneBook c digits)
        (Phone.hash n.config.identitySalt digits) = .ok none

/-- What discovery tells, and what it asks the directory for. -/
theorem contacts_of_discover (hn : c.nodes[i]? = some n) (hC : shows n.store C)
    (h : ((n.discover phoneBook).run (host i n draws) c).1 = .ok contacts) :
    Contacts.AreOf n.config.identitySalt phoneBook contacts ∧
      ∃ asked, c.Asks i n draws phoneBook asked := by
  have hrun := Script.run_eq_of_fst h
  obtain ⟨asked, honce, hlookups, hasked⟩ := Node.lookups_discover hrun
  have hdirectory : ((n.discover phoneBook).run (host i n draws) c).2.directory =
      Directory.afterLookups c.directory ((n.discover phoneBook).lookups (host i n draws) c) :=
    directory_of_run (n.discover_publishes _ phoneBook) c
  rw [hlookups] at hdirectory
  exact ⟨Node.areOf_of_discover hrun (backed_of_discover hn hC h),
    asked, honce, hlookups, hdirectory, hasked⟩

end Telling

attribute [local instance] Timer.seconds63

/-- One of three numbers is stored, and nobody knows the others. -/
theorem contacts_of_discover_unlisted :
    let stored : Record :=
      { identity := Phone.hash Phone.defaultSalt "1", publicKey := "k", lastSeen := 3 }
    let n : Node DurableStore := .start {} "key" (after (.empty 10) [.upsert stored])
    let c : Cluster DurableStore (AnyDirectory DurableStore) :=
      { nodes := [n], directory := .gossipOnly, today := 5 }
    let phoneBook : List PhoneBookEntry :=
      [⟨"Nobody", "-"⟩, ⟨"ann", "2"⟩, ⟨"Ann", "(3)"⟩, ⟨"Bob", "1"⟩, ⟨"Aaron", "+3"⟩]
    ∃ contacts, ((n.discover phoneBook).run (host 0 n fun _ => {}) c).1 = .ok contacts ∧
      (contacts.map fun x => (x.name, x.status)).Perm
        [("ann", .notFound), ("Ann", .notFound), ("Bob", .known)] ∧
      Contacts.AreOf Phone.defaultSalt phoneBook contacts ∧
        ∃ asked, c.Asks 0 n (fun _ => {}) phoneBook asked := by
  intro stored n c phoneBook
  have hshown (calls : List Call) :
      CacheLike.shows (Node.start {} "key" (after (DurableStore.empty 10) calls)).store
        (after (Cache.empty 10) calls) :=
    CacheLike.shows_after 10 calls
  have hn : c.nodes[0]? = some n := rfl
  have hC : CacheLike.shows n.store _ := hshown [.upsert stored]
  have hfound : ((n.found (Contacts.distinct [] phoneBook)).run (host 0 n fun _ => {}) c).1.map
      (List.map fun x => (x.name, x.status)) =
        .ok [("ann", .notFound), ("Ann", .notFound), ("Bob", .known)] := by decide +kernel
  obtain ⟨contacts, d, hrun⟩ : ∃ contacts d,
      (n.discover phoneBook).run (host 0 n fun _ => {}) c = (.ok contacts, d) :=
    exists_run_ok_of_named (n.discover_named phoneBook none) hn hC
  obtain ⟨results, hresults, hsorted⟩ := Node.discover_run_eq_ok.mp hrun
  rw [hresults] at hfound
  have hperm : contacts.Perm results := hsorted ▸ List.mergeSort_perm results Contact.precedes
  refine ⟨contacts, congrArg Prod.fst hrun, ?_, ?_⟩
  · exact Except.ok.inj hfound ▸ hperm.map _
  · exact contacts_of_discover hn hC (congrArg Prod.fst hrun)

end Cluster

end PeerBook
