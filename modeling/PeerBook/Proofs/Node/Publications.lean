import PeerBook.Proofs.Node.Requests

namespace PeerBook

open StoreKind

namespace SharedDirectory

def published (directory : SharedDirectory) (later : List (String × Record)) : SharedDirectory :=
  later.foldl (fun directory p => directory.insert p.1 p.2) directory

variable {directory : SharedDirectory} {identity : String} {later : List (String × Record)}

theorem entries_insert (directory : SharedDirectory) (identity other : String) (r : Record) :
    (directory.insert identity r).entries[other]? =
      if identity = other then some { r with contactHint := none } else directory.entries[other]? := by
  by_cases h : identity = other
  · simp [insert, h]
  · simp [insert, Std.TreeMap.getElem?_insert, h]

theorem published_append (directory : SharedDirectory) (later more : List (String × Record)) :
    directory.published (later ++ more) = (directory.published later).published more :=
  List.foldl_append

theorem entries_published (h : ∀ p ∈ later, p.1 ≠ identity) :
    (directory.published later).entries[identity]? = directory.entries[identity]? := by
  induction later generalizing directory with
  | nil => rfl
  | cons p later ih =>
      obtain ⟨hne, hlater⟩ := List.forall_mem_cons.mp h
      exact (ih hlater).trans ((directory.entries_insert p.1 identity p.2).trans (if_neg hne))

end SharedDirectory

namespace Script

variable {α β : Type} {under : String → Prop}

def Publishes (under : String → Prop) : Script α → Prop
  | done _ => True
  | get _ next | lookup _ next => ∀ found, Publishes under (next found)
  | upsert _ next => Publishes under (next ())
  | trim next => ∀ evicted, Publishes under (next evicted)
  | publish identity _ next => under identity ∧ ∀ accepted, Publishes under (next accepted)

theorem Publishes.bind {p : Script α} {f : α → Script β} (hp : p.Publishes under)
    (hf : ∀ a, (f a).Publishes under) : (p.bind f).Publishes under := by
  induction p with
  | done a => exact hf a
  | get identity next ih | lookup identity next ih => exact fun found => ih found (hp found)
  | upsert r next ih => exact ih () hp
  | trim next ih => exact fun evicted => ih evicted (hp evicted)
  | publish identity r next ih => exact ⟨hp.1, fun accepted => ih accepted (hp.2 accepted)⟩

theorem Publishes.mapM {f : α → Script β} (hf : ∀ a, (f a).Publishes under) (as : List α) :
    (as.mapM f).Publishes under := by
  induction as with
  | nil => trivial
  | cons a as ih =>
      rw [List.mapM_cons]
      exact (hf a).bind fun b => ih.bind fun bs => trivial

end Script

theorem Directory.within_of_instant [Timer] {α β : Type} (timeout : Nat) (result : Except Fault α)
    (backend : β) : within timeout (⟨0, result⟩, backend) = ⟨result, 0, backend⟩ := by
  simp only [within, Nat.zero_le, if_true]

theorem Contacts.find_publishes (under : String → Prop) (salt name digits : String) :
    (find salt name digits).Publishes under := by
  intro found
  cases found with
  | none =>
      intro answer
      cases answer with
      | none => trivial
      | some r => exact fun _ => trivial
  | some stored =>
      change (hint name digits (Phone.hash salt digits) stored).Publishes under
      rw [hint]
      split <;> trivial

namespace Node

variable {σ : Type}

theorem discover_publishes (n : Node σ) (under : String → Prop)
    (phoneBook : List PhoneBookEntry) : (n.discover phoneBook).Publishes under := by
  have hfind (number : String × String) :
      (Contacts.find n.config.identitySalt number.1 number.2).Publishes under :=
    Contacts.find_publishes under n.config.identitySalt number.1 number.2
  exact (Script.Publishes.mapM hfind (Contacts.distinct [] phoneBook)).bind fun _ => trivial

theorem publishSelf_some_eq [RecordStore σ] (n : Node σ) (phone address : String) (port : UInt16)
    (today : Timestamp) :
    let own := n.ownRecord address port today
    let identity := n.config.phoneHash phone
    n.publishSelf (some phone) address port today =
      .upsert own fun _ => .publish n.identity own fun accepted =>
        .publish identity { own with identity } fun acceptedByPhone =>
          .done (accepted && acceptedByPhone) :=
  rfl

end Node

namespace Errand

variable {σ : Type}

def publishedUnder (errand : Errand) (n : Node σ) : List String :=
  match errand with
  | publish phone _ _ => n.identity :: (phone.map n.config.phoneHash).toList
  | resolve _ | contact _ | discover _ => []

theorem script_publishes [RecordStore σ] (errand : Errand) (n : Node σ) (today : Timestamp) :
    (errand.script n today).Publishes (· ∈ errand.publishedUnder n) := by
  cases errand with
  | publish phone address port =>
      cases phone with
      | none => exact ⟨List.mem_cons_self, fun _ => trivial⟩
      | some phone =>
          exact ⟨List.mem_cons_self, fun _ =>
            ⟨List.mem_cons_of_mem _ (List.mem_singleton_self _), fun _ => trivial⟩⟩
  | resolve identity =>
      intro found
      cases found with
      | some r => trivial
      | none =>
          intro answer
          cases answer with
          | none => trivial
          | some r => exact fun _ => trivial
  | contact r => exact fun _ => trivial
  | discover phoneBook => exact (n.discover_publishes _ phoneBook).bind fun _ => trivial

end Errand

namespace Cluster

section Requests

variable {σ α : Type} [RecordStore σ] [Timer] {i : Nat} {c d : Cluster σ SharedDirectory}
  {n : Node σ} {draws : Nat → Draws} {phone address : String} {port : UInt16} {today : Timestamp}
  {accepted : Bool}

theorem host_lookup_shared (c : Cluster σ SharedDirectory) (identity : String) :
    (host i n draws).lookup c identity =
      (c.directory.entries[identity]?.bind (Directory.accept? identity), c) := by
  have hanswer : Directory.lookup (timeoutOf n) c.directory identity =
      ⟨c.directory.entries[identity]?.bind (Directory.accept? identity), 0, c.directory⟩ := by
    simp only [Directory.lookup, DirectoryBackend.lookup, Directory.within_of_instant]
    cases c.directory.entries[identity]? <;> rfl
  change c.await draws (Directory.lookup (timeoutOf n) c.directory identity) = _
  rw [hanswer]
  rfl

theorem host_publish_shared (c : Cluster σ SharedDirectory) (identity : String) (r : Record) :
    (host i n draws).publish c identity r =
      if r.identity ≠ identity then (false, c)
      else (true, { c with directory := c.directory.insert identity r }) := by
  change c.await draws (Directory.publish (timeoutOf n) c.directory identity r) = _
  rw [Directory.publish]
  split
  · rfl
  · simp only [DirectoryBackend.publish, Directory.within_of_instant]
    rfl

/-- A shared directory changes by what is published, and by nothing else that a script does. -/
theorem published_of_run (i : Nat) (n : Node σ) (draws : Nat → Draws) {under : String → Prop}
    {p : Script α} (hp : p.Publishes under) (c : Cluster σ SharedDirectory) :
    ∃ later, (∀ q ∈ later, under q.1) ∧
      (p.run (host i n draws) c).2.directory = c.directory.published later := by
  induction p generalizing c with
  | done a => exact ⟨[], nofun, rfl⟩
  | get identity next ih =>
      rw [Script.run]
      cases (host i n draws).get? c identity with
      | error fault => exact ⟨[], nofun, rfl⟩
      | ok found => exact ih found (hp found) c
  | upsert r next ih =>
      rw [Script.run, host]
      dsimp only
      cases RecordStore.upsert (c.nodes[i]?.getD n).store r with
      | error fault => exact ⟨[], nofun, rfl⟩
      | ok t => exact ih () hp _
  | trim next ih =>
      rw [Script.run, host]
      dsimp only
      cases RecordStore.trim (c.nodes[i]?.getD n).store with
      | error fault => exact ⟨[], nofun, rfl⟩
      | ok result => exact ih result.1 (hp result.1) _
  | lookup identity next ih =>
      rw [Script.run, host_lookup_shared]
      exact ih _ (hp _) c
  | publish identity r next ih =>
      rw [Script.run, host_publish_shared]
      by_cases hother : r.identity ≠ identity
      · rw [if_pos hother]
        exact ih false (hp.2 false) c
      · rw [if_neg hother]
        obtain ⟨later, hlater, hdirectory⟩ :=
          ih true (hp.2 true) { c with directory := c.directory.insert identity r }
        exact ⟨(identity, r) :: later, List.forall_mem_cons.mpr ⟨hp.1, hlater⟩, hdirectory⟩

/-- A node that has published itself can be found under the hash of its number. -/
theorem entry_of_publishSelf
    (h : (n.publishSelf (some phone) address port today).run (host i n draws) c =
      (.ok accepted, d)) :
    d.directory.entries[n.config.phoneHash phone]? =
      some { n.ownRecord address port today with identity := n.config.phoneHash phone } := by
  rw [Node.publishSelf_some_eq, Script.run] at h
  cases hwrite : (host i n draws).upsert c (n.ownRecord address port today) with
  | error fault =>
      rw [hwrite] at h
      cases h
  | ok e =>
      have hown : (n.ownRecord address port today).identity = n.identity := rfl
      simp only [hwrite, Script.run, host_publish_shared, hown, ne_eq, not_true_eq_false,
        if_false] at h
      cases h
      exact (SharedDirectory.entries_insert _ _ _ _).trans (if_pos rfl)

end Requests

section Deeds

variable {σ : Type} [StoreKind σ] {draws : Nat → Draws} {identity : String}

def publishedUnder (c : Cluster σ SharedDirectory) (i : Nat) (deed : Deed) : List String :=
  match c.nodes[i]? with
  | none => []
  | some n =>
    match deed with
    | .errand errand => errand.publishedUnder n
    | .receive .. | .round _ | .sweep | .wait _ | .setToday _ => []

theorem directory_advance {β : Type} (c : Cluster σ β) (milliseconds : Nat)
    (draws : Nat → Draws) : (c.advance milliseconds draws).directory = c.directory := by
  rw [advance]
  split <;> rfl

variable [Timer]

theorem published_of_act (i : Nat) (draws : Nat → Draws) (c : Cluster σ SharedDirectory)
    (deed : Deed) :
    ∃ later, (∀ q ∈ later, q.1 ∈ c.publishedUnder i deed) ∧
      (act i draws c deed).directory = c.directory.published later := by
  rw [act, publishedUnder]
  cases c.nodes[i]? with
  | none => exact ⟨[], List.forall_mem_nil _, rfl⟩
  | some n =>
      cases deed with
      | errand errand => exact published_of_run i n draws (errand.script_publishes n c.today) c
      | receive | round | sweep | setToday => exact ⟨[], List.forall_mem_nil _, rfl⟩
      | wait milliseconds => exact ⟨[], List.forall_mem_nil _, c.directory_advance milliseconds draws⟩

def LeavesAlone (identity : String) (draws : Nat → Draws) :
    Cluster σ SharedDirectory → List (Nat × Deed) → Prop
  | _, [] => True
  | c, (i, deed) :: deeds =>
    identity ∉ c.publishedUnder i deed ∧ LeavesAlone identity draws (act i draws c deed) deeds

theorem published_of_acts {c : Cluster σ SharedDirectory} {deeds : List (Nat × Deed)}
    (h : c.LeavesAlone identity draws deeds) :
    ∃ later, (∀ q ∈ later, q.1 ≠ identity) ∧
      (deeds.foldl (fun c p => act p.1 draws c p.2) c).directory =
        c.directory.published later := by
  induction deeds generalizing c with
  | nil => exact ⟨[], nofun, rfl⟩
  | cons p deeds ih =>
      obtain ⟨i, deed⟩ := p
      obtain ⟨first, hfirst, hact⟩ := published_of_act i draws c deed
      obtain ⟨more, hmore, hacts⟩ := ih h.2
      refine ⟨first ++ more, fun q hq => ?_, ?_⟩
      · rcases List.mem_append.mp hq with hq | hq
        · exact fun he => h.1 (he ▸ hfirst q hq)
        · exact hmore q hq
      · rw [SharedDirectory.published_append, ← hact]
        exact hacts

end Deeds

end Cluster

end PeerBook
