import PeerBook.Proofs.Gossip.Reception
import PeerBook.Proofs.Node.Interleaving
import PeerBook.Proofs.Store.Pinning

namespace PeerBook

def Call.applied? : Call → Except Fault Answer → Option Record
  | merge u, .ok (.merged ⟨.applied, _⟩) => some u
  | _, _ => none

def Call.IsForeign (call : Call) : Prop :=
  ∀ r, call ≠ .upsert r

namespace StoreKind

variable {σ τ : Type} [StoreKind σ] [StoreKind τ]

def applied (s : σ) : List Call → List Record
  | [] => []
  | call :: calls => (call.applied? (perform s call).1).toList ++ applied (perform s call).2 calls

def Keeps (s : σ) (u : Record) : Prop :=
  ∃ stored, RecordStore.get? s u.identity = .ok (some stored) ∧ u.lastSeen ≤ stored.lastSeen ∧
    (u.publicKey ≠ "" → stored.publicKey = u.publicKey)

theorem Lockstep.applied_eq {rel : σ → τ → Prop} (L : Lockstep rel) {s : σ} {t : τ} (h : rel s t)
    (calls : List Call) : applied s calls = applied t calls := by
  induction calls generalizing s t with
  | nil => rfl
  | cons call calls ih =>
      rw [applied, applied, (L.perform h call).1, ih (L.perform h call).2]

end StoreKind

namespace Cache

open StoreKind

variable {C : Cache} {identity : String}

theorem find?_perform_of_not_applied {call : Call} (hforeign : call.IsForeign)
    (h : ∀ u ∈ call.applied? (perform C call).1, u.identity ≠ identity) :
    (perform C call).2.find? identity = C.find? identity ∨
      (perform C call).2.find? identity = none := by
  rcases perform_cases C call with ⟨r, -, hr, hnamed, -⟩ | hsubset
  · cases call with
    | upsert r => exact (hforeign r rfl).elim
    | merge r =>
        cases hr
        rw [perform_merge hnamed] at h ⊢
        by_cases he : r.identity = identity
        · cases hresolved : resolveMerge (C.find? r.identity) r with
          | reject => exact .inl rfl
          | insert | replace =>
              exact (h r (by simp [Call.applied?, hresolved, Resolution.outcome]) he).elim
        · exact .inl (find?_merge_of_ne he)
    | _ => cases hr
  · exact find?_eq_or_none_of_subset hsubset identity

theorem find?_after_of_not_applied {calls : List Call} (hforeign : ∀ call ∈ calls, call.IsForeign)
    (h : ∀ u ∈ applied C calls, u.identity ≠ identity) :
    (after C calls).find? identity = C.find? identity ∨
      (after C calls).find? identity = none := by
  induction calls generalizing C with
  | nil => exact .inl rfl
  | cons call calls ih =>
      obtain ⟨hcall, hcalls⟩ := List.forall_mem_cons.mp hforeign
      obtain ⟨hfirst, hrest⟩ := List.forall_mem_append.mp h
      rw [after_cons]
      rcases ih hcalls hrest with hkept | hlost
      · rw [hkept]
        exact find?_perform_of_not_applied hcall fun u hu => hfirst u (Option.mem_toList.mpr hu)
      · exact .inr hlost

end Cache

namespace Script

open StoreKind CacheLike

variable {α σ : Type} [CacheLike σ]

/-- What is known when a script writes a record that it does not know at first hand, into the store
`m.store`, which becomes `t`. -/
structure Overwrites (listed : String → String → Prop) (m : Moment σ α) (r : Record) (t : σ)
    (w : Window σ) : Prop where
  window : m.window = some w
  found : RecordStore.get? w.start r.identity = .ok w.found
  succeeds : r.Succeeds listed w.found
  calls : m.store = after w.start w.calls
  /-- The record is stored as it is, whatever was merged. -/
  stored : RecordStore.get? t r.identity = .ok (some r)
  keeps_iff : ∀ u ∈ applied w.start w.calls, u.identity = r.identity →
    (Keeps t u ↔ u.lastSeen ≤ r.lastSeen ∧ (u.publicKey ≠ "" → r.publicKey = u.publicKey))
  /-- If nothing was merged, the write takes the place of nothing or of what was read. -/
  undisturbed : (∀ u ∈ applied w.start w.calls, u.identity ≠ r.identity) →
    RecordStore.get? m.store r.identity = .ok w.found ∨
      RecordStore.get? m.store r.identity = .ok none

theorem overwrites_of_guarded {listed : String → String → Prop} {p : Script α}
    (hp : p.Guarded (fun _ => False) listed none) {s t : σ} {C : Cache} (hs : shows s C)
    {m : Moment σ α} (hm : Reaches Call.IsForeign ⟨p, s, none⟩ m) {r : Record}
    {next : Unit → Script α} (hscript : m.script = .upsert r next)
    (hwrite : RecordStore.upsert m.store r = .ok t) : ∃ w, Overwrites listed m r t w := by
  have hsound := (Moment.Sound.start hp hs).reaches hm
  obtain ⟨D, hD⟩ := hsound.shown
  have hguarded := hsound.guarded
  rw [hscript] at hguarded
  obtain ⟨found, hseen, hsucceeds⟩ := hguarded.1.resolve_left id
  obtain ⟨w, hw, hwseen⟩ := Option.map_eq_some_iff.mp hseen
  obtain ⟨hidentity, rfl⟩ := Prod.mk.inj hwseen
  obtain ⟨⟨E, hE, hfound⟩, hcalls, hforeign⟩ := hsound.opened w hw
  have hstored := get?_of_upsert hD hwrite
  rw [hidentity] at hfound
  refine ⟨w, {
    window := hw
    found := (lockstep.get? hE r.identity).trans (congrArg Except.ok hfound)
    succeeds := hsucceeds
    calls := hcalls
    stored := hstored
    keeps_iff := fun u _ hu => ?_
    undisturbed := fun h => ?_ }⟩
  · rw [Keeps, hu, hstored]
    simp
  · have hshows := lockstep.after hE w.calls
    rw [← hcalls] at hshows
    rw [lockstep.get? hshows, ← hfound]
    rw [lockstep.applied_eq hE] at h
    exact (Cache.find?_after_of_not_applied hforeign h).imp (congrArg _) (congrArg _)

end Script

def Call.IsGossip (call : Call) : Prop :=
  call = .trim ∨ ∃ r, call = .merge r

theorem Gossiper.isGossip_of_mem_batchCalls {identity : String} {records : List Record} :
    ∀ call ∈ batchCalls identity records, call.IsGossip := by
  intro call hcall
  rcases mem_batchCalls.mp hcall with ⟨r, -, -, rfl⟩ | rfl
  · exact .inr ⟨r, rfl⟩
  · exact .inl rfl

namespace Node

open StoreKind CacheLike Script

/-- Every write of a script from any store on takes the place of what the script has read, whatever
others have merged since, and stores its record as it is: one where nothing was found, or the one
that was found with digits that are listed for it. -/
def OverwritesOnly {α : Type} (σ : Type) [CacheLike σ] (listed : (digits identity : String) → Prop)
    (p : Script α) : Prop :=
  ∀ (s t : σ) (C : Cache) (m : Script.Moment σ α) (r : Record) (next : Unit → Script α), shows s C →
    Reaches Call.IsForeign ⟨p, s, none⟩ m → m.script = .upsert r next →
      RecordStore.upsert m.store r = .ok t → ∃ w, Overwrites listed m r t w

/-- What a node writes at the end of a resolution or a discovery keeps an update that was merged
meanwhile exactly if it is no older and has the same key. -/
theorem overwrites_only (σ : Type) [CacheLike σ] (n : Node σ) :
    (∀ identity, OverwritesOnly σ (fun _ _ => False) (Node.resolve identity)) ∧
      ∀ phoneBook, OverwritesOnly σ (Contacts.Lists n.config.identitySalt phoneBook)
        (n.discover phoneBook) := by
  constructor
  · intro identity s t C m r next hs hm hscript hwrite
    exact overwrites_of_guarded (resolve_guarded identity none) hs hm hscript hwrite
  · intro phoneBook s t C m r next hs hm hscript hwrite
    exact overwrites_of_guarded (n.discover_guarded phoneBook none) hs hm hscript hwrite

/-- Whether a script keeps every update that packets merge between its reading and its writing. -/
def KeepsUpdates {α σ : Type} [CacheLike σ] (s : σ) (p : Script α) : Prop :=
  ∀ (m : Script.Moment σ α) (r : Record) (next : Unit → Script α) (t : σ) (w : Window σ),
    Reaches Call.IsGossip ⟨p, s, none⟩ m → m.script = .upsert r next → m.window = some w →
      RecordStore.upsert m.store r = .ok t → ∀ u ∈ applied w.start w.calls,
        u.identity = r.identity → Keeps t u

/-- A packet that is taken in right before the write is lost if the record that is written is
older. -/
theorem not_keepsUpdates {α σ : Type} [CacheLike σ] {s : σ} {C : Cache} (hs : shows s C)
    {p : Script α} {r u : Record} {next : Unit → Script α} {identity : String}
    {found : Option Record}
    (hread : Reaches Call.IsGossip ⟨p, s, none⟩
      ⟨.upsert r next, s, some { identity, found, start := s }⟩)
    {calls : List Call} (hcalls : ∀ call ∈ calls, call.IsGossip) (hu : u ∈ applied s calls)
    (hidentity : u.identity = r.identity) (hnamed : r.identity ≠ "")
    (holder : r.lastSeen < u.lastSeen) : ¬KeepsUpdates s p := by
  intro hkeeps
  have hmerged := hread.trans (Reaches.others hcalls)
  have hshows := lockstep.after hs calls
  obtain ⟨t, hwrite, -⟩ := upsert_of_named hshows hnamed
  obtain ⟨stored, hget, hseen, -⟩ :=
    hkeeps _ r next t _ hmerged rfl rfl hwrite u (by simpa using hu) hidentity
  rw [hidentity, get?_of_upsert hshows hwrite] at hget
  cases hget
  exact UInt64.not_le.mpr holder hseen

section Paths

variable {σ : Type} [StoreKind σ] {P : Call → Prop} (s : σ)

theorem accept?_of_identity {answer : Record} {identity : String} (h : answer.identity = identity) :
    Directory.accept? identity answer = some { answer with synced := true } := by
  rw [Directory.accept?, if_pos (.inr h), ← h]

theorem resolve_reaches_write (answer : Record) {identity : String}
    (hnone : RecordStore.get? s identity = .ok none)
    (hanswer : answer.identity = identity) :
    ∃ next, Reaches P ⟨Node.resolve identity, s, none⟩
      ⟨.upsert { answer with synced := true } next, s,
        some { identity, found := none, start := s }⟩ := by
  have hread : Next P ⟨Node.resolve identity, s, none⟩ ⟨_, s, _⟩ := .get hnone
  have hlookup := Relation.ReflTransGen.single hread |>.tail (.lookup (some answer))
  rw [Option.bind_some, accept?_of_identity hanswer] at hlookup
  exact ⟨_, hlookup⟩

theorem find_reaches_write (answer : Record) (salt name digits : String)
    (hnone : RecordStore.get? s (Phone.hash salt digits) = .ok none)
    (hanswer : answer.identity = Phone.hash salt digits) :
    ∃ next, Reaches P ⟨Contacts.find salt name digits, s, none⟩
      ⟨.upsert { answer with contactHint := some digits, synced := true } next, s,
        some { identity := Phone.hash salt digits, found := none, start := s }⟩ := by
  have hread : Next P ⟨Contacts.find salt name digits, s, none⟩ ⟨_, s, _⟩ := .get hnone
  have hlookup := Relation.ReflTransGen.single hread |>.tail (.lookup (some answer))
  rw [Option.bind_some, accept?_of_identity hanswer] at hlookup
  exact ⟨_, hlookup⟩

theorem find_reaches_hint (stored : Record) (salt name digits : String)
    (hstored : RecordStore.get? s (Phone.hash salt digits) = .ok (some stored))
    (hhint : stored.contactHint = none) :
    ∃ next, Reaches P ⟨Contacts.find salt name digits, s, none⟩
      ⟨.upsert { stored with contactHint := some digits } next, s,
        some { identity := Phone.hash salt digits, found := some stored, start := s }⟩ := by
  have hread : Next P ⟨Contacts.find salt name digits, s, none⟩
      ⟨Contacts.hint name digits (Phone.hash salt digits) stored, s, _⟩ := .get hstored
  rw [Contacts.hint, if_neg (by simp [hhint])] at hread
  exact ⟨_, .single hread⟩

end Paths

/-- A directory's answer to a resolution, one to a discovery, and a hint that is filled in: each
takes an update away that was merged in time. -/
theorem updates_lost :
    let answer : Record := { identity := "h", publicKey := "answered", lastSeen := 10 }
    let contact : Record := { answer with identity := Phone.hash "" "7" }
    ¬KeepsUpdates (MemoryStore.empty 10) (Node.resolve "h") ∧
      ¬KeepsUpdates (MemoryStore.empty 10) (Contacts.find "" "bob" "7") ∧
      ¬KeepsUpdates ((MemoryStore.empty 10).put contact) (Contacts.find "" "bob" "7") := by
  intro answer contact
  let newer (r : Record) : Record := { r with lastSeen := 20 }
  have hempty := MemoryStore.lockstep_shows.empty 10
  have hnamed : Phone.hash "" "7" ≠ "" := by decide +kernel
  have hgossip (u : Record) : ∀ call ∈ Gossiper.batchCalls "me" [u], call.IsGossip :=
    Gossiper.isGossip_of_mem_batchCalls
  refine ⟨?resolved, ?discovered, ?hinted⟩
  case resolved =>
    obtain ⟨next, hread⟩ := resolve_reaches_write (MemoryStore.empty 10) answer rfl rfl
    exact not_keepsUpdates (u := newer answer) hempty hread (hgossip (newer answer))
      (by decide +kernel) rfl (by decide) (by decide)
  case discovered =>
    obtain ⟨next, hread⟩ := find_reaches_write (MemoryStore.empty 10) contact "" "bob" "7"
      rfl rfl
    exact not_keepsUpdates (u := newer contact) hempty hread (hgossip (newer contact))
      (by decide +kernel) rfl hnamed (by decide)
  case hinted =>
    obtain ⟨next, hread⟩ := find_reaches_hint ((MemoryStore.empty 10).put contact) contact
      "" "bob" "7" (by decide +kernel) rfl
    exact not_keepsUpdates (u := newer contact) (hempty.put contact) hread
      (hgossip (newer contact)) (by decide +kernel) rfl hnamed (by decide)

end Node

end PeerBook
