import PeerBook.Proofs.Node.Requests
import PeerBook.Proofs.Node.SelfRecord

namespace PeerBook

open StoreKind

namespace Cache

variable {C : Cache} {r : Record}

theorem outdates_trim_iff : Call.trim.Outdates r C ↔ C.capacity ≤ C.above r := by
  refine ⟨?_, outdates_of_le_above⟩
  rintro ⟨latest, hlatest, hlength, hlater⟩
  obtain rfl := Except.ok.inj hlatest
  have hall : (C.entries.take C.capacity).countP (fun s => decide (r.stamp < s.stamp)) =
      (C.entries.take C.capacity).length :=
    List.countP_eq_length.mpr fun p hp => decide_eq_true (hlater p hp)
  calc C.capacity = (C.entries.take C.capacity).length := hlength.symm
    _ = (C.entries.take C.capacity).countP fun s => decide (r.stamp < s.stamp) := hall.symm
    _ ≤ C.above r := (List.take_sublist _ _).countP_le

theorem above_put_self (h : C.find? r.identity = none) : (C.put r).above r = C.above r := by
  have hothers : C.entries.filter (fun s => decide (s.identity ≠ r.identity)) = C.entries :=
    List.filter_eq_self.mpr fun s hs => decide_eq_true (find?_eq_none_iff.mp h s hs)
  have hperm : (C.put r).entries.Perm (r :: C.entries) := by
    rw [← hothers]
    exact List.mergeSort_perm _ _
  rw [above, hperm.countP_eq, List.countP_cons_of_neg (by simp), above]

/-- A new record survives the next trim, unless it is outdated already. -/
theorem find?_top_put (h : C.find? r.identity = none) :
    (C.put r).top.find? r.identity = some r ∧ ¬Call.trim.Outdates r C ∨
      (C.put r).top.find? r.identity = none ∧ Call.trim.Outdates r C := by
  have hfresh : r ∈ (C.put r).entries := mem_put.mpr (.inl rfl)
  rw [outdates_trim_iff, ← above_put_self h]
  rcases Nat.lt_or_ge ((C.put r).above r) C.capacity with hbelow | habove
  · refine .inl ⟨find?_eq_some_iff.mpr ⟨mem_top.mpr ⟨hfresh, hbelow⟩, rfl⟩, ?_⟩
    exact Nat.not_le.mpr hbelow
  · refine .inr ⟨find?_eq_none_iff.mpr fun s hs hidentity => ?_, habove⟩
    obtain ⟨hstored, hbelow⟩ := mem_top.mp hs
    obtain rfl := eq_of_mem hstored hfresh hidentity
    exact Nat.not_le.mpr hbelow habove

end Cache

namespace Node

def keepAnswer : Option Record → Script (Option Record)
  | none => .done none
  | some r => .upsert r fun _ => .trim fun _ => .done (some r)

theorem resolve_eq (identity : String) :
    resolve identity = .get identity fun
      | some r => .done (some r)
      | none => .lookup identity keepAnswer :=
  congrArg (Script.get identity) <| funext fun found => by
    cases found with
    | some r => rfl
    | none => exact congrArg (Script.lookup identity) (funext fun answer => by cases answer <;> rfl)

end Node

namespace Cluster

open CacheLike

section Resolving

variable {σ β : Type} [CacheLike σ] [DirectoryBackend β] [Timer] {i : Nat} {c d : Cluster σ β}
  {n m : Node σ} {draws : Nat → Draws} {identity : String} {r : Record} {C : Cache}

/-- The node at `i` resolves an identity by itself: it has the record, gives it, and asks no
directory. -/
structure Knows (i : Nat) (n : Node σ) (draws : Nat → Draws) (identity : String) (r : Record)
    (c : Cluster σ β) : Prop where
  stored : (c.nodes[i]?.map fun m => RecordStore.get? m.store identity) = some (.ok (some r))
  answer : (Node.resolve identity).run (host i n draws) c = (.ok (some r), c)
  waits : waitsOfScript i n draws (Node.resolve identity) c = []

theorem knows_of_get? (hm : c.nodes[i]? = some m)
    (h : RecordStore.get? m.store identity = .ok (some r)) : c.Knows i n draws identity r where
  stored := by rw [hm, Option.map_some, h]
  answer := by rw [Node.resolve_eq, Script.run, host_get?_eq hm, h]; rfl
  waits := by rw [Node.resolve_eq, waitsOfScript, host_get?_eq hm, h]; rfl

theorem shown_of_keepAnswer {given : Record} (hm : c.nodes[i]? = some m) (hC : shows m.store C)
    (h : (Node.keepAnswer (some given)).run (host i n draws) c = (.ok (some r), d)) :
    given = r ∧ ∃ o, d.nodes[i]? = some o ∧ shows o.store (C.put r).top := by
  rw [Node.keepAnswer, Script.run] at h
  cases hwrite : (host i n draws).upsert c given with
  | error fault =>
      rw [hwrite] at h
      cases h
  | ok e =>
      obtain ⟨t, hstored, -⟩ := host_upsert_eq_ok hm hwrite
      obtain ⟨o, ho, hshown⟩ := shown_of_upsert hm hC hwrite
      rw [after_cons, Cache.perform_upsert (named_of_upsert hC hstored)] at hshown
      simp only [hwrite, Script.run] at h
      cases htrim : (host i n draws).trim e with
      | error fault =>
          rw [htrim] at h
          cases h
      | ok result =>
          rw [htrim] at h
          cases h
          exact ⟨rfl, shown_of_trim ho hshown htrim⟩

/-- A resolved record is there for the next resolution, unless it came from the directory and the
store was full of later records when it came. -/
theorem resolved_known_or_outdated (hn : c.nodes[i]? = some n) (hC : shows n.store C)
    (h : (Node.resolve identity).run (host i n draws) c = (.ok (some r), d)) :
    let answered := (c.await draws (Directory.lookup (timeoutOf n) c.directory identity)).2
    d.Knows i n draws identity r ∨
      RecordStore.get? n.store identity = .ok none ∧
        (d.nodes[i]?.map fun m => RecordStore.get? m.store identity) = some (.ok none) ∧
          ∃ o, answered.nodes[i]? = some o ∧ Call.trim.Outdates r o.store := by
  let answer := Directory.lookup (timeoutOf n) c.directory identity
  intro answered
  have hread : RecordStore.get? n.store identity = .ok (C.find? identity) := lockstep.get? hC _
  rw [Node.resolve_eq, Script.run, host_get?_eq hn, hread] at h
  cases hfound : C.find? identity with
  | some stored =>
      rw [hfound] at h hread
      cases h
      exact .inl (knows_of_get? hn hread)
  | none =>
      rw [hfound] at h hread
      obtain ⟨o, ho, hshown⟩ := (becomes_await i c draws answer).shown hn hC
      have habsent : (after C (c.callsMeanwhile i answer.elapsed)).find? identity = none := by
        have hsubset := Cache.entries_after_subset (C := C) (c.written?_meanwhile i answer.elapsed)
        rcases Cache.find?_eq_or_none_of_subset hsubset identity with hkept | hlost
        · rw [hkept, hfound]
        · exact hlost
      have hrest : (Node.keepAnswer answer.outcome).run (host i n draws) answered =
          (.ok (some r), d) := h
      cases hgiven : answer.outcome with
      | none =>
          rw [hgiven] at hrest
          cases hrest
      | some given =>
          rw [hgiven] at hrest
          obtain ⟨rfl, m, hm, hkept⟩ := shown_of_keepAnswer ho hshown hrest
          obtain rfl := Directory.identity_of_lookup (timeoutOf n) c.directory identity given hgiven
          have hstored : RecordStore.get? m.store given.identity =
              .ok (((after C (c.callsMeanwhile i answer.elapsed)).put given).top.find?
                given.identity) := lockstep.get? hkept _
          rcases Cache.find?_top_put habsent with ⟨hthere, -⟩ | ⟨hgone, houtdated⟩
          · exact .inl (knows_of_get? hm (by rw [hstored, hthere]))
          · refine .inr ⟨hread, ?_, o, ho, (outdates_iff hshown).mpr houtdated⟩
            rw [hm, Option.map_some, hstored, hgone]

end Resolving

attribute [local instance] Timer.seconds63

def ahead (capacity : Nat) : Cluster DurableStore (AnyDirectory DurableStore) where
  nodes := [.start {} "key" (after (.empty capacity)
    [.upsert { identity := "later", publicKey := "k", lastSeen := 20 }])]
  directory := .fixed { identity := "h", publicKey := "k", address := "10.0.0.1", lastSeen := 10 }
  today := 30

theorem resolved_known_of_room :
    let r : Record :=
      { identity := "h", publicKey := "k", address := "10.0.0.1", lastSeen := 10, synced := true }
    ∃ n, (ahead 2).nodes[0]? = some n ∧
      Knows 0 n (fun _ => {}) "h" r
        ((Node.resolve "h").run (host 0 n fun _ => {}) (ahead 2)).2 := by
  intro r
  let n : Node DurableStore := .start {} "key" (after (.empty 2)
    [.upsert { identity := "later", publicKey := "k", lastSeen := 20 }])
  have hresolved : (Node.resolve "h").run (host 0 n fun _ => {}) (ahead 2) =
      (.ok (some r), ((Node.resolve "h").run (host 0 n fun _ => {}) (ahead 2)).2) :=
    Script.run_eq_of_fst (by decide +kernel)
  have hkept : (((Node.resolve "h").run (host 0 n fun _ => {}) (ahead 2)).2.nodes[0]?.map
      fun m => RecordStore.get? m.store "h") = some (.ok (some r)) := by decide +kernel
  refine ⟨n, rfl, ?_⟩
  rcases resolved_known_or_outdated rfl (lockstep.after (lockstep.empty 2) _) hresolved with
    hknown | ⟨-, hgone, -⟩
  · exact hknown
  · rw [hkept] at hgone
    cases hgone

def CachesAnswers (σ β : Type) [RecordStore σ] [DirectoryBackend β] [Timer] : Prop :=
  ∀ (c d : Cluster σ β) (i : Nat) (n : Node σ) (draws : Nat → Draws) (identity : String)
    (r : Record) (size : Nat), c.nodes[i]? = some n → RecordStore.size n.store = .ok size →
    size ≤ RecordStore.capacity n.store →
    (Node.resolve identity).run (host i n draws) c = (.ok (some r), d) →
      (d.nodes[i]?.map fun m => RecordStore.get? m.store identity) = some (.ok (some r))

/-- An answer that is older than all that a full store holds is evicted as soon as it is stored. -/
theorem not_cachesAnswers : ¬CachesAnswers DurableStore (AnyDirectory DurableStore) := by
  intro h
  have hkept := h (ahead 1) _ 0 _ (fun _ => {}) "h"
    { identity := "h", publicKey := "k", address := "10.0.0.1", lastSeen := 10, synced := true } 1
    rfl (by decide +kernel) (by decide +kernel) (Script.run_eq_of_fst (by decide +kernel))
  revert hkept
  decide +kernel

end Cluster

end PeerBook
