import PeerBook.Proofs.Store.Ranking

namespace PeerBook

open StoreKind

inductive Chore where
  | trim
  | sweep (olderThan : Timestamp)
  deriving DecidableEq, Repr

def Chore.run {σ : Type} [RecordStore σ] (s : σ) : Chore → Except Fault (Nat × σ)
  | trim => RecordStore.trim s
  | sweep olderThan => RecordStore.sweep s olderThan

def tend {σ : Type} [RecordStore σ] (s : σ) : List Chore → Except Fault (Nat × σ)
  | [] => .ok (0, s)
  | chore :: chores => do
    let (first, t) ← chore.run s
    let (rest, u) ← tend t chores
    return (first + rest, u)

def SameEffect {σ : Type} [StoreKind σ] (x y : Except Fault (Nat × σ)) : Prop :=
  ∃ removed t u, x = .ok (removed, t) ∧ y = .ok (removed, u) ∧
    ∀ later, answers t later = answers u later

/-- Neither the order of chores matters, nor that a sweep is done in two parts, nor that a chore has
been done before. -/
structure OrderFree {σ : Type} [StoreKind σ] (s : σ) : Prop where
  permuted {chores others : List Chore} (h : chores.Perm others) :
    SameEffect (tend s chores) (tend s others)
  joined (a b : Timestamp) :
    SameEffect (tend s [.sweep a, .sweep b]) (tend s [.sweep (max a b)])
  repeated (chore : Chore) : ∃ removed t u, chore.run s = .ok (removed, t) ∧
    chore.run t = .ok (0, u) ∧ ∀ later, answers u later = answers t later

theorem Timestamp.max_le {a b t : Timestamp} : max a b ≤ t ↔ a ≤ t ∧ b ≤ t := by
  -- Timestamps are not a `LinearOrder`, so there is no `max_le_iff` for them.
  rw [show max a b = if a ≤ b then b else a from rfl]
  grind

namespace Cache

variable {C : Cache} {r : Record} {a b : Timestamp}

def since (C : Cache) (olderThan : Timestamp) : Cache :=
  C.keep fun r => olderThan ≤ r.lastSeen

@[simp] theorem mem_since : r ∈ (C.since a).entries ↔ r ∈ C.entries ∧ a ≤ r.lastSeen := by
  simp [since]

theorem above_since (h : a ≤ r.lastSeen) : (C.since a).above r = C.above r := by
  rw [above, since, keep, List.countP_filter]
  refine List.countP_congr fun s _ => ?_
  simp only [Bool.and_eq_true, decide_eq_true_eq, and_iff_left_iff_imp]
  exact fun hlt => UInt64.le_trans h (Stamp.lastSeen_le hlt.le)

theorem since_top : C.top.since a = (C.since a).top := by
  refine eq_of_mem_iff rfl fun r => ?_
  rw [mem_since, mem_top, mem_top, mem_since, and_right_comm]
  refine and_congr_right fun hr => ?_
  rw [above_since hr.2]
  rfl

theorem since_comm : (C.since a).since b = (C.since b).since a := by
  refine eq_of_mem_iff rfl fun r => ?_
  rw [mem_since, mem_since, mem_since, mem_since, and_right_comm]

theorem since_since : (C.since a).since b = C.since (max a b) := by
  refine eq_of_mem_iff rfl fun r => ?_
  rw [mem_since, mem_since, mem_since, and_assoc, Timestamp.max_le]

theorem since_self : (C.since a).since a = C.since a := by
  refine eq_of_mem_iff rfl fun r => ?_
  rw [mem_since, mem_since, and_assoc, and_self]

theorem length_since :
    (C.since a).entries.length + C.entries.countP (fun r => r.lastSeen < a) = C.entries.length := by
  have hsplit := (C.entries.length_eq_countP_add_countP fun r => a ≤ r.lastSeen).symm
  simp only [decide_eq_true_eq, UInt64.not_le] at hsplit
  rwa [List.countP_eq_length_filter] at hsplit

theorem top_top : C.top.top = C.top := by
  refine eq_of_mem_iff rfl fun r => ?_
  rw [mem_top, capacity_top, and_iff_left_iff_imp]
  intro hr
  have hsublist : C.top.entries.Sublist C.entries := List.take_sublist _ _
  exact hsublist.countP_le.trans_lt (mem_top.mp hr).2

def tended (C : Cache) : Chore → Cache
  | .trim => C.top
  | .sweep olderThan => C.since olderThan

theorem length_tended_le (C : Cache) (chore : Chore) :
    (C.tended chore).entries.length ≤ C.entries.length := by
  cases chore with
  | trim => exact List.length_take_le' _ _
  | sweep olderThan => exact List.length_filter_le _ _

instance : RightCommutative tended where
  right_comm C first second := by
    cases first with
    | trim =>
        cases second with
        | trim => rfl
        | sweep a => exact since_top
    | sweep a =>
        cases second with
        | trim => exact since_top.symm
        | sweep b => exact since_comm

theorem tended_tended (C : Cache) (chore : Chore) :
    (C.tended chore).tended chore = C.tended chore := by
  cases chore with
  | trim => exact top_top
  | sweep olderThan => exact since_self

end Cache

namespace CacheLike

variable {σ : Type} [CacheLike σ] {s : σ} {C : Cache}

theorem chore_ok (h : shows s C) (chore : Chore) :
    ∃ t, chore.run s = .ok (C.entries.length - (C.tended chore).entries.length, t) ∧
      shows t (C.tended chore) := by
  cases chore with
  | trim =>
      obtain ⟨t, htrim, hshows⟩ := trim_ok h
      refine ⟨t, ?_, hshows⟩
      rw [Chore.run, htrim, Cache.tended, Cache.top, List.length_take, Nat.min_comm,
        ← Nat.sub_eq_sub_min]
  | sweep olderThan =>
      obtain ⟨t, hsweep, hshows⟩ := sweep_ok h olderThan
      refine ⟨t, ?_, hshows⟩
      rw [Chore.run, hsweep, Cache.tended, ← C.length_since, Nat.add_sub_cancel_left]

theorem tend_ok (h : shows s C) (chores : List Chore) :
    ∃ t, tend s chores =
        .ok (C.entries.length - (chores.foldl Cache.tended C).entries.length, t) ∧
      shows t (chores.foldl Cache.tended C) ∧
      (chores.foldl Cache.tended C).entries.length ≤ C.entries.length := by
  induction chores generalizing s C with
  | nil => exact ⟨s, by simp [tend], h, le_rfl⟩
  | cons chore chores ih =>
      obtain ⟨t, hchore, ht⟩ := chore_ok h chore
      obtain ⟨u, hchores, hu, hle⟩ := ih ht
      have hle' := C.length_tended_le chore
      refine ⟨u, ?_, hu, hle.trans hle'⟩
      have hcount : C.entries.length - (C.tended chore).entries.length +
          ((C.tended chore).entries.length -
            (chores.foldl Cache.tended (C.tended chore)).entries.length) =
          C.entries.length - (chores.foldl Cache.tended (C.tended chore)).entries.length := by
        omega
      rw [List.foldl_cons, ← hcount, tend, hchore]
      change (tend t chores >>= _) = _
      rw [hchores]
      rfl

theorem sameEffect {chores others : List Chore} (h : shows s C)
    (hsame : chores.foldl Cache.tended C = others.foldl Cache.tended C) :
    SameEffect (tend s chores) (tend s others) := by
  obtain ⟨t, hchores, ht, -⟩ := tend_ok h chores
  obtain ⟨u, hothers, hu, -⟩ := tend_ok h others
  rw [← hsame] at hothers hu
  exact ⟨_, t, u, hchores, hothers, fun later =>
    (lockstep.answers_eq ht later).trans (lockstep.answers_eq hu later).symm⟩

theorem orderFree (h : shows s C) : OrderFree s where
  permuted hperm := sameEffect h (hperm.foldl_eq C)
  joined a b := sameEffect h Cache.since_since
  repeated chore := by
    obtain ⟨t, hfirst, ht⟩ := chore_ok h chore
    obtain ⟨u, hsecond, hu⟩ := chore_ok ht chore
    rw [Cache.tended_tended, Nat.sub_self] at hsecond
    rw [Cache.tended_tended] at hu
    exact ⟨_, t, u, hfirst, hsecond, fun later =>
      (lockstep.answers_eq hu later).trans (lockstep.answers_eq ht later).symm⟩

end CacheLike

/-- Whatever was asked of it, the order of chores makes no difference to either store. -/
theorem orderFree_after (capacity : Nat) (calls : List Call) :
    OrderFree (after (MemoryStore.empty capacity) calls) ∧
      OrderFree (after (DurableStore.empty capacity) calls) := by
  have hmemory := CacheLike.orderFree (CacheLike.shows_after (σ := MemoryStore) capacity calls)
  have hdurable := CacheLike.orderFree (CacheLike.shows_after (σ := DurableStore) capacity calls)
  exact ⟨hmemory, hdurable⟩

end PeerBook
