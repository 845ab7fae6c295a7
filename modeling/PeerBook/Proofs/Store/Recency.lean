import Mathlib.Data.List.Sort
import Mathlib.Data.Prod.Lex
import Mathlib.Data.String.Basic
import PeerBook.Store.Stamp
import Std.Data.TreeSet.Lemmas

namespace PeerBook

namespace Stamp

def key (s : Stamp) : Nat ×ₗ String := toLex (s.lastSeen.toNat, s.identity)

theorem key_injective : Function.Injective key := by
  intro s t h
  cases s
  cases t
  have h := congrArg ofLex h
  simp only [key, ofLex_toLex, Prod.mk.injEq] at h
  obtain ⟨hseen, rfl⟩ := h
  rw [UInt64.toNat_inj.mp hseen]

theorem compare_lastSeen (s t : Timestamp) : compare s t = compare s.toNat t.toNat := by
  simp only [compare, compareOfLessAndEq, UInt64.lt_iff_toNat_lt, ← UInt64.toNat_inj]

theorem compare_key (s t : Stamp) : compare s t = compare s.key t.key := by
  rw [compare_eq, compare_lastSeen]
  rfl

instance : LinearOrder Stamp :=
  LinearOrder.liftWithOrd' key key_injective compare_key

theorem pairwise_toList (index : RecencyIndex) : index.toList.Pairwise fun s t => s < t :=
  index.ordered_toList.imp compare_lt_iff_lt.mp

theorem lt_iff {s t : Stamp} :
    s < t ↔ s.lastSeen < t.lastSeen ∨ (s.lastSeen = t.lastSeen ∧ s.identity < t.identity) := by
  change s.key < t.key ↔ _
  simp only [key, Prod.Lex.toLex_lt_toLex, UInt64.lt_iff_toNat_lt, UInt64.toNat_inj]

theorem lastSeen_le {s t : Stamp} (h : s ≤ t) : s.lastSeen ≤ t.lastSeen := by
  rcases h.lt_or_eq with hlt | rfl
  · rcases lt_iff.mp hlt with hlt | ⟨he, -⟩
    · exact UInt64.le_of_lt hlt
    · exact UInt64.le_of_eq he
  · exact UInt64.le_refl _

end Stamp

variable {α : Type} {l : List α}

theorem countP_take_of_pairwise {p : α → Bool} (h : l.Pairwise fun x y => p y → p x) (n : Nat) :
    (l.take n).countP p = min n (l.countP p) := by
  induction l generalizing n with
  | nil => simp
  | cons x xs ih =>
      obtain ⟨hx, hxs⟩ := List.pairwise_cons.mp h
      cases n with
      | zero => simp
      | succ n =>
          rw [List.take_succ_cons, List.countP_cons, List.countP_cons, ih hxs]
          by_cases hp : p x = true
          · simp only [hp, if_true]
            omega
          · have hzero : xs.countP p = 0 :=
              List.countP_eq_zero.mpr fun y hy hpy => hp (hx y hy hpy)
            simp [hp, hzero]

theorem takeWhile_eq_filter_of_pairwise {p : α → Bool} (h : l.Pairwise fun x y => p y → p x) :
    l.takeWhile p = l.filter p := by
  induction l with
  | nil => rfl
  | cons x xs ih =>
      obtain ⟨hx, hxs⟩ := List.pairwise_cons.mp h
      by_cases hp : p x = true
      · rw [List.takeWhile_cons_of_pos hp, List.filter_cons_of_pos hp, ih hxs]
      · have hnil : xs.filter p = [] :=
          List.filter_eq_nil_iff.mpr fun y hy hpy => hp (hx y hy hpy)
        rw [List.takeWhile_cons_of_neg hp, List.filter_cons_of_neg hp, hnil]

/-- In a descending list an element stands among the first `n` if fewer than `n` are above it. -/
theorem mem_take_iff_countP_lt {β : Type} [LinearOrder β] {f : α → β}
    (h : l.Pairwise fun x y => f y < f x) (n : Nat) (a : α) :
    a ∈ l.take n ↔ a ∈ l ∧ l.countP (fun x => f a < f x) < n := by
  induction l generalizing n with
  | nil => simp
  | cons x xs ih =>
      obtain ⟨hx, hxs⟩ := List.pairwise_cons.mp h
      cases n with
      | zero => simp
      | succ n =>
          rw [List.take_succ_cons, List.mem_cons, List.mem_cons, ih hxs, List.countP_cons]
          constructor
          · rintro (rfl | ⟨ha, hn⟩)
            · have hzero : xs.countP (fun x => f a < f x) = 0 :=
                List.countP_eq_zero.mpr fun y hy => by simpa using (hx y hy).le
              simp [hzero]
            · exact ⟨.inr ha, by split <;> omega⟩
          · rintro ⟨rfl | ha, hn⟩
            · exact .inl rfl
            · have habove : decide (f a < f x) = true := decide_eq_true (hx a ha)
              rw [if_pos habove] at hn
              exact .inr ⟨ha, by omega⟩

end PeerBook
