import Mathlib.Data.List.TakeWhile
import PeerBook.Json.Numeral

namespace PeerBook.Json.Numeral

theorem isDigit_of_mem {n : Nat} {c : Char} (h : c ∈ Nat.toDigits 10 n) : c.isDigit :=
  Nat.isDigit_of_mem_toDigits (by decide) (by decide) h

theorem isPart_of_isDigit {c : Char} (h : c.isDigit) : isPart c := by
  simp [isPart, h]

theorem head?_toDigits_ne_zero {n : Nat} (h : 0 < n) : (Nat.toDigits 10 n).head? ≠ some '0' := by
  induction n using Nat.strongRecOn with
  | _ n ih =>
      by_cases hn : n < 10
      · rw [Nat.toDigits_of_lt_base hn, List.head?_singleton, ne_eq, Option.some.injEq,
          Nat.digitChar_eq_zero]
        exact h.ne'
      · have hq : 0 < n / 10 := Nat.div_pos (not_lt.mp hn) (by decide)
        rw [Nat.toDigits_of_base_le (by decide) (not_lt.mp hn), List.head?_append,
          Option.or_of_isSome (List.isSome_head?.mpr Nat.toDigits_ne_nil)]
        exact ih (n / 10) (Nat.div_lt_self h (by decide)) hq

theorem isWhole_toDigits (n : Nat) : isWhole (Nat.toDigits 10 n) := by
  rcases Nat.eq_zero_or_pos n with rfl | hn
  · decide
  · simp [isWhole, Nat.toDigits_ne_nil, head?_toDigits_ne_zero hn]

theorem ofUnsigned?_toDigits (n : Nat) :
    ofUnsigned? false (Nat.toDigits 10 n) = some (ofNat n) := by
  have hwhole : (Nat.toDigits 10 n).takeWhile Char.isDigit = Nat.toDigits 10 n :=
    List.takeWhile_eq_self_iff.mpr fun _ => isDigit_of_mem
  have hrest : (Nat.toDigits 10 n).dropWhile Char.isDigit = [] :=
    List.dropWhile_eq_nil_iff.mpr fun _ => isDigit_of_mem
  simp [ofUnsigned?, hwhole, hrest, isWhole_toDigits, fraction?, exponent?, ofNat]

theorem ofChars?_toDigits (n : Nat) : ofChars? (Nat.toDigits 10 n) = some (ofNat n) := by
  rw [← ofUnsigned?_toDigits]
  cases hdigits : Nat.toDigits 10 n with
  | nil => exact (Nat.toDigits_ne_nil hdigits).elim
  | cons c cs =>
      have hc : c.isDigit := isDigit_of_mem (hdigits ▸ List.mem_cons_self)
      have hsign : c ≠ '-' := by
        rintro rfl
        exact absurd hc (by decide)
      rw [ofChars?]
      rintro cs' ⟨⟩
      exact hsign rfl

theorem spell_ofNat (n : Nat) : (ofNat n).spell = Nat.toDigits 10 n := by
  simp [spell, ofNat]

theorem digitsValue_toDigits (n : Nat) : digitsValue (Nat.toDigits 10 n) = n := by
  have hvalue := Nat.ofDigitChars_ten_toDigits (n := n)
  rw [Nat.ofDigitChars_eq_foldl] at hvalue
  simpa only [digitsValue, digitValue, Nat.mul_comm 10] using hvalue

theorem toNat?_ofNat (n : Nat) : (ofNat n).toNat? = some n := by
  simp [toNat?, ofNat, digitsValue_toDigits]

theorem le_foldl_digits (start : Nat) (digits : List Char) :
    start ≤ digits.foldl (fun n c => n * 10 + digitValue c) start := by
  induction digits generalizing start with
  | nil => exact le_rfl
  | cons c cs ih => exact le_trans (by omega) (ih (start * 10 + digitValue c))

theorem accumulate_eq {start : Nat} {digits : List Char}
    (h : digits.foldl (fun n c => n * 10 + digitValue c) start < UInt64.size) :
    accumulate start digits =
      (digits.foldl (fun n c => n * 10 + digitValue c) start, 0) := by
  induction digits generalizing start with
  | nil => rfl
  | cons c cs ih =>
      have hnext := lt_of_le_of_lt (le_foldl_digits _ cs) h
      rw [accumulate]
      simp only [if_pos hnext]
      exact ih h

theorem round53_le {n : Nat} (h : n < UInt64.size) : round53 n ≤ n + Nat.pow 2 11 := by
  have hbits : (if n = 0 then 0 else n.log2 + 1) - 53 ≤ 11 := by
    split
    · decide
    · have := (Nat.log2_lt ‹n ≠ 0›).mpr (show n < 2 ^ 64 from h)
      omega
  have hunit := Nat.pow_le_pow_right (n := 2) (by decide) hbits
  rw [round53]
  generalize (if n = 0 then 0 else n.log2 + 1) - 53 = bits at hunit
  have hlow : n / Nat.pow 2 bits * Nat.pow 2 bits ≤ n := Nat.div_mul_le_self _ _
  split
  · rw [Nat.add_mul, Nat.one_mul]
    exact Nat.add_le_add hlow hunit
  · exact hlow.trans (Nat.le_add_right _ _)

theorem isFinite_ofNat {n : Nat} (h : n < UInt64.size) : (ofNat n).isFinite := by
  have hread : accumulate 0 (Nat.toDigits 10 n) = (n, 0) := by
    have hvalue := digitsValue_toDigits n
    rw [digitsValue] at hvalue
    rw [accumulate_eq (hvalue.symm ▸ h), hvalue]
  have hsmall : round53 n * round53 (Nat.pow 10 0) < overflowBound := by
    have hone : round53 (Nat.pow 10 0) = 1 := by decide
    have hbound : UInt64.size + Nat.pow 2 11 ≤ overflowBound := by decide +kernel
    rw [hone, Nat.mul_one]
    exact lt_of_le_of_lt (round53_le h) (by omega)
  rw [isFinite]
  simp only [ofNat, hread, Option.getD_none, accumulate]
  split
  · rfl
  · rw [if_neg (by decide)]
    exact decide_eq_true hsmall

end PeerBook.Json.Numeral
