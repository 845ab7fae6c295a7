import Mathlib.Data.List.TakeWhile
import PeerBook.Address.Ip

namespace PeerBook.Reader

variable {radix bound n value : Nat} {admissible : List Char → Bool} {c : Char}
  {cs digits rest left : List Char}

def EndsNumeral (radix : Nat) (rest : List Char) : Prop :=
  ∀ c ∈ rest.head?, isDigit radix c = false

theorem EndsNumeral.nil : EndsNumeral radix [] :=
  fun _ h => by cases h

theorem EndsNumeral.cons (h : isDigit radix c = false) (rest : List Char) :
    EndsNumeral radix (c :: rest) := by
  rintro _ ⟨⟩
  exact h

theorem EndsNumeral.takeWhile (h : EndsNumeral radix rest) :
    rest.takeWhile (isDigit radix) = [] := by
  cases rest with
  | nil => rfl
  | cons c rest => exact List.takeWhile_cons_of_neg (by simp [h c rfl])

theorem EndsNumeral.dropWhile (h : EndsNumeral radix rest) :
    rest.dropWhile (isDigit radix) = rest := by
  have hsplit := rest.takeWhile_append_dropWhile (p := isDigit radix)
  rwa [h.takeWhile, List.nil_append] at hsplit

theorem isDigit_mono {radix' : Nat} (hle : radix ≤ radix') (h : isDigit radix c) :
    isDigit radix' c := by
  rw [isDigit, digitValue?, Option.isSome_filter, Option.any_eq_true] at h ⊢
  obtain ⟨value, hvalue, hlt⟩ := h
  exact ⟨value, hvalue, decide_eq_true ((of_decide_eq_true hlt).trans_le hle)⟩

theorem EndsNumeral.mono {radix' : Nat} (h : EndsNumeral radix' rest) (hle : radix ≤ radix') :
    EndsNumeral radix rest := by
  intro c hc
  have hnot := h c hc
  rw [Bool.eq_false_iff] at hnot ⊢
  exact fun hdigit => hnot (isDigit_mono hle hdigit)

theorem digitValue?_digitChar (hradix : radix ≤ 16) (h : n < radix) :
    digitValue? radix n.digitChar = some n := by
  have hall : ∀ n < 16, digitValue? 16 n.digitChar = some n := by decide
  have hn := hall n (h.trans_le hradix)
  rw [digitValue?, Option.filter_eq_some_iff] at hn ⊢
  exact ⟨hn.1, by simpa using h⟩

theorem isDigit_of_mem_toDigits (hpos : 1 < radix) (hradix : radix ≤ 16)
    (hc : c ∈ Nat.toDigits radix n) : isDigit radix c := by
  induction n using Nat.strongRecOn with
  | _ n ih =>
      have hdigit {d : Nat} (hd : d < radix) : isDigit radix d.digitChar := by
        rw [isDigit, digitValue?_digitChar hradix hd, Option.isSome_some]
      rcases lt_or_ge n radix with hlt | hge
      · rw [Nat.toDigits_of_lt_base hlt, List.mem_singleton] at hc
        exact hc ▸ hdigit hlt
      · rw [Nat.toDigits_of_base_le hpos hge, List.mem_append, List.mem_singleton] at hc
        rcases hc with hc | rfl
        · exact ih _ (Nat.div_lt_self (by omega) hpos) hc
        · exact hdigit (Nat.mod_lt _ (by omega))

theorem digitsValue_append (digits : List Char) (c : Char) :
    digitsValue radix (digits ++ [c]) =
      digitsValue radix digits * radix + (digitValue? radix c).getD 0 := by
  rw [digitsValue, List.foldl_append]
  rfl

theorem digitsValue_toDigits (hpos : 1 < radix) (hradix : radix ≤ 16) (n : Nat) :
    digitsValue radix (Nat.toDigits radix n) = n := by
  induction n using Nat.strongRecOn with
  | _ n ih =>
      rcases lt_or_ge n radix with hlt | hge
      · rw [Nat.toDigits_of_lt_base hlt, ← List.nil_append [n.digitChar], digitsValue_append,
          digitValue?_digitChar hradix hlt]
        simp [digitsValue]
      · rw [Nat.toDigits_of_base_le hpos hge, digitsValue_append,
          ih _ (Nat.div_lt_self (by omega) hpos),
          digitValue?_digitChar hradix (Nat.mod_lt _ (by omega)), Option.getD_some,
          Nat.mul_comm, Nat.div_add_mod]

theorem number_of_digits (hdigits : ∀ c ∈ digits, isDigit radix c) (hrest : EndsNumeral radix rest)
    (hne : digits ≠ []) (hadmissible : admissible digits)
    (hbound : digitsValue radix digits < bound) :
    number radix bound admissible (digits ++ rest) = some (digitsValue radix digits, rest) := by
  have htake : (digits ++ rest).takeWhile (isDigit radix) = digits := by
    rw [List.takeWhile_append_of_pos hdigits, hrest.takeWhile, List.append_nil]
  have hdrop : (digits ++ rest).dropWhile (isDigit radix) = rest := by
    rw [List.dropWhile_append_of_pos hdigits, hrest.dropWhile]
  simp [number, htake, hdrop, hne, hadmissible, hbound]

theorem number_toDigits (hpos : 1 < radix) (hradix : radix ≤ 16) (hbound : n < bound)
    (hadmissible : admissible (Nat.toDigits radix n)) (hrest : EndsNumeral radix rest) :
    number radix bound admissible (Nat.toDigits radix n ++ rest) = some (n, rest) := by
  have hvalue := digitsValue_toDigits hpos hradix n
  rw [number_of_digits (fun _ => isDigit_of_mem_toDigits hpos hradix) hrest Nat.toDigits_ne_nil
    hadmissible (hvalue.symm ▸ hbound), hvalue]

theorem rest_of_number (h : number radix bound admissible cs = some (value, left)) :
    left = cs.dropWhile (isDigit radix) := by
  simp only [number, Option.ite_none_right_eq_some, Option.some.injEq, Prod.mk.injEq] at h
  exact h.2.2.symm

theorem number_eq_none (h : EndsNumeral radix cs) : number radix bound admissible cs = none := by
  simp [number, h.takeWhile]

/-- What comes after a text that has been read changes nothing, unless it goes on with the last
numeral. -/
theorem number_append (h : number radix bound admissible cs = some (value, left))
    (hrest : EndsNumeral radix rest) :
    number radix bound admissible (cs ++ rest) = some (value, left ++ rest) := by
  have htake : (cs ++ rest).takeWhile (isDigit radix) = cs.takeWhile (isDigit radix) := by
    rw [List.takeWhile_append, hrest.takeWhile, List.append_nil]
    split
    · exact ((List.takeWhile_prefix _).eq_of_length ‹_›).symm
    · rfl
  have hdrop : (cs ++ rest).dropWhile (isDigit radix) = cs.dropWhile (isDigit radix) ++ rest := by
    rw [List.dropWhile_append, hrest.dropWhile]
    split
    · rename_i hall
      rw [List.isEmpty_iff.mp hall, List.nil_append]
    · rfl
  simp only [number, htake, hdrop, Option.ite_none_right_eq_some, Option.some.injEq,
    Prod.mk.injEq] at h ⊢
  exact ⟨h.1, h.2.1, by rw [h.2.2]⟩

theorem char_append (h : char c cs = some ((), left)) (rest : List Char) :
    char c (cs ++ rest) = some ((), left ++ rest) := by
  cases cs with
  | nil => cases h
  | cons x cs =>
      simp only [char, Option.ite_none_right_eq_some, Option.some.injEq, Prod.mk.injEq,
        true_and] at h
      obtain ⟨rfl, rfl⟩ := h
      exact if_pos rfl

@[simp] theorem char_cons (c : Char) (rest : List Char) : char c (c :: rest) = some ((), rest) :=
  if_pos rfl

theorem char_eq_none (h : cs.head? ≠ some c) : char c cs = none := by
  cases cs with
  | nil => rfl
  | cons x cs => exact if_neg fun heq => h (congrArg some heq)

theorem all_eq_some_iff {α : Type} {reader : Reader α} {text : String} {x : α} :
    all reader text = some x ↔ reader text.toList = some (x, []) := by
  rw [all]
  split
  · simp [*]
  · rename_i hrest
    exact ⟨nofun, fun h => absurd h (hrest x)⟩

end PeerBook.Reader
