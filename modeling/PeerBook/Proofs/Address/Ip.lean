import PeerBook.Proofs.Address.Numerals
import PeerBook.Proofs.Json.Decimal

namespace PeerBook

open Reader

variable {cs digits left rest : List Char}

namespace Ipv4

variable {a : Ipv4} {n : UInt8}

theorem part_toDigits (n : UInt8) (hrest : EndsNumeral 10 rest) :
    part (Nat.toDigits 10 n.toNat ++ rest) = some (n, rest) := by
  have hlt : n.toNat < 256 := n.toNat_lt
  have hlength : (Nat.toDigits 10 n.toNat).length ≤ 3 :=
    (Nat.length_toDigits_le_iff (by decide) (by decide)).mpr (by omega)
  have hzero : (Nat.toDigits 10 n.toNat).length = 1 ∨
      (Nat.toDigits 10 n.toNat).head? ≠ some '0' := by
    rcases Nat.eq_zero_or_pos n.toNat with h | h
    · exact .inl (by rw [h]; rfl)
    · exact .inr (Json.Numeral.head?_toDigits_ne_zero h)
  rw [part, number_toDigits (by decide) (by decide) hlt (by simpa using ⟨hlength, hzero⟩) hrest]
  exact congrArg (fun m => some (m, rest)) UInt8.ofNat_toNat

theorem part_append (h : part cs = some (n, left)) (hrest : EndsNumeral 10 rest) :
    part (cs ++ rest) = some (n, left ++ rest) := by
  rw [part, Option.bind_eq_bind, Option.bind_eq_some_iff] at h
  obtain ⟨⟨value, left'⟩, hnumber, heq⟩ := h
  cases heq
  rw [part, number_append hnumber hrest]
  rfl

theorem read_textChars (a : Ipv4) (hrest : EndsNumeral 10 rest) :
    read (a.textChars ++ rest) = some (a, rest) := by
  have hdot (cs : List Char) : EndsNumeral 10 ('.' :: cs) := .cons (by decide) cs
  simp only [read, textChars, List.append_assoc, List.cons_append, part_toDigits _ (hdot _),
    part_toDigits _ hrest, char_cons, Option.bind_eq_bind, Option.bind_some]
  rfl

theorem read_append (h : read cs = some (a, left)) (hrest : EndsNumeral 10 rest) :
    read (cs ++ rest) = some (a, left ++ rest) := by
  simp only [read, Option.bind_eq_bind, Option.bind_eq_some_iff, Prod.exists] at h
  obtain ⟨a, _, ha, _, _, hdot, b, _, hb, _, _, hdot', c, _, hc, _, _, hdot'', d, _, hd, heq⟩ := h
  cases heq
  simp only [read, part_append ha hrest, char_append hdot, part_append hb hrest,
    char_append hdot', part_append hc hrest, char_append hdot'', part_append hd hrest,
    Option.bind_eq_bind, Option.bind_some]
  rfl

theorem read_eq_none (h : (cs.dropWhile (isDigit 10)).head? ≠ some '.') : read cs = none := by
  cases hpart : part cs with
  | none => rw [read, hpart]; rfl
  | some found =>
      have hnumber := hpart
      rw [part, Option.bind_eq_bind, Option.bind_eq_some_iff] at hnumber
      obtain ⟨⟨value, left⟩, hnumber, heq⟩ := hnumber
      cases heq
      rw [← rest_of_number hnumber] at h
      simp only [read, hpart, Option.bind_eq_bind, Option.bind_some, char_eq_none h,
        Option.bind_none]

theorem read_digits_eq_none (hdigits : ∀ c ∈ digits, isDigit 16 c) (hrest : EndsNumeral 16 rest)
    (hdot : rest.head? ≠ some '.') : read (digits ++ rest) = none := by
  refine read_eq_none ?_
  rw [List.dropWhile_append]
  split
  · rwa [(hrest.mono (by decide)).dropWhile]
  · rename_i hsome
    have hne : digits.dropWhile (isDigit 10) ≠ [] := by simpa using hsome
    rw [List.head?_append, Option.or_of_isSome (List.isSome_head?.mpr hne)]
    intro hhead
    have hmem := List.mem_of_mem_head? hhead
    have hdigit := hdigits '.' ((List.dropWhile_sublist _).subset hmem)
    exact absurd hdigit (by decide)

theorem read_of_endsNumeral (h : EndsNumeral 10 cs) : read cs = none := by
  rw [read, part, number_eq_none h]
  rfl

end Ipv4

namespace Ipv6

variable {a : Ipv6} {g : UInt16} {gs : List UInt16} {limit : Nat} {first : Bool}

structure EndsGroups (rest : List Char) : Prop where
  digit : EndsNumeral 16 rest
  dot : rest.head? ≠ some '.'
  colon : rest.head? = some ':' → EndsNumeral 16 rest.tail

theorem group_toDigits (g : UInt16) (hrest : EndsNumeral 16 rest) :
    group (Nat.toDigits 16 g.toNat ++ rest) = some (g, rest) := by
  have hlt : g.toNat < 65536 := g.toNat_lt
  have hlength : (Nat.toDigits 16 g.toNat).length ≤ 4 :=
    (Nat.length_toDigits_le_iff (by decide) (by decide)).mpr (by omega)
  rw [group, number_toDigits (by decide) (by decide) hlt (by simpa using hlength) hrest]
  exact congrArg (fun m => some (m, rest)) UInt16.ofNat_toNat

def separator (first : Bool) : List Char :=
  if first then [] else [':']

theorem separated_separator {α : Type} (reader : Reader α) (first : Bool) (cs : List Char) :
    separated first reader (separator first ++ cs) = reader cs := by
  cases first with
  | true => rfl
  | false => simp [separated, separator]

theorem readGroups_group (g : UInt16) (limit : Nat) (first : Bool) (hdigit : EndsNumeral 16 rest)
    (hdot : rest.head? ≠ some '.') :
    readGroups (limit + 1) first (separator first ++ Nat.toDigits 16 g.toNat ++ rest) =
      (g :: (readGroups limit false rest).1, (readGroups limit false rest).2) := by
  have hdotted : Ipv4.read (Nat.toDigits 16 g.toNat ++ rest) = none :=
    Ipv4.read_digits_eq_none (fun _ => isDigit_of_mem_toDigits (by decide) (by decide)) hdigit hdot
  rw [readGroups, List.append_assoc, separated_separator, separated_separator, hdotted, ite_self,
    group_toDigits g hdigit]

theorem readGroups_dotted (a : Ipv4) (first : Bool) (hlimit : limit ≠ 0)
    (hrest : EndsNumeral 10 rest) :
    readGroups (limit + 1) first (separator first ++ a.textChars ++ rest) =
      (a.groups, true, rest) := by
  rw [readGroups, List.append_assoc, if_neg hlimit, separated_separator,
    Ipv4.read_textChars a hrest]

theorem separated_eq_none {α : Type} {reader : Reader α}
    (hreader : ∀ cs, EndsNumeral 16 cs → reader cs = none) (h : EndsGroups rest) (first : Bool) :
    separated first reader rest = none := by
  cases first with
  | true => exact hreader rest h.digit
  | false =>
      by_cases hcolon : rest.head? = some ':'
      · obtain ⟨more, rfl⟩ := List.head?_eq_some_iff.mp hcolon
        exact hreader more (h.colon rfl)
      · simp [separated, char_eq_none hcolon]

theorem readGroups_end (h : EndsGroups rest) (limit : Nat) (first : Bool) :
    readGroups limit first rest = ([], false, rest) := by
  have hgroup : ∀ cs, EndsNumeral 16 cs → group cs = none := fun cs hcs => by
    rw [group, number_eq_none hcs]
    rfl
  have hdotted : ∀ cs, EndsNumeral 16 cs → Ipv4.read cs = none := fun cs hcs =>
    Ipv4.read_of_endsNumeral (hcs.mono (by decide))
  cases limit with
  | zero => rfl
  | succ limit =>
      rw [readGroups, separated_eq_none hgroup h, separated_eq_none hdotted h, ite_self]

def followers (gs : List UInt16) : List Char :=
  gs.flatMap fun g => ':' :: Nat.toDigits 16 g.toNat

theorem groupsText_cons (g : UInt16) (gs : List UInt16) :
    groupsText (g :: gs) = Nat.toDigits 16 g.toNat ++ followers gs := by
  induction gs generalizing g with
  | nil => simp [groupsText, followers]
  | cons next gs ih =>
      have hnext := ih next
      simp only [groupsText, List.map_cons] at hnext ⊢
      rw [List.intercalate_cons_cons, hnext]
      simp [followers]

theorem followers_ends (gs : List UInt16) (h : EndsGroups rest) :
    EndsNumeral 16 (followers gs ++ rest) ∧ (followers gs ++ rest).head? ≠ some '.' := by
  cases gs with
  | nil => exact ⟨h.digit, h.dot⟩
  | cons g gs => exact ⟨.cons (by decide) _, by simp [followers]⟩

theorem readGroups_followers (hlength : gs.length ≤ limit) (h : EndsGroups rest) :
    readGroups limit false (followers gs ++ rest) = (gs, false, rest) := by
  induction gs generalizing limit with
  | nil => exact readGroups_end h limit false
  | cons g gs ih =>
      obtain ⟨limit, rfl⟩ : ∃ n, limit = n + 1 := ⟨limit - 1, by simp at hlength; omega⟩
      obtain ⟨hdigit, hdot⟩ := followers_ends gs h
      have htext : followers (g :: gs) ++ rest =
          separator false ++ Nat.toDigits 16 g.toNat ++ (followers gs ++ rest) := by
        simp [followers, separator]
      rw [htext, readGroups_group g limit false hdigit hdot, ih (Nat.le_of_succ_le_succ hlength)]

/-- As many groups as there is room for are read back from their text. -/
theorem readGroups_groupsText (hlength : gs.length ≤ limit) (h : EndsGroups rest) :
    readGroups limit true (groupsText gs ++ rest) = (gs, false, rest) := by
  cases gs with
  | nil => exact readGroups_end h limit true
  | cons g gs =>
      obtain ⟨limit, rfl⟩ : ∃ n, limit = n + 1 := ⟨limit - 1, by simp at hlength; omega⟩
      obtain ⟨hdigit, hdot⟩ := followers_ends gs h
      have htext : groupsText (g :: gs) ++ rest =
          separator true ++ Nat.toDigits 16 g.toNat ++ (followers gs ++ rest) := by
        simp [groupsText_cons, separator]
      rw [htext, readGroups_group g limit true hdigit hdot,
        readGroups_followers (Nat.le_of_succ_le_succ hlength) h]

theorem ofGroups?_groups (a : Ipv6) : ofGroups? a.groups = some a :=
  dif_pos a.length_eq

theorem endsGroups_doubleColon (more : List Char) : EndsGroups (':' :: ':' :: more) where
  digit := .cons (by decide) _
  dot := by simp
  colon _ := .cons (by decide) _

theorem read_doubleColon {head tail : List UInt16} {more : List Char} {dotted : Bool}
    (hhead : head.length < 8)
    (htail : readGroups (7 - head.length) true more = (tail, dotted, rest))
    (hgroups : head ++ List.replicate (8 - head.length - tail.length) 0 ++ tail = a.groups) :
    read (groupsText head ++ ':' :: ':' :: more) = some (a, rest) := by
  rw [read, readGroups_groupsText hhead.le (endsGroups_doubleColon more)]
  simp only [if_neg hhead.ne, char_cons, htail, hgroups, ofGroups?_groups, Option.bind_eq_bind,
    Option.bind_some, Bool.false_eq_true, if_false]
  rfl

theorem groups_embedded (high low : UInt16) : (embedded high low).groups = [high, low] := by
  have hword (w : UInt16) : (w / 256).toUInt8.toUInt16 * 256 + (w % 256).toUInt8.toUInt16 = w := by
    have hlt : w.toNat < 65536 := w.toNat_lt
    apply UInt16.toNat_inj.mp
    simp
    omega
  simp only [Ipv4.groups, embedded, hword]

theorem take_zeros_drop (groups : List UInt16) (start : Nat) :
    groups.take start ++ List.replicate (zerosAt groups start) 0 ++
      groups.drop (start + zerosAt groups start) = groups := by
  have hsplit := (groups.drop start).takeWhile_append_dropWhile (p := (· = 0))
  have hzeros : List.replicate (zerosAt groups start) 0 =
      (groups.drop start).takeWhile (· = 0) := by
    refine (List.eq_replicate_iff.mpr ⟨rfl, fun g hg => ?_⟩).symm
    simpa using List.mem_takeWhile_imp hg
  have hrest : groups.drop (start + zerosAt groups start) =
      (groups.drop start).dropWhile (· = 0) :=
    calc groups.drop (start + zerosAt groups start)
      _ = (groups.drop start).drop (zerosAt groups start) := List.drop_drop.symm
      _ = ((groups.drop start).takeWhile (· = 0) ++ (groups.drop start).dropWhile (· = 0)).drop
            ((groups.drop start).takeWhile (· = 0)).length := by rw [hsplit]; rfl
      _ = (groups.drop start).dropWhile (· = 0) := List.drop_left
  rw [hzeros, hrest, List.append_assoc, hsplit, List.take_append_drop]

theorem read_mapped (high low : UInt16) (h : EndsGroups rest)
    (ha : a.groups = [0, 0, 0, 0, 0, 0xffff, high, low]) :
    read ("::ffff:".toList ++ (embedded high low).textChars ++ rest) = some (a, rest) := by
  have hffff : Nat.toDigits 16 (0xffff : UInt16).toNat = ['f', 'f', 'f', 'f'] := by decide
  have htext : "::ffff:".toList ++ (embedded high low).textChars ++ rest =
      groupsText [] ++ ':' :: ':' :: (separator true ++ Nat.toDigits 16 (0xffff : UInt16).toNat ++
        (separator false ++ (embedded high low).textChars ++ rest)) := by
    rw [hffff]
    simp [groupsText, separator]
  have hcolon : EndsNumeral 16 (separator false ++ (embedded high low).textChars ++ rest) :=
    .cons (by decide) _
  have htail : readGroups 7 true (separator true ++ Nat.toDigits 16 (0xffff : UInt16).toNat ++
      (separator false ++ (embedded high low).textChars ++ rest)) =
        ([0xffff, high, low], true, rest) := by
    rw [readGroups_group 0xffff 6 true hcolon (by simp [separator]),
      readGroups_dotted _ false (by decide) (h.digit.mono (by decide)), groups_embedded]
  have hhead : ([] : List UInt16).length < 8 := by decide
  rw [htext]
  exact read_doubleColon hhead htail ha.symm

theorem read_compressed {start zeros : Nat} (h : EndsGroups rest) (hzeros : 0 < zeros)
    (hgroups : a.groups.take start ++ List.replicate zeros 0 ++ a.groups.drop (start + zeros) =
      a.groups) :
    read (groupsText (a.groups.take start) ++
      ':' :: ':' :: (groupsText (a.groups.drop (start + zeros)) ++ rest)) = some (a, rest) := by
  have hlength := a.length_eq
  have hlengths := congrArg List.length hgroups
  simp only [List.length_append, List.length_take, List.length_replicate, List.length_drop]
    at hlengths
  have hhead : (a.groups.take start).length < 8 := by
    rw [List.length_take]
    omega
  have htail : (a.groups.drop (start + zeros)).length ≤ 7 - (a.groups.take start).length := by
    rw [List.length_take, List.length_drop]
    omega
  refine read_doubleColon hhead (readGroups_groupsText htail h) ?_
  have hmissing : 8 - (a.groups.take start).length - (a.groups.drop (start + zeros)).length =
      zeros := by
    rw [List.length_take, List.length_drop]
    omega
  rw [hmissing, hgroups]

theorem read_full (a : Ipv6) (h : EndsGroups rest) :
    read (groupsText a.groups ++ rest) = some (a, rest) := by
  rw [read, readGroups_groupsText a.length_eq.le h]
  simp only [if_pos a.length_eq, ofGroups?_groups, Option.bind_eq_bind, Option.bind_some]
  rfl

/-- Every address is read back from its text. -/
theorem read_textChars (a : Ipv6) (h : EndsGroups rest) :
    read (a.textChars ++ rest) = some (a, rest) := by
  rw [textChars]
  split
  · exact read_mapped _ _ h ‹_›
  · dsimp only
    split
    · rw [List.append_assoc, List.cons_append, List.cons_append]
      exact read_compressed h (Nat.lt_of_succ_lt ‹_›) (take_zeros_drop _ _)
    · exact read_full a h

end Ipv6

theorem Ip.read_v4 {ip : Ipv4} (h : Ip.read cs = some (.v4 ip, left)) :
    Ipv4.read cs = some (ip, left) := by
  rw [read] at h
  split at h
  · cases h
    assumption
  · rw [Option.map_eq_some_iff] at h
    obtain ⟨_, -, heq⟩ := h
    cases heq

end PeerBook
