import Mathlib.Data.List.Chain
import PeerBook.Json.Token
import PeerBook.Proofs.Json.Decimal

namespace PeerBook.Json

def Reads (s : List Token × Mode) (cs : List Char) (t : List Token × Mode) : Prop :=
  lexFrom s (cs.map some) = some t

theorem lexFrom_cons (tokens : List Token) (mode : Mode) (glyph : Text.Glyph)
    (glyphs : List Text.Glyph) :
    lexFrom (tokens, mode) (glyph :: glyphs) =
      (mode.step glyph).bind fun next => lexFrom (next.1.reverse ++ tokens, next.2) glyphs := by
  cases h : mode.step glyph <;> simp [lexFrom, List.foldlM_cons, h]

namespace Reads

variable {s t u : List Token × Mode} {cs ds : List Char} {acc : List Token} {m n : Mode} {c : Char}

theorem nil (s : List Token × Mode) : Reads s [] s := rfl

theorem lexFrom_append (h : Reads s cs t) (glyphs : List Text.Glyph) :
    lexFrom s (cs.map some ++ glyphs) = lexFrom t glyphs := by
  rw [Reads, lexFrom] at h
  rw [lexFrom, List.foldlM_append, h]
  rfl

theorem trans (h : Reads s cs t) (h' : Reads t ds u) : Reads s (cs ++ ds) u := by
  rw [Reads, List.map_append, h.lexFrom_append]
  exact h'

theorem skip (h : m.step (some c) = some ([], n)) (h' : Reads (acc, n) cs t) :
    Reads (acc, m) (c :: cs) t := by
  rw [Reads, List.map_cons, lexFrom_cons, h]
  exact h'

theorem last (h : m.step (some c) = some ([], n)) : Reads (acc, m) [c] (acc, n) :=
  skip h (nil _)

theorem emit {token : Token} (h : m.step (some c) = some ([token], n)) :
    Reads (acc, m) [c] (token :: acc, n) := by
  rw [Reads, List.map_cons, lexFrom_cons, h]
  rfl

theorem blanks (h : ∀ c ∈ cs, Mode.isSpace c) : Reads (acc, .gap) cs (acc, .gap) := by
  induction cs with
  | nil => exact nil _
  | cons c cs ih =>
      obtain ⟨hc, hcs⟩ := List.forall_mem_cons.mp h
      refine skip ?_ (ih hcs)
      rw [Mode.step, Mode.stepGap, if_pos hc]

theorem escape (draft : Draft) (h : draft.high = none) (c : Char) :
    Reads (acc, .quoted draft) (escape c) (acc, .quoted (draft.push c)) := by
  rw [Json.escape]
  cases hlookup : letterEscapes.lookup c with
  | some letter =>
      have hletters : ∀ p ∈ letterEscapes, p.2 ≠ 'u' ∧ Mode.unescape? p.2 = some p.1 := by decide
      obtain ⟨before, after, hsplit, -⟩ := List.lookup_eq_some_iff.mp hlookup
      obtain ⟨hu, hback⟩ := hletters (c, letter) (by simp [hsplit])
      refine skip rfl (last ?_)
      rw [Mode.step, Mode.stepEscaped, if_neg hu, hback]
      rfl
  | none =>
      by_cases hcontrol : c.toNat < 0x20
      · have hhigh : Octets.hexValue? (Octets.hexDigit (c.toNat / 16)) = some (c.toNat / 16) := by
          have hall : ∀ d < 16, Octets.hexValue? (Octets.hexDigit d) = some d := by decide
          exact hall _ (by omega)
        have hlow : Octets.hexValue? (Octets.hexDigit (c.toNat % 16)) = some (c.toNat % 16) := by
          have hall : ∀ d < 16, Octets.hexValue? (Octets.hexDigit d) = some d := by decide
          exact hall _ (by omega)
        have hunit : ((0 * 16 + 0) * 16 + 0) * 16 + c.toNat / 16 = c.toNat / 16 := by omega
        have hcode : c.toNat / 16 * 16 + c.toNat % 16 = c.toNat := by omega
        have hpush : draft.pushUnit c.toNat = draft.push c := by
          have hpair : Draft.isHigh c.toNat = false ∧ Draft.isLow c.toNat = false := by
            simp only [Draft.isHigh, Draft.isLow, Bool.and_eq_false_iff, decide_eq_false_iff_not]
            omega
          simp [Draft.pushUnit, h, hpair, Char.ofNat_toNat]
        rw [if_pos hcontrol]
        refine skip rfl (skip rfl (skip rfl (skip rfl
          (skip (n := .coded draft 1 (c.toNat / 16)) ?_ (last ?_)))))
        · simp [Mode.step, Mode.stepCoded, hhigh]
        · simp [Mode.step, Mode.stepCoded, hlow, hcode, hpush]
      · have hother : ∀ p ∈ letterEscapes, c ≠ p.1 := by
          rintro p hp rfl
          have hsome : ∀ p ∈ letterEscapes, letterEscapes.lookup p.1 ≠ none := by decide
          exact hsome p hp hlookup
        rw [if_neg hcontrol]
        refine last ?_
        rw [Mode.step, Mode.stepQuoted, if_neg (hother ('"', '"') (by decide)),
          if_neg (hother ('\\', '\\') (by decide)), if_neg hcontrol]

theorem escapes (draft : Draft) (h : draft.high = none) (cs : List Char) :
    Reads (acc, .quoted draft) (cs.flatMap Json.escape)
      (acc, .quoted (cs.foldl Draft.push draft)) := by
  induction cs generalizing draft with
  | nil => exact nil _
  | cons c cs ih => exact (escape draft h c).trans (ih _ rfl)

end Reads

theorem Draft.text?_foldl_push (draft : Draft) (h : draft.high = none) (ht : draft.isText)
    (cs : List Char) :
    (cs.foldl Draft.push draft).text? = some (String.ofList (draft.chars.reverse ++ cs)) := by
  induction cs generalizing draft with
  | nil => simp [text?, h, ht]
  | cons c cs ih =>
      rw [List.foldl_cons, ih (draft.push c) rfl (by simp [push, h, ht])]
      simp [push]

namespace Reads

variable {acc : List Token}

theorem quote (text : String) :
    Reads (acc, .gap) (quote text) (.str (some text) :: acc, .gap) := by
  refine skip rfl ((escapes {} rfl text.toList).trans (emit ?_))
  have htext := Draft.text?_foldl_push {} rfl rfl text.toList
  rw [Mode.step, Mode.stepQuoted, if_pos rfl, htext]
  simp

end Reads

namespace Token

def isNum : Token → Bool
  | num _ => true
  | _ => false

/-- Whether the token is one that is written: numbers are natural numbers and strings are texts. -/
def Plain : Token → Prop
  | num numeral => ∃ n, numeral = .ofNat n
  | str text => text.isSome
  | _ => True

theorem exists_spell_eq_cons {token : Token} (h : token.isNum = false) :
    ∃ c cs, token.spell = c :: cs ∧ Numeral.isPart c = false := by
  cases token with
  | num => cases h
  | bool value => cases value <;> exact ⟨_, _, rfl, by decide⟩
  | openObject | closeObject | openArray | closeArray | colon | comma | null | str =>
      exact ⟨_, _, rfl, by decide⟩

end Token

namespace Reads

variable {acc : List Token}

theorem spell {token : Token} (hplain : token.Plain) (h : token.isNum = false) :
    Reads (acc, .gap) token.spell (token :: acc, .gap) := by
  cases token with
  | num => cases h
  | str text =>
      obtain ⟨text, rfl⟩ := Option.isSome_iff_exists.mp hplain
      exact quote text
  | bool value => cases value <;> rfl
  | openObject | closeObject | openArray | closeArray | colon | comma | null => rfl

theorem parts {cs ds : List Char} (h : ∀ c ∈ ds, Numeral.isPart c) :
    Reads (acc, .number cs) ds (acc, .number (ds.reverse ++ cs)) := by
  induction ds generalizing cs with
  | nil => exact nil _
  | cons d ds ih =>
      obtain ⟨hd, hds⟩ := List.forall_mem_cons.mp h
      rw [List.reverse_cons, List.append_assoc]
      refine skip ?_ (ih hds)
      rw [Mode.step, if_pos hd]
      rfl

theorem digits (n : Nat) :
    Reads (acc, .gap) (Nat.toDigits 10 n) (acc, .number (Nat.toDigits 10 n).reverse) := by
  have hpart : ∀ c ∈ Nat.toDigits 10 n, Numeral.isPart c := fun c hc =>
    Numeral.isPart_of_isDigit (Numeral.isDigit_of_mem hc)
  cases hdigits : Nat.toDigits 10 n with
  | nil => exact (Nat.toDigits_ne_nil hdigits).elim
  | cons c cs =>
      have hstart : ∀ k < 58, 48 ≤ k → Mode.stepGap (Char.ofNat k) =
          some ([], .number [Char.ofNat k]) := by decide
      have hdigit : c.isDigit := Numeral.isDigit_of_mem (hdigits ▸ List.mem_cons_self)
      rw [Char.isDigit, Bool.and_eq_true, decide_eq_true_eq, decide_eq_true_eq] at hdigit
      have hc := hstart c.toNat (Nat.lt_succ_of_le hdigit.2) hdigit.1
      rw [Char.ofNat_toNat] at hc
      rw [hdigits] at hpart
      rw [List.reverse_cons]
      exact skip hc (parts (List.forall_mem_cons.mp hpart).2)

end Reads

def tokensFrom (state : List Token × Mode) (glyphs : List Text.Glyph) : Option (List Token) :=
  (lexFrom state glyphs).bind fun (tokens, mode) =>
    mode.finish.map fun last => (last.reverse ++ tokens).reverse

theorem tokens?_eq (glyphs : List Text.Glyph) : tokens? glyphs = tokensFrom ([], .gap) glyphs := by
  rw [tokens?, tokensFrom]
  cases lexFrom ([], .gap) glyphs with
  | none => rfl
  | some state => cases h : state.2.finish <;> simp [h]

theorem Reads.tokensFrom_append {s t : List Token × Mode} {cs : List Char} (h : Reads s cs t)
    (ds : List Char) : tokensFrom s ((cs ++ ds).map some) = tokensFrom t (ds.map some) := by
  rw [tokensFrom, List.map_append, h.lexFrom_append, tokensFrom]

/-- A numeral is complete where the text ends or goes on with something else. -/
theorem tokensFrom_number {acc : List Token} {cs rest : List Char} {numeral : Numeral}
    (h : Numeral.ofChars? cs.reverse = some numeral)
    (hrest : ∀ c ∈ rest.head?, Numeral.isPart c = false) :
    tokensFrom (acc, .number cs) (rest.map some) =
      tokensFrom (.num numeral :: acc, .gap) (rest.map some) := by
  cases rest with
  | nil => simp [tokensFrom, lexFrom, Mode.finish, h]
  | cons c rest =>
      have hc : Numeral.isPart c = false := hrest c rfl
      have hstep : (Mode.number cs).step (some c) =
          (Mode.stepGap c).map fun next => (.num numeral :: next.1, next.2) := by
        rw [Mode.step, if_neg (by simp [hc]), h]
        cases Mode.stepGap c <;> rfl
      rw [tokensFrom, tokensFrom, List.map_cons, lexFrom_cons, lexFrom_cons, hstep, Mode.step]
      cases Mode.stepGap c <;> simp

/-- Tokens are read back from their spellings, each behind any blanks. -/
theorem tokensFrom_spell (laid : List (List Char × Token))
    (hblank : ∀ p ∈ laid, ∀ c ∈ p.1, Mode.isSpace c) (hplain : ∀ p ∈ laid, p.2.Plain)
    (hapart : (laid.map Prod.snd).IsChain fun s t => s.isNum → t.isNum = false)
    (acc : List Token) :
    tokensFrom (acc, .gap) ((laid.flatMap fun p => p.1 ++ p.2.spell).map some) =
      some (acc.reverse ++ laid.map Prod.snd) := by
  induction laid generalizing acc with
  | nil => simp [tokensFrom, lexFrom, Mode.finish]
  | cons p laid ih =>
      obtain ⟨blanks, token⟩ := p
      obtain ⟨hfirst, hothers⟩ := List.forall_mem_cons.mp hblank
      obtain ⟨htoken, hplain⟩ := List.forall_mem_cons.mp hplain
      have hlater (acc : List Token) := ih hothers hplain hapart.tail acc
      rw [List.flatMap_cons, List.append_assoc, (Reads.blanks hfirst).tokensFrom_append]
      cases hnum : token.isNum with
      | false =>
          rw [(Reads.spell htoken hnum).tokensFrom_append, hlater]
          simp
      | true =>
          obtain ⟨n, rfl⟩ : ∃ n, token = .num (.ofNat n) := by
            cases token with
            | num numeral =>
                obtain ⟨n, rfl⟩ := htoken
                exact ⟨n, rfl⟩
            | _ => cases hnum
          have hnext : ∀ c ∈ (laid.flatMap fun p => p.1 ++ p.2.spell).head?,
              Numeral.isPart c = false := by
            cases laid with
            | nil => simp
            | cons q laid =>
                obtain ⟨between, next⟩ := q
                have hnext : next.isNum = false := (List.isChain_cons_cons.mp hapart).1 rfl
                obtain ⟨c, cs, hspell, hc⟩ := Token.exists_spell_eq_cons hnext
                cases between with
                | nil => simpa [hspell] using hc
                | cons b between =>
                    have hb : Mode.isSpace b :=
                      hothers (b :: between, next) List.mem_cons_self b List.mem_cons_self
                    have hpart : Numeral.isPart b = false := by
                      simp only [Mode.isSpace, Bool.or_eq_true, beq_iff_eq] at hb
                      rcases hb with ((rfl | rfl) | rfl) | rfl <;> rfl
                    simpa using hpart
          rw [Token.spell, Numeral.spell_ofNat, (Reads.digits n).tokensFrom_append,
            tokensFrom_number (by rw [List.reverse_reverse, Numeral.ofChars?_toDigits]) hnext,
            hlater]
          simp

end PeerBook.Json
