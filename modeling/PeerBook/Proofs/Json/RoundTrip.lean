import PeerBook.Json.Parser
import PeerBook.Proofs.Json.Lexing

namespace PeerBook.Json

namespace Parse

theorem run_firstItem (stack : List Frame) (value : Json) (rest : List Token) :
    run ⟨.items [] :: stack, .firstItem⟩ (value.tokens ++ rest) =
      run ⟨.items [] :: stack, .value⟩ (value.tokens ++ rest) := by
  cases value with
  | null | bool | num | str => rfl
  | arr items => cases items <;> rfl
  | obj members => cases members <;> rfl

mutual

theorem run_tokens (stack : List Frame) (value : Json) (rest : List Token) :
    run ⟨stack, .value⟩ (value.tokens ++ rest) = run ⟨stack, .next value⟩ rest := by
  cases value with
  | null | bool | num | str => rfl
  | arr items =>
      cases items with
      | nil => rfl
      | cons item items =>
          calc run ⟨stack, .value⟩ ((arr (item :: items)).tokens ++ rest)
              = run ⟨.items [] :: stack, .firstItem⟩
                  (item.tokens ++ (itemTokens items ++ rest)) := by
                rw [tokens, List.append_assoc]; rfl
            _ = run ⟨.items [] :: stack, .next item⟩ (itemTokens items ++ rest) := by
                rw [run_firstItem, run_tokens]
            _ = run ⟨stack, .next (arr (item :: items))⟩ rest :=
                run_itemTokens stack [] item items rest
  | obj members =>
      cases members with
      | nil => rfl
      | cons member members =>
          obtain ⟨key, value⟩ := member
          calc run ⟨stack, .value⟩ ((obj ((key, value) :: members)).tokens ++ rest)
              = run ⟨.members [] key :: stack, .value⟩
                  (value.tokens ++ (memberTokens members ++ rest)) := by
                rw [tokens, List.append_assoc]; rfl
            _ = run ⟨.members [] key :: stack, .next value⟩ (memberTokens members ++ rest) := by
                rw [run_tokens]
            _ = run ⟨stack, .next (obj ((key, value) :: members))⟩ rest :=
                run_memberTokens stack [] key value members rest

theorem run_itemTokens (stack : List Frame) (done : List Json) (value : Json) (items : List Json)
    (rest : List Token) :
    run ⟨.items done :: stack, .next value⟩ (itemTokens items ++ rest) =
      run ⟨stack, .next (arr (done.reverse ++ value :: items))⟩ rest := by
  cases items with
  | nil =>
      rw [← List.reverse_cons]
      rfl
  | cons item items =>
      calc run ⟨.items done :: stack, .next value⟩ (itemTokens (item :: items) ++ rest)
          = run ⟨.items (value :: done) :: stack, .value⟩
              (item.tokens ++ (itemTokens items ++ rest)) := by
            rw [itemTokens, List.append_assoc]; rfl
        _ = run ⟨.items (value :: done) :: stack, .next item⟩ (itemTokens items ++ rest) := by
            rw [run_tokens]
        _ = run ⟨stack, .next (arr (done.reverse ++ value :: item :: items))⟩ rest := by
            rw [run_itemTokens, List.reverse_cons, List.append_assoc]; rfl

theorem run_memberTokens (stack : List Frame) (done : List (Option String × Json))
    (key : Option String) (value : Json) (members : List (Option String × Json))
    (rest : List Token) :
    run ⟨.members done key :: stack, .next value⟩ (memberTokens members ++ rest) =
      run ⟨stack, .next (obj (done.reverse ++ (key, value) :: members))⟩ rest := by
  cases members with
  | nil =>
      rw [← List.reverse_cons]
      rfl
  | cons member members =>
      obtain ⟨later, item⟩ := member
      calc run ⟨.members done key :: stack, .next value⟩
            (memberTokens ((later, item) :: members) ++ rest)
          = run ⟨.members ((key, value) :: done) later :: stack, .value⟩
              (item.tokens ++ (memberTokens members ++ rest)) := by
            rw [memberTokens, List.append_assoc]; rfl
        _ = run ⟨.members ((key, value) :: done) later :: stack, .next item⟩
              (memberTokens members ++ rest) := by
            rw [run_tokens]
        _ = run ⟨stack, .next (obj (done.reverse ++ (key, value) :: (later, item) :: members))⟩
              rest := by
            rw [run_memberTokens, List.reverse_cons, List.append_assoc]; rfl

end

end Parse

theorem ofTokens?_tokens (value : Json) : ofTokens? value.tokens = some value := by
  have hrun := Parse.run_tokens [] value []
  rw [List.append_nil] at hrun
  rw [ofTokens?, Parse.start, hrun]
  rfl

def Apart (tokens : List Token) : Prop :=
  tokens.IsChain fun s t => s.isNum → t.isNum = false

theorem Apart.append {ts us : List Token} (hts : Apart ts) (hus : Apart us)
    (h : ∀ t ∈ us.head?, t.isNum = false) : Apart (ts ++ us) :=
  List.isChain_append.mpr ⟨hts, hus, fun _ _ t ht _ => h t ht⟩

theorem Apart.cons {t : Token} {ts : List Token} (ht : t.isNum = false) (hts : Apart ts) :
    Apart (t :: ts) :=
  List.isChain_cons.mpr ⟨fun _ _ hnum => absurd hnum (by simp [ht]), hts⟩

mutual

theorem apart_tokens (value : Json) : Apart value.tokens := by
  cases value with
  | null | bool | num | str => exact .singleton _
  | arr items =>
      cases items with
      | nil => exact .cons rfl (.singleton _)
      | cons item items =>
          exact .cons rfl ((apart_tokens item).append (apart_itemTokens items).1
            (apart_itemTokens items).2)
  | obj members =>
      cases members with
      | nil => exact .cons rfl (.singleton _)
      | cons member members =>
          exact .cons rfl (.cons rfl (.cons rfl ((apart_tokens member.2).append
            (apart_memberTokens members).1 (apart_memberTokens members).2)))

theorem apart_itemTokens (items : List Json) :
    Apart (itemTokens items) ∧ ∀ t ∈ (itemTokens items).head?, t.isNum = false := by
  cases items with
  | nil => exact ⟨.singleton _, by simp [itemTokens, Token.isNum]⟩
  | cons item items =>
      refine ⟨.cons rfl ((apart_tokens item).append (apart_itemTokens items).1
        (apart_itemTokens items).2), ?_⟩
      simp [itemTokens, Token.isNum]

theorem apart_memberTokens (members : List (Option String × Json)) :
    Apart (memberTokens members) ∧ ∀ t ∈ (memberTokens members).head?, t.isNum = false := by
  cases members with
  | nil => exact ⟨.singleton _, by simp [memberTokens, Token.isNum]⟩
  | cons member members =>
      refine ⟨.cons rfl (.cons rfl (.cons rfl ((apart_tokens member.2).append
        (apart_memberTokens members).1 (apart_memberTokens members).2))), ?_⟩
      simp [memberTokens, Token.isNum]

end

/-- All numbers in the value are natural numbers, and all strings and keys are texts. -/
def Plain (value : Json) : Prop :=
  ∀ token ∈ value.tokens, token.Plain

/-- The tokens of a text in their order, each behind nothing but blanks. -/
structure Lays (laid : List (List Char × Token)) (tokens : List Token) : Prop where
  tokens : laid.map Prod.snd = tokens
  blank : ∀ p ∈ laid, ∀ c ∈ p.1, Mode.isSpace c

theorem ofText?_of_lays {laid : List (List Char × Token)} {value : Json}
    (h : Lays laid value.tokens) (hplain : value.Plain) :
    ofText? (String.ofList (laid.flatMap fun p => p.1 ++ p.2.spell)) = some value := by
  have hread := tokensFrom_spell laid h.blank
    (fun p hp => hplain p.2 (h.tokens ▸ List.mem_map_of_mem hp)) (h.tokens ▸ apart_tokens value) []
  rw [List.reverse_nil, List.nil_append, h.tokens, ← tokens?_eq] at hread
  rw [ofText?, ofGlyphs?, Text.glyphsOfText, String.toList_ofList, hread, Option.bind_some,
    ofTokens?_tokens]

namespace Lays

variable {laid more : List (List Char × Token)} {ts us : List Token} {blanks : List Char}

theorem nil : Lays [] [] :=
  ⟨rfl, List.forall_mem_nil _⟩

theorem cons (hblanks : ∀ c ∈ blanks, Mode.isSpace c) (token : Token) (h : Lays laid ts) :
    Lays ((blanks, token) :: laid) (token :: ts) :=
  ⟨congrArg (token :: ·) h.tokens, List.forall_mem_cons.mpr ⟨hblanks, h.blank⟩⟩

theorem tight (token : Token) (h : Lays laid ts) : Lays (([], token) :: laid) (token :: ts) :=
  h.cons (List.forall_mem_nil _) token

theorem append (h : Lays laid ts) (hmore : Lays more us) : Lays (laid ++ more) (ts ++ us) :=
  ⟨by rw [List.map_append, h.tokens, hmore.tokens],
    List.forall_mem_append.mpr ⟨h.blank, hmore.blank⟩⟩

theorem after (hblanks : ∀ c ∈ blanks, Mode.isSpace c) (h : Lays laid ts) :
    Lays (after blanks laid) ts := by
  cases laid with
  | nil => exact h
  | cons p laid =>
      obtain ⟨-, hothers⟩ := List.forall_mem_cons.mp h.blank
      exact ⟨h.tokens, List.forall_mem_cons.mpr ⟨hblanks, hothers⟩⟩

end Lays

theorem lays_compact (ts : List Token) : Lays (ts.map fun token => ([], token)) ts := by
  induction ts with
  | nil => exact .nil
  | cons token ts ih => exact .tight token ih

theorem ofText?_compact {value : Json} (h : value.Plain) :
    ofText? value.compact = some value := by
  have hread := ofText?_of_lays (lays_compact value.tokens) h
  rwa [List.flatMap_map] at hread

theorem isSpace_newline (depth : Nat) : ∀ c ∈ newline depth, Mode.isSpace c := by
  refine List.forall_mem_cons.mpr ⟨rfl, fun c hc => ?_⟩
  obtain rfl := List.eq_of_mem_replicate hc
  rfl

theorem isSpace_blank : ∀ c ∈ [' '], Mode.isSpace c :=
  List.forall_mem_singleton.mpr rfl

mutual

theorem lays_laidOut (depth : Nat) (value : Json) : Lays (laidOut depth value) value.tokens := by
  cases value with
  | null | bool | num | str => exact .tight _ .nil
  | arr items =>
      cases items with
      | nil => exact .tight _ (.tight _ .nil)
      | cons item items =>
          exact .tight _ (((lays_laidOut (depth + 1) item).after (isSpace_newline _)).append
            (lays_laidOutItems depth items))
  | obj members =>
      cases members with
      | nil => exact .tight _ (.tight _ .nil)
      | cons member members =>
          exact .tight _ (.cons (isSpace_newline _) _ (.tight _
            (((lays_laidOut (depth + 1) member.2).after isSpace_blank).append
              (lays_laidOutMembers depth members))))

theorem lays_laidOutItems (depth : Nat) (items : List Json) :
    Lays (laidOutItems depth items) (itemTokens items) := by
  cases items with
  | nil => exact .cons (isSpace_newline _) _ .nil
  | cons item items =>
      exact .tight _ (((lays_laidOut (depth + 1) item).after (isSpace_newline _)).append
        (lays_laidOutItems depth items))

theorem lays_laidOutMembers (depth : Nat) (members : List (Option String × Json)) :
    Lays (laidOutMembers depth members) (memberTokens members) := by
  cases members with
  | nil => exact .cons (isSpace_newline _) _ .nil
  | cons member members =>
      exact .tight _ (.cons (isSpace_newline _) _ (.tight _
        (((lays_laidOut (depth + 1) member.2).after isSpace_blank).append
          (lays_laidOutMembers depth members))))

end

theorem ofText?_pretty {value : Json} (h : value.Plain) : ofText? value.pretty = some value :=
  ofText?_of_lays (lays_laidOut 0 value) h

theorem plain_text (s : String) : (text s).Plain := by
  simp [Plain, text, tokens, Token.Plain]

theorem plain_nat (n : Nat) : (nat n).Plain := by
  simp only [Plain, nat, tokens, List.mem_singleton, forall_eq]
  exact ⟨n, rfl⟩

theorem plain_itemTokens {items : List Json} (h : ∀ item ∈ items, item.Plain) :
    ∀ token ∈ itemTokens items, token.Plain := by
  induction items with
  | nil => simp [itemTokens, Token.Plain]
  | cons item items ih =>
      obtain ⟨hitem, hitems⟩ := List.forall_mem_cons.mp h
      simp only [itemTokens, List.cons_append, List.forall_mem_cons, List.forall_mem_append]
      exact ⟨trivial, hitem, ih hitems⟩

theorem plain_arr {items : List Json} (h : ∀ item ∈ items, item.Plain) : (arr items).Plain := by
  cases items with
  | nil => simp [Plain, tokens, Token.Plain]
  | cons item items =>
      obtain ⟨hitem, hitems⟩ := List.forall_mem_cons.mp h
      simp only [Plain, tokens, List.cons_append, List.forall_mem_cons, List.forall_mem_append]
      exact ⟨trivial, hitem, plain_itemTokens hitems⟩

theorem plain_memberTokens {members : List (String × Json)} (h : ∀ m ∈ members, m.2.Plain) :
    ∀ token ∈ memberTokens (members.map fun (key, value) => (some key, value)), token.Plain := by
  induction members with
  | nil => simp [memberTokens, Token.Plain]
  | cons member members ih =>
      obtain ⟨hmember, hmembers⟩ := List.forall_mem_cons.mp h
      simp only [List.map_cons, memberTokens, List.cons_append, List.forall_mem_cons,
        List.forall_mem_append]
      exact ⟨trivial, rfl, trivial, hmember, ih hmembers⟩

theorem plain_object {members : List (String × Json)} (h : ∀ m ∈ members, m.2.Plain) :
    (object members).Plain := by
  cases members with
  | nil => simp [Plain, object, tokens, Token.Plain]
  | cons member members =>
      obtain ⟨hmember, hmembers⟩ := List.forall_mem_cons.mp h
      simp only [Plain, object, List.map_cons, tokens, List.cons_append, List.forall_mem_cons,
        List.forall_mem_append]
      exact ⟨trivial, rfl, trivial, hmember, plain_memberTokens hmembers⟩

theorem asNat?_nat {bound n : Nat} (h : n < bound) : (nat n).asNat? bound = some n := by
  simp [nat, asNat?, Numeral.toNat?_ofNat, h]

theorem asUInt16?_nat (n : UInt16) : (nat n.toNat).asUInt16? = some n := by
  rw [asUInt16?, asNat?_nat n.toNat_lt_size, Option.map_some, UInt16.ofNat_toNat]

theorem asUInt64?_nat (n : UInt64) : (nat n.toNat).asUInt64? = some n := by
  rw [asUInt64?, asNat?_nat n.toNat_lt_size, Option.map_some, UInt64.ofNat_toNat]

end PeerBook.Json
