import PeerBook.Proofs.Json.RoundTrip

namespace PeerBook.Json

def commaItems (items : List Json) : List Token :=
  items.flatMap fun item => item.tokens ++ [.comma]

def commaMembers (members : List (Option String × Json)) : List Token :=
  members.flatMap fun (key, value) => .str key :: .colon :: value.tokens ++ [.comma]

theorem itemTokens_append (items : List Json) (item : Json) :
    itemTokens (items ++ [item]) =
      .comma :: commaItems items ++ item.tokens ++ [.closeArray] := by
  induction items with
  | nil => simp [itemTokens, commaItems]
  | cons first items ih => simp [itemTokens, commaItems, ih]

theorem tokens_arr (items : List Json) (item : Json) :
    (arr (items ++ [item])).tokens =
      .openArray :: commaItems items ++ item.tokens ++ [.closeArray] := by
  cases items with
  | nil => simp [tokens, itemTokens, commaItems]
  | cons first items => simp [tokens, itemTokens_append, commaItems]

theorem memberTokens_append (members : List (Option String × Json)) (key : Option String)
    (value : Json) :
    memberTokens (members ++ [(key, value)]) =
      .comma :: commaMembers members ++ [.str key, .colon] ++ value.tokens ++ [.closeObject] := by
  induction members with
  | nil => simp [memberTokens, commaMembers]
  | cons first members ih => simp [memberTokens, commaMembers, ih]

theorem tokens_obj (members : List (Option String × Json)) (key : Option String) (value : Json) :
    (obj (members ++ [(key, value)])).tokens =
      .openObject :: commaMembers members ++ [.str key, .colon] ++ value.tokens ++
        [.closeObject] := by
  cases members with
  | nil => simp [tokens, memberTokens, commaMembers]
  | cons first members => simp [tokens, memberTokens_append, commaMembers]

def Frame.consumed : Frame → List Token
  | .items done => .openArray :: commaItems done.reverse
  | .members done key => .openObject :: commaMembers done.reverse ++ [.str key, .colon]

def Expect.consumed : Expect → List Token
  | .value | .firstItem => []
  | .firstKey => [.openObject]
  | .key done => .openObject :: commaMembers done.reverse
  | .colon done name => .openObject :: commaMembers done.reverse ++ [.str name]
  | .next complete => complete.tokens

namespace Parse

def consumed (parse : Parse) : List Token :=
  parse.stack.reverse.flatMap Frame.consumed ++ parse.expect.consumed

theorem consumed_stepValue {stack : List Frame} {token : Token} {next : Parse}
    (h : stepValue stack token = some next) :
    next.consumed = stack.reverse.flatMap Frame.consumed ++ [token] := by
  cases token <;> cases h <;>
    simp [consumed, Expect.consumed, Frame.consumed, tokens, commaItems]

theorem consumed_stepNext {value : Json} {stack : List Frame} {token : Token} {next : Parse}
    (h : stepNext value stack token = some next) :
    next.consumed = consumed ⟨stack, .next value⟩ ++ [token] := by
  unfold stepNext at h
  split at h <;> cases h <;>
    simp [consumed, Expect.consumed, Frame.consumed, commaItems, commaMembers, tokens_arr,
      tokens_obj]

theorem step_firstItem {stack : List Frame} {token : Token} {next : Parse}
    (h : step ⟨stack, .firstItem⟩ token = some next) :
    stepValue stack token = some next ∨
      ∃ below, stack = .items [] :: below ∧ token = .closeArray ∧
        next = ⟨below, .next (arr [])⟩ := by
  cases stack with
  | nil => exact .inl h
  | cons frame below =>
      cases frame with
      | members => exact .inl h
      | items done =>
          cases done with
          | cons => exact .inl h
          | nil =>
              cases token with
              | closeArray =>
                  cases h
                  exact .inr ⟨below, rfl, rfl, rfl⟩
              | _ => exact .inl h

theorem consumed_step {parse next : Parse} {token : Token} (h : parse.step token = some next) :
    next.consumed = parse.consumed ++ [token] := by
  obtain ⟨stack, expect⟩ := parse
  cases expect with
  | value => simpa [consumed, Expect.consumed] using consumed_stepValue h
  | firstItem =>
      rcases step_firstItem h with hvalue | ⟨below, rfl, rfl, rfl⟩
      · simpa [consumed, Expect.consumed] using consumed_stepValue hvalue
      · simp [consumed, Expect.consumed, Frame.consumed, commaItems, tokens]
  | firstKey =>
      cases token with
      | closeObject | str =>
          cases h
          simp [consumed, Expect.consumed, tokens, commaMembers]
      | _ => cases h
  | key done =>
      cases token with
      | str name =>
          cases h
          simp [consumed, Expect.consumed]
      | _ => cases h
  | colon done name =>
      cases token with
      | colon =>
          cases h
          simp [consumed, Expect.consumed, Frame.consumed]
      | _ => cases h
  | next value => exact consumed_stepNext h

theorem consumed_run {parse last : Parse} {ts : List Token} (h : parse.run ts = some last) :
    last.consumed = parse.consumed ++ ts := by
  induction ts generalizing parse with
  | nil =>
      cases h
      rw [List.append_nil]
  | cons token ts ih =>
      rw [run, List.foldlM_cons, Option.bind_eq_bind, Option.bind_eq_some_iff] at h
      obtain ⟨next, hstep, hrun⟩ := h
      rw [ih hrun, consumed_step hstep, List.append_assoc]
      rfl

end Parse

theorem ofTokens?_eq_some_iff {ts : List Token} {value : Json} :
    ofTokens? ts = some value ↔ ts = value.tokens := by
  constructor
  · intro h
    obtain ⟨last, hrun, hvalue⟩ := Option.bind_eq_some_iff.mp h
    have hread := Parse.consumed_run hrun
    unfold Parse.value? at hvalue
    split at hvalue
    · cases hvalue
      exact hread.symm
    · cases hvalue
  · rintro rfl
    exact ofTokens?_tokens value

theorem ofText?_eq_some_iff {text : String} {value : Json} :
    ofText? text = some value ↔ tokens? (text.toList.map some) = some value.tokens := by
  rw [ofText?, ofGlyphs?, Text.glyphsOfText, Option.bind_eq_some_iff]
  simp only [ofTokens?_eq_some_iff, exists_eq_right]

theorem Reads.under {s t : List Token × Mode} {cs : List Char} (h : Reads s cs t)
    (below : List Token) : Reads (s.1 ++ below, s.2) cs (t.1 ++ below, t.2) := by
  induction cs generalizing s with
  | nil =>
      cases h
      exact nil _
  | cons c cs ih =>
      rw [Reads, List.map_cons, lexFrom_cons, Option.bind_eq_some_iff] at h ⊢
      obtain ⟨next, hstep, hrest⟩ := h
      refine ⟨next, hstep, ?_⟩
      rw [← List.append_assoc]
      exact ih hrest

theorem tokensFrom_splice {cs rest : List Char} {ts : List Token}
    (h : tokens? (cs.map some) = some ts) (hrest : ∀ c ∈ rest.head?, Numeral.isPart c = false)
    (acc : List Token) :
    tokensFrom (acc, .gap) ((cs ++ rest).map some) =
      tokensFrom (ts.reverse ++ acc, .gap) (rest.map some) := by
  rw [tokens?_eq, tokensFrom, Option.bind_eq_some_iff] at h
  obtain ⟨⟨read, mode⟩, hread, hlast⟩ := h
  obtain ⟨last, hfinish, rfl⟩ := Option.map_eq_some_iff.mp hlast
  have hplaced : Reads (acc, .gap) cs (read ++ acc, mode) := Reads.under hread acc
  rw [hplaced.tokensFrom_append, List.reverse_reverse, List.append_assoc]
  cases mode with
  | gap =>
      cases hfinish
      rfl
  | number chars =>
      obtain ⟨numeral, hnumeral, rfl⟩ := Option.map_eq_some_iff.mp hfinish
      exact tokensFrom_number hnumeral hrest
  | word | quoted | escaped | coded => cases hfinish

theorem tokensFrom_text {text : String} {value : Json} (h : ofText? text = some value)
    {rest : List Char} (hrest : ∀ c ∈ rest.head?, Numeral.isPart c = false) (acc : List Token) :
    tokensFrom (acc, .gap) ((text.toList ++ rest).map some) =
      tokensFrom (value.tokens.reverse ++ acc, .gap) (rest.map some) :=
  tokensFrom_splice (ofText?_eq_some_iff.mp h) hrest acc

theorem tokensFrom_nil (acc : List Token) : tokensFrom (acc, .gap) [] = some acc.reverse :=
  rfl

def Hold (texts : List String) (values : List Json) : Prop :=
  List.Forall₂ (fun text value => ofText? text = some value) texts values

def arrayText (texts : List String) : String :=
  "[" ++ ",".intercalate texts ++ "]"

theorem tokensFrom_items {text : String} {texts : List String} {value : Json} {values : List Json}
    (h : ofText? text = some value) (hothers : Hold texts values) (acc : List Token) :
    tokensFrom (acc, .gap) (((",".intercalate (text :: texts)).toList ++ [']']).map some) =
      some (acc.reverse ++ value.tokens ++ itemTokens values) := by
  induction hothers generalizing text value acc with
  | nil =>
      have hclose (acc : List Token) : tokensFrom (acc, .gap) ([']'].map some) =
          some (acc.reverse ++ [.closeArray]) := by
        rw [← List.append_nil [']'], (Reads.emit rfl).tokensFrom_append, List.map_nil,
          tokensFrom_nil, List.reverse_cons]
      rw [String.intercalate_singleton, tokensFrom_text h (by simp [Numeral.isPart]), hclose]
      simp [itemTokens]
  | cons hfirst hothers ih =>
      have hcomma (acc : List Token) : Reads (acc, .gap) ",".toList (.comma :: acc, .gap) :=
        .emit rfl
      rw [String.intercalate_cons_cons, String.toList_append, String.toList_append,
        List.append_assoc, List.append_assoc, tokensFrom_text h (by simp [Numeral.isPart]),
        (hcomma _).tokensFrom_append, ih hfirst]
      simp [itemTokens]

/-- No text of a value reaches into another one, nor ends the array. -/
theorem ofText?_arrayText {texts : List String} {values : List Json} (h : Hold texts values) :
    ofText? (arrayText texts) = some (arr values) := by
  have hopen : Reads ([], .gap) "[".toList ([.openArray], .gap) := .emit rfl
  rw [ofText?_eq_some_iff, arrayText, String.toList_append, String.toList_append, List.append_assoc,
    tokens?_eq, hopen.tokensFrom_append]
  cases h with
  | nil => rfl
  | cons hfirst hothers => exact tokensFrom_items hfirst hothers _

end PeerBook.Json
