import PeerBook.Json.Token

namespace PeerBook

/-- Keeps the order of members, repeated keys and the spelling of numbers. -/
inductive Json where
  | null
  | bool (value : Bool)
  | num (numeral : Json.Numeral)
  | str (text : Option String)
  | arr (items : List Json)
  | obj (members : List (Option String × Json))

namespace Json

instance : Inhabited Json :=
  ⟨.null⟩

def text (s : String) : Json :=
  .str (some s)

def nat (n : Nat) : Json :=
  .num (.ofNat n)

def object (members : List (String × Json)) : Json :=
  .obj (members.map fun (key, value) => (some key, value))

mutual

def tokens : Json → List Token
  | null => [.null]
  | bool value => [.bool value]
  | num numeral => [.num numeral]
  | str text => [.str text]
  | arr [] => [.openArray, .closeArray]
  | arr (item :: items) => .openArray :: tokens item ++ itemTokens items
  | obj [] => [.openObject, .closeObject]
  | obj ((key, value) :: members) =>
    .openObject :: .str key :: .colon :: tokens value ++ memberTokens members

def itemTokens : List Json → List Token
  | [] => [.closeArray]
  | item :: items => .comma :: tokens item ++ itemTokens items

def memberTokens : List (Option String × Json) → List Token
  | [] => [.closeObject]
  | (key, value) :: members =>
    .comma :: .str key :: .colon :: tokens value ++ memberTokens members

end

def compact (value : Json) : String :=
  String.ofList (value.tokens.flatMap Token.spell)

def newline (depth : Nat) : List Char :=
  '\n' :: List.replicate (2 * depth) ' '

def after (blanks : List Char) : List (List Char × Token) → List (List Char × Token)
  | [] => []
  | (_, token) :: rest => (blanks, token) :: rest

mutual

def laidOut (depth : Nat) : Json → List (List Char × Token)
  | null => [([], .null)]
  | bool value => [([], .bool value)]
  | num numeral => [([], .num numeral)]
  | str text => [([], .str text)]
  | arr [] => [([], .openArray), ([], .closeArray)]
  | arr (item :: items) =>
    ([], .openArray) :: after (newline (depth + 1)) (laidOut (depth + 1) item) ++
      laidOutItems depth items
  | obj [] => [([], .openObject), ([], .closeObject)]
  | obj ((key, value) :: members) =>
    ([], .openObject) :: (newline (depth + 1), .str key) :: ([], .colon) ::
      after [' '] (laidOut (depth + 1) value) ++ laidOutMembers depth members

def laidOutItems (depth : Nat) : List Json → List (List Char × Token)
  | [] => [(newline depth, .closeArray)]
  | item :: items =>
    ([], .comma) :: after (newline (depth + 1)) (laidOut (depth + 1) item) ++
      laidOutItems depth items

def laidOutMembers (depth : Nat) : List (Option String × Json) → List (List Char × Token)
  | [] => [(newline depth, .closeObject)]
  | (key, value) :: members =>
    ([], .comma) :: (newline (depth + 1), .str key) :: ([], .colon) ::
      after [' '] (laidOut (depth + 1) value) ++ laidOutMembers depth members

end

def pretty (value : Json) : String :=
  String.ofList ((value.laidOut 0).flatMap fun (blanks, token) => blanks ++ token.spell)

mutual

def depth : Json → Nat
  | arr items => depthItems items + 1
  | obj members => depthMembers members + 1
  | _ => 0

def depthItems : List Json → Nat
  | [] => 0
  | item :: items => max (depth item) (depthItems items)

def depthMembers : List (Option String × Json) → Nat
  | [] => 0
  | (_, value) :: members => max (depth value) (depthMembers members)

end

mutual

def isSound : Json → Bool
  | null | bool _ => true
  | num numeral => numeral.isFinite
  | str text => text.isSome
  | arr items => itemsSound items
  | obj members => membersSound members

def itemsSound : List Json → Bool
  | [] => true
  | item :: items => isSound item && itemsSound items

def membersSound : List (Option String × Json) → Bool
  | [] => true
  | (key, value) :: members => key.isSome && isSound value && membersSound members

end

def maxDepth : Nat := 127

def isGeneric (value : Json) : Bool :=
  decide (value.depth ≤ maxDepth) && value.isSound

def asText? : Json → Option String
  | str text => text
  | _ => none

def asNat? (bound : Nat) : Json → Option Nat
  | num numeral => numeral.toNat?.filter (· < bound)
  | _ => none

def asUInt16? (value : Json) : Option UInt16 :=
  (value.asNat? UInt16.size).map UInt16.ofNat

def asUInt64? (value : Json) : Option UInt64 :=
  (value.asNat? UInt64.size).map UInt64.ofNat

def fieldOr {α : Type} (absent : α) (read : Json → Option α) : Option Json → Option α
  | none => some absent
  | some value => read value

def nullable {α : Type} (read : Json → Option α) : Json → Option (Option α)
  | .null => some none
  | value => (read value).map some

def lookup (name : String) (members : List (Option String × Json)) : Option Json :=
  (members.reverse.find? fun member => member.1 == some name).map Prod.snd

def aligned? (names : List String) (items : List Json) : Option (List (Option Json)) :=
  if items.length ≤ names.length then
    some (items.map some ++ List.replicate (names.length - items.length) none)
  else none

/--
The fields of a structure, by name in an object or by position in an array. Of a repeated name the
last value counts, and other names are passed over.
-/
def fields? (names : List String) : Json → Option (List (Option Json))
  | obj members => some (names.map fun name => lookup name members)
  | arr items => aligned? names items
  | _ => none

/-- As `fields?`, but no name may be repeated and every key must be a text. -/
def distinctFields? (names : List String) : Json → Option (List (Option Json))
  | obj members =>
    let once (name : String) := decide (members.countP (fun member => member.1 == some name) ≤ 1)
    if members.all (·.1.isSome) && names.all once then
      some (names.map fun name => lookup name members)
    else none
  | arr items => aligned? names items
  | _ => none

end Json

end PeerBook
