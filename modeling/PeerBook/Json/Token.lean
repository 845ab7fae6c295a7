import PeerBook.Json.Numeral
import PeerBook.Text.Glyph

namespace PeerBook.Json

inductive Token where
  | openObject
  | closeObject
  | openArray
  | closeArray
  | colon
  | comma
  | null
  | bool (value : Bool)
  | num (numeral : Numeral)
  /-- A string; nothing stands for one that spells no text. -/
  | str (text : Option String)
  deriving DecidableEq, Repr

def letterEscapes : List (Char × Char) :=
  [('"', '"'), ('\\', '\\'), ('\x08', 'b'), ('\t', 't'), ('\n', 'n'), ('\x0c', 'f'), ('\r', 'r')]

def escape (c : Char) : List Char :=
  match letterEscapes.lookup c with
  | some letter => ['\\', letter]
  | none =>
    if c.toNat < 0x20 then
      ['\\', 'u', '0', '0', Octets.hexDigit (c.toNat / 16), Octets.hexDigit (c.toNat % 16)]
    else [c]

def quote (text : String) : List Char :=
  '"' :: text.toList.flatMap escape ++ ['"']

namespace Token

def spell : Token → List Char
  | openObject => ['\x7b']
  | closeObject => ['\x7d']
  | openArray => ['[']
  | closeArray => [']']
  | colon => [':']
  | comma => [',']
  | null => ['n', 'u', 'l', 'l']
  | bool true => ['t', 'r', 'u', 'e']
  | bool false => ['f', 'a', 'l', 's', 'e']
  | num numeral => numeral.spell
  | str text => quote (text.getD "")

end Token

structure Draft where
  chars : List Char := []
  /-- The first half of a surrogate pair, while the second is outstanding. -/
  high : Option Nat := none
  isText : Bool := true
  deriving DecidableEq, Repr

namespace Draft

def push (draft : Draft) (c : Char) : Draft :=
  ⟨c :: draft.chars, none, draft.isText && draft.high.isNone⟩

def spoil (draft : Draft) : Draft :=
  ⟨draft.chars, none, false⟩

def isHigh (unit : Nat) : Bool :=
  0xd800 ≤ unit && unit < 0xdc00

def isLow (unit : Nat) : Bool :=
  0xdc00 ≤ unit && unit < 0xe000

def pushUnit (draft : Draft) (unit : Nat) : Draft :=
  match draft.high with
  | some high =>
    if isLow unit then
      ⟨Char.ofNat (0x10000 + (high - 0xd800) * 0x400 + (unit - 0xdc00)) :: draft.chars, none,
        draft.isText⟩
    else draft.spoil
  | none =>
    if isHigh unit then ⟨draft.chars, some unit, draft.isText⟩
    else if isLow unit then draft.spoil
    else draft.push (Char.ofNat unit)

def text? (draft : Draft) : Option String :=
  if draft.isText && draft.high.isNone then some (String.ofList draft.chars.reverse) else none

end Draft

inductive Mode where
  | gap
  /-- A word of which some letters are outstanding. -/
  | word (outstanding : List Char) (token : Token)
  /-- A numeral, last character first. -/
  | number (chars : List Char)
  | quoted (draft : Draft)
  | escaped (draft : Draft)
  /-- An escape by code, with the number of digits outstanding and the value so far. -/
  | coded (draft : Draft) (outstanding value : Nat)
  deriving DecidableEq, Repr

namespace Mode

def isSpace (c : Char) : Bool :=
  c == ' ' || c == '\t' || c == '\n' || c == '\r'

def punctuation? (c : Char) : Option Token :=
  if c = '\x7b' then some .openObject
  else if c = '\x7d' then some .closeObject
  else if c = '[' then some .openArray
  else if c = ']' then some .closeArray
  else if c = ':' then some .colon
  else if c = ',' then some .comma
  else none

def stepGap (c : Char) : Option (List Token × Mode) :=
  if isSpace c then some ([], gap)
  else
    match punctuation? c with
    | some token => some ([token], gap)
    | none =>
      if c = '"' then some ([], quoted {})
      else if c = 'n' then some ([], word ['u', 'l', 'l'] .null)
      else if c = 't' then some ([], word ['r', 'u', 'e'] (.bool true))
      else if c = 'f' then some ([], word ['a', 'l', 's', 'e'] (.bool false))
      else if c.isDigit || c == '-' then some ([], number [c])
      else none

def stepQuoted (draft : Draft) (c : Char) : Option (List Token × Mode) :=
  if c = '"' then some ([.str draft.text?], gap)
  else if c = '\\' then some ([], escaped draft)
  else if c.toNat < 0x20 then none
  else some ([], quoted (draft.push c))

def unescape? (letter : Char) : Option Char :=
  if letter = '/' then some '/'
  else (letterEscapes.find? fun p => p.2 == letter).map Prod.fst

def stepEscaped (draft : Draft) (c : Char) : Option (List Token × Mode) :=
  if c = 'u' then some ([], coded draft 4 0)
  else (unescape? c).map fun x => ([], quoted (draft.push x))

def stepCoded (draft : Draft) (outstanding value : Nat) (c : Char) : Option (List Token × Mode) :=
  (Octets.hexValue? c).map fun digit =>
    let value := value * 16 + digit
    if outstanding ≤ 1 then ([], quoted (draft.pushUnit value))
    else ([], coded draft (outstanding - 1) value)

def step (mode : Mode) (glyph : Text.Glyph) : Option (List Token × Mode) :=
  match mode, glyph with
  | gap, some c => stepGap c
  | word (x :: xs) token, some c =>
    if c ≠ x then none
    else if xs.isEmpty then some ([token], gap)
    else some ([], word xs token)
  | number chars, some c =>
    if Numeral.isPart c then some ([], number (c :: chars))
    else do
      let numeral ← Numeral.ofChars? chars.reverse
      let (tokens, mode) ← stepGap c
      return (.num numeral :: tokens, mode)
  | quoted draft, some c => stepQuoted draft c
  | quoted draft, none => some ([], quoted draft.spoil)
  | escaped draft, some c => stepEscaped draft c
  | coded draft outstanding value, some c => stepCoded draft outstanding value c
  | _, _ => none

def finish : Mode → Option (List Token)
  | gap => some []
  | number chars => (Numeral.ofChars? chars.reverse).map fun numeral => [.num numeral]
  | _ => none

end Mode

def lexFrom (state : List Token × Mode) (glyphs : List Text.Glyph) :
    Option (List Token × Mode) :=
  glyphs.foldlM (fun (tokens, mode) glyph =>
    (mode.step glyph).map fun (new, mode) => (new.reverse ++ tokens, mode)) state

def tokens? (glyphs : List Text.Glyph) : Option (List Token) := do
  let (tokens, mode) ← lexFrom ([], .gap) glyphs
  let last ← mode.finish
  return (last.reverse ++ tokens).reverse

end PeerBook.Json
