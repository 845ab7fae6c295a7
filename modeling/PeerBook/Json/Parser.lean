import PeerBook.Json

namespace PeerBook.Json

inductive Frame where
  | items (done : List Json)
  | members (done : List (Option String × Json)) (key : Option String)

inductive Expect where
  | value
  | firstItem
  | firstKey
  | key (done : List (Option String × Json))
  | colon (done : List (Option String × Json)) (key : Option String)
  | next (value : Json)

structure Parse where
  stack : List Frame
  expect : Expect

namespace Parse

def start : Parse :=
  ⟨[], .value⟩

def stepValue (stack : List Frame) : Token → Option Parse
  | .null => some ⟨stack, .next .null⟩
  | .bool value => some ⟨stack, .next (.bool value)⟩
  | .num numeral => some ⟨stack, .next (.num numeral)⟩
  | .str text => some ⟨stack, .next (.str text)⟩
  | .openArray => some ⟨.items [] :: stack, .firstItem⟩
  | .openObject => some ⟨stack, .firstKey⟩
  | _ => none

def stepNext (value : Json) : List Frame → Token → Option Parse
  | .items done :: stack, .comma => some ⟨.items (value :: done) :: stack, .value⟩
  | .items done :: stack, .closeArray => some ⟨stack, .next (.arr (value :: done).reverse)⟩
  | .members done key :: stack, .comma => some ⟨stack, .key ((key, value) :: done)⟩
  | .members done key :: stack, .closeObject =>
    some ⟨stack, .next (.obj ((key, value) :: done).reverse)⟩
  | _, _ => none

def step (parse : Parse) (token : Token) : Option Parse :=
  match parse.expect, parse.stack, token with
  | .value, stack, token => stepValue stack token
  | .firstItem, .items [] :: stack, .closeArray => some ⟨stack, .next (.arr [])⟩
  | .firstItem, stack, token => stepValue stack token
  | .firstKey, stack, .closeObject => some ⟨stack, .next (.obj [])⟩
  | .firstKey, stack, .str key => some ⟨stack, .colon [] key⟩
  | .key done, stack, .str key => some ⟨stack, .colon done key⟩
  | .colon done key, stack, .colon => some ⟨.members done key :: stack, .value⟩
  | .next value, stack, token => stepNext value stack token
  | _, _, _ => none

def run (parse : Parse) (tokens : List Token) : Option Parse :=
  tokens.foldlM step parse

def value? (parse : Parse) : Option Json :=
  match parse with
  | ⟨[], .next value⟩ => some value
  | _ => none

end Parse

def ofTokens? (tokens : List Token) : Option Json :=
  (Parse.start.run tokens).bind Parse.value?

def ofGlyphs? (glyphs : List Text.Glyph) : Option Json :=
  (tokens? glyphs).bind ofTokens?

def ofText? (text : String) : Option Json :=
  ofGlyphs? (Text.glyphsOfText text)

def ofOctets? (bytes : Octets) : Option Json :=
  ofGlyphs? (Text.glyphs bytes)

end PeerBook.Json
