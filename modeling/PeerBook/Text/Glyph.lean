import PeerBook.Octets

namespace PeerBook.Text

/-- A character, or a place where an octet belongs to none. -/
abbrev Glyph := Option Char

def firstChar? (bytes : Octets) : Option (Char × Nat) :=
  [0, 1, 2, 3].findSome? fun extra =>
    match (Octets.text? (bytes.take (extra + 1))).map String.toList with
    | some [c] => some (c, extra)
    | _ => none

def scanGlyphs : Octets → List Glyph
  | [] => []
  | b :: bytes =>
    match firstChar? (b :: bytes) with
    | some (c, extra) => some c :: scanGlyphs (bytes.drop extra)
    | none => none :: scanGlyphs bytes
termination_by bytes => bytes.length
decreasing_by
  all_goals simp only [List.length_drop, List.length_cons]
  all_goals omega

def glyphsOfText (text : String) : List Glyph :=
  text.toList.map some

def glyphs (bytes : Octets) : List Glyph :=
  match Octets.text? bytes with
  | some text => glyphsOfText text
  | none => scanGlyphs bytes

end PeerBook.Text
