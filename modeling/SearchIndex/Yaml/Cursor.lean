/-!
# Positions in a YAML text

A cursor is what remains of a text together with the line and the column it has
reached; in YAML the column decides about structure. Columns count characters, while the
index of a cursor counts the bytes of UTF-8 in front of it. The text ends where nothing
remains. A line break is a carriage return, a line feed, both in this order, or one
of the three Unicode line separators.
-/

namespace SearchIndex.Yaml

/-- What remains of a text, and where it begins. The index counts bytes. -/
structure Cursor where
  rest : List Char
  index : Nat
  line : Nat
  column : Nat

/-- Whether a character ends a line. -/
def isBreak (c : Char) : Bool :=
  c == '\n' || c == '\r' || c == '\u0085' || c == '\u2028' || c == '\u2029'

/-- Whether a character is a space or a tab. -/
def isSpace (c : Char) : Bool := c == ' ' || c == '\t'

/-- Whether a text starts with a space, a tab or a line break, or has ended. -/
def startsBlank : List Char → Bool
  | [] => true
  | c :: _ => isSpace c || isBreak c

/-- Whether a character may stand in a YAML text at all. -/
def isAllowed (c : Char) : Bool :=
  let n := c.toNat
  c == '\t' || c == '\n' || c == '\r' || (0x20 ≤ n && n ≤ 0x7E) || n == 0x85 ||
    (0xA0 ≤ n && n ≤ 0xD7FF) || (0xE000 ≤ n && n ≤ 0xFFFD) || 0x10000 ≤ n

/-- How a line break is kept: the usual ones as a line feed, the others as they are. -/
def keptBreak (c : Char) : Char := if c == '\u2028' || c == '\u2029' then c else '\n'

/-- The number of bytes of some characters. -/
def byteCount (cs : List Char) : Nat := cs.foldl (fun n c => n + c.utf8Size) 0

/-- Whether a text starts with a marker of a document's start or end. -/
def startsMarker : List Char → Bool
  | '-' :: '-' :: '-' :: rest => startsBlank rest
  | '.' :: '.' :: '.' :: rest => startsBlank rest
  | _ => false

namespace Cursor

/-- The start of a text. -/
def ofText (text : String) : Cursor := ⟨text.toList, 0, 0, 0⟩

/-- Past one character on the same line. -/
def skip (c : Cursor) : Cursor :=
  ⟨c.rest.drop 1, c.index + byteCount (c.rest.take 1), c.line, c.column + 1⟩

/-- Past some characters on the same line. -/
def skipMany (c : Cursor) (n : Nat) : Cursor :=
  ⟨c.rest.drop n, c.index + byteCount (c.rest.take n), c.line, c.column + n⟩

/-- Past a line break, if there is one. -/
def skipBreak (c : Cursor) : Cursor :=
  match c.rest with
  | '\r' :: '\n' :: rest => ⟨rest, c.index + 2, c.line + 1, 0⟩
  | b :: rest => if isBreak b then ⟨rest, c.index + b.utf8Size, c.line + 1, 0⟩ else c
  | [] => c

/-- Past the characters on the same line that satisfy a test. -/
def skipWhile (c : Cursor) (test : Char → Bool) : Cursor :=
  c.skipMany (c.rest.takeWhile test).length

/-- Past everything up to the end of the line. -/
def skipLine (c : Cursor) : Cursor := c.skipWhile (fun ch => !isBreak ch)

/-- Past a comment, if there is one. -/
def skipComment (c : Cursor) : Cursor :=
  match c.rest with
  | '#' :: _ => c.skipLine
  | _ => c

/-- Past blanks, a comment and a line break, with nothing else on the line. -/
def endLine? (c : Cursor) : Option Cursor :=
  let c' := (c.skipWhile isSpace).skipComment
  if c'.rest.head?.all isBreak then some c'.skipBreak else none

end Cursor

end SearchIndex.Yaml
