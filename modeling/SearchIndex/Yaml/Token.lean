import SearchIndex.Yaml.Directive
import SearchIndex.Yaml.Scalar

/-!
# Tokens of a YAML text

A YAML text is taken apart into tokens: directives, indicators, scalars, anchors and
aliases, and the starts and ends of block collections, which the indentation decides. A
key is recognised only by the colon behind it. The lexer therefore remembers where a key
may have begun, one candidate for each level of flow collections, and inserts the key
token there when the colon comes. A candidate lasts until the end of its line and for at
most 1024 bytes; one that begins at the indentation of a block collection must turn out
to be a key.

A byte order mark may start a line in front of a token. It is no part of the token, but
it takes up a column.

`Token.scan?` gives all tokens of a text. A text with a tag has none.
-/

namespace SearchIndex.Yaml

/-- A token. -/
inductive Token where
  | directive (d : Directive)
  | documentStart
  | documentEnd
  | blockSequenceStart
  | blockMappingStart
  | blockEnd
  | flowSequenceStart
  | flowSequenceEnd
  | flowMappingStart
  | flowMappingEnd
  | blockEntry
  | flowEntry
  | key
  | value
  | anchor (name : String)
  | alias (name : String)
  /-- A scalar; only a plain one may stand for something else than its text. -/
  | scalar (text : String) (plain : Bool)
deriving DecidableEq

/-- A place where a key may have begun: the number of tokens before it, its position, and
whether it must be one. -/
structure Candidate where
  place : Nat
  index : Nat
  line : Nat
  column : Nat
  required : Bool

/-- The state of the lexer. `candidates` holds the candidate of the innermost flow level
first, `indents` the indentations around the current one, innermost first. -/
structure Lexer where
  cursor : Cursor
  tokens : Array Token
  candidates : List (Option Candidate)
  keyAllowed : Bool
  indent : Int
  indents : List Int

namespace Lexer

/-- The state at the start of a text. -/
def start (text : String) : Lexer := ⟨.ofText text, #[], [none], true, -1, []⟩

/-- Whether the position is inside a flow collection. -/
def inFlow (l : Lexer) : Bool := l.candidates.length > 1

/-- After one more token. -/
def push (l : Lexer) (t : Token) : Lexer := { l with tokens := l.tokens.push t }

/-- Moves the cursor. -/
def moveTo (l : Lexer) (c : Cursor) : Lexer := { l with cursor := c }

/-- Moves past a number of characters. -/
def skip (l : Lexer) (n : Nat) : Lexer := l.moveTo (l.cursor.skipMany n)

/-- Allows or forbids a key at the next token. -/
def allowKey (l : Lexer) (allowed : Bool) : Lexer := { l with keyAllowed := allowed }

/-- The candidate of the innermost level. -/
def candidate? (l : Lexer) : Option Candidate := (l.candidates.head?).join

/-- Replaces the candidate of the innermost level. -/
def setCandidate (l : Lexer) (k : Option Candidate) : Lexer :=
  { l with candidates := k :: l.candidates.drop 1 }

/-- Gives up the candidate of the innermost level, unless it must be a key. -/
def dropCandidate? (l : Lexer) : Option Lexer :=
  match l.candidate? with
  | some k => if k.required then none else some (l.setCandidate none)
  | none => some l

/-- Makes the position a candidate, if a key is allowed there. -/
def saveCandidate? (l : Lexer) : Option Lexer :=
  if l.keyAllowed then
    (l.dropCandidate?).map (fun l =>
      l.setCandidate (some
        { place := l.tokens.size
          index := l.cursor.index
          line := l.cursor.line
          column := l.cursor.column
          required := !l.inFlow && l.indent == l.cursor.column }))
  else some l

/-- Whether a candidate has been left behind. -/
def isStale (c : Cursor) (k : Candidate) : Bool := k.line < c.line || k.index + 1024 < c.index

/-- Gives up the candidates that have been left behind, unless one of them must be a
key. -/
def dropStale? (l : Lexer) : Option Lexer :=
  let stale (k : Option Candidate) : Bool := k.any (isStale l.cursor)
  if l.candidates.any (fun k => stale k && k.any Candidate.required) then none
  else some { l with candidates := l.candidates.map (fun k => if stale k then none else k) }

/-- Begins a block collection at a column deeper than the current indentation; its token
goes to a place among the tokens. -/
def roll (l : Lexer) (column place : Nat) (t : Token) : Lexer :=
  if l.inFlow || decide ((column : Int) ≤ l.indent) then l
  else
    { l with
      tokens := l.tokens.insertIdxIfInBounds place t
      indents := l.indent :: l.indents
      indent := column }

/-- The block collections that end at a column: their number, the indentation that
remains, and those around it. -/
def closing (column : Int) : Int → List Int → Nat × Int × List Int
  | indent, [] => (0, indent, [])
  | indent, outer :: rest =>
    if column < indent then
      let (n, indent', rest') := closing column outer rest
      (n + 1, indent', rest')
    else (0, indent, outer :: rest)

/-- Ends the block collections that are deeper than a column. -/
def unroll (l : Lexer) (column : Int) : Lexer :=
  if l.inFlow then l
  else
    let (n, indent, indents) := closing column l.indent l.indents
    { l with
      tokens := l.tokens ++ Array.replicate n Token.blockEnd
      indent := indent
      indents := indents }

/-- Past a byte order mark at the start of a line, if there is one. -/
def skipMark (c : Cursor) : Cursor :=
  if c.column == 0 && c.rest.head? == some '\ufeff' then c.skip else c

/-- Moves past blanks, comments and line breaks to the next token, with fuel for every
line. Where a key may begin, a tab is no blank. -/
def toNextToken : Nat → Lexer → Lexer
  | 0, l => l
  | fuel + 1, l =>
    let tabs := l.inFlow || !l.keyAllowed
    let c := (skipMark l.cursor).skipWhile (fun ch => ch == ' ' || (tabs && ch == '\t'))
    let c := c.skipComment
    match c.rest with
    | b :: _ =>
      if isBreak b then
        toNextToken fuel { l with
          cursor := c.skipBreak, keyAllowed := l.keyAllowed || !l.inFlow }
      else l.moveTo c
    | [] => l.moveTo c

/-! ### Single tokens -/

/-- A directive; it ends all block collections. -/
def directive? (l : Lexer) : Option Lexer :=
  ((l.unroll (-1)).dropCandidate?).bind (fun l =>
    (Directive.read? l.cursor.skip).map (fun (d, c) =>
      ((l.allowKey false).moveTo c).push (.directive d)))

/-- A marker between documents; it ends all block collections. -/
def marker? (l : Lexer) (t : Token) : Option Lexer :=
  ((l.unroll (-1)).dropCandidate?).map (fun l => ((l.allowKey false).skip 3).push t)

/-- The start of a flow collection, which may itself be a key. -/
def openFlow? (l : Lexer) (t : Token) : Option Lexer :=
  (l.saveCandidate?).map (fun l =>
    ({ l with candidates := none :: l.candidates, keyAllowed := true }.skip 1).push t)

/-- The end of a flow collection. -/
def closeFlow? (l : Lexer) (t : Token) : Option Lexer :=
  (l.dropCandidate?).map (fun l =>
    let outer := if l.inFlow then l.candidates.drop 1 else l.candidates
    ({ l with candidates := outer, keyAllowed := false }.skip 1).push t)

/-- A comma between the entries of a flow collection. -/
def comma? (l : Lexer) : Option Lexer :=
  (l.dropCandidate?).map (fun l => ((l.allowKey true).skip 1).push .flowEntry)

/-- A dash in front of an entry of a block sequence. -/
def dash? (l : Lexer) : Option Lexer :=
  if !l.inFlow && !l.keyAllowed then none
  else
    ((l.roll l.cursor.column l.tokens.size .blockSequenceStart).dropCandidate?).map (fun l =>
      ((l.allowKey true).skip 1).push .blockEntry)

/-- A question mark in front of a key. -/
def explicitKey? (l : Lexer) : Option Lexer :=
  if !l.inFlow && !l.keyAllowed then none
  else
    ((l.roll l.cursor.column l.tokens.size .blockMappingStart).dropCandidate?).map (fun l =>
      ((l.allowKey (!l.inFlow)).skip 1).push .key)

/-- A colon in front of a value. If there is a candidate, it is the key. -/
def value? (l : Lexer) : Option Lexer :=
  match l.candidate? with
  | some k =>
    let withKey := { l with tokens := l.tokens.insertIdxIfInBounds k.place Token.key }
    let rolled := (withKey.roll k.column k.place .blockMappingStart).setCandidate none
    some (((rolled.allowKey false).skip 1).push .value)
  | none =>
    if !l.inFlow && !l.keyAllowed then none
    else
      let rolled := l.roll l.cursor.column l.tokens.size .blockMappingStart
      some (((rolled.allowKey (!l.inFlow)).skip 1).push .value)

/-- Whether a text may follow the name of an anchor. -/
def endsName (cs : List Char) : Bool :=
  startsBlank cs || cs.head?.any (fun c =>
    c == '?' || c == ':' || c == ',' || c == ']' || c == '\x7d' || c == '%' || c == '@' ||
      c == '\u0060')

/-- An anchor or an alias. -/
def name? (l : Lexer) (t : String → Token) : Option Lexer :=
  (l.saveCandidate?).bind (fun l =>
    let c := l.cursor.skip
    let name := c.rest.takeWhile isNameChar
    let c' := c.skipMany name.length
    if name.isEmpty || !endsName c'.rest then none
    else some (((l.allowKey false).moveTo c').push (t (String.ofList name))))

/-- A quoted scalar. -/
def quotedScalar? (l : Lexer) (single : Bool) : Option Lexer :=
  (l.saveCandidate?).bind (fun l =>
    (quoted? single l.cursor.skip).map (fun (text, c) =>
      ((l.allowKey false).moveTo c).push (.scalar text false)))

/-- A block scalar. -/
def blockScalar? (l : Lexer) (literal : Bool) : Option Lexer :=
  (l.dropCandidate?).bind (fun l =>
    (block? literal l.indent l.cursor.skip).map (fun (text, c) =>
      ((l.allowKey true).moveTo c).push (.scalar text false)))

/-- A plain scalar. -/
def plainScalar? (l : Lexer) : Option Lexer :=
  (l.saveCandidate?).bind (fun l =>
    (plain? l.inFlow (l.indent + 1) l.cursor).map (fun (text, c, endedLine) =>
      ((l.allowKey endedLine).moveTo c).push (.scalar text true)))

/-- The characters that have a meaning of their own at the start of a token. -/
def indicators : List Char :=
  ['-', '?', ':', ',', '[', ']', '\x7b', '\x7d', '#', '&', '*', '!', '|', '>', '\'', '"', '%', '@',
   '\u0060']

/-- Whether a plain scalar may start with a text. -/
def startsPlain (inFlow : Bool) : List Char → Bool
  | [] => false
  | c :: rest =>
    (!startsBlank (c :: rest) && !indicators.contains c) ||
      (c == '-' && !(rest.head?.any isSpace)) ||
      (!inFlow && (c == '?' || c == ':') && !startsBlank rest)

/-- One more token, at a cursor that stands in front of one. -/
def token? (l : Lexer) : Option Lexer :=
  let cs := l.cursor.rest
  if l.cursor.column == 0 && cs.head? == some '%' then l.directive?
  else if l.cursor.column == 0 && startsMarker cs then
    l.marker? (if cs.head? == some '-' then .documentStart else .documentEnd)
  else match cs with
    | [] => some l
    | c :: rest =>
      if c = '[' then l.openFlow? .flowSequenceStart
      else if c = '\x7b' then l.openFlow? .flowMappingStart
      else if c = ']' then l.closeFlow? .flowSequenceEnd
      else if c = '\x7d' then l.closeFlow? .flowMappingEnd
      else if c = ',' then l.comma?
      else if c = '-' && startsBlank rest then l.dash?
      else if c = '?' && (l.inFlow || startsBlank rest) then l.explicitKey?
      else if c = ':' && (l.inFlow || startsBlank rest) then l.value?
      else if c = '*' then l.name? .alias
      else if c = '&' then l.name? .anchor
      else if c = '|' && !l.inFlow then l.blockScalar? true
      else if c = '>' && !l.inFlow then l.blockScalar? false
      else if c = '\'' then l.quotedScalar? true
      else if c = '"' then l.quotedScalar? false
      else if startsPlain l.inFlow cs then l.plainScalar?
      else none

/-- The end of the text: it ends all block collections. -/
def finish? (l : Lexer) : Option (List Token) :=
  ((l.unroll (-1)).dropCandidate?).map (fun l => l.tokens.toList)

/-- All tokens from a state on, with fuel for every character. -/
def run? : Nat → Lexer → Option (List Token)
  | 0, _ => none
  | fuel + 1, l =>
    match (toNextToken (l.cursor.rest.length + 1) l).dropStale? with
    | none => none
    | some l =>
      let l := l.unroll l.cursor.column
      if l.cursor.rest.isEmpty then l.finish? else (l.token?).bind (run? fuel)

end Lexer

/-- The tokens of a text. -/
def Token.scan? (text : String) : Option (List Token) :=
  if text.toList.all isAllowed then (Lexer.start text).run? (text.length + 2) else none

end SearchIndex.Yaml
