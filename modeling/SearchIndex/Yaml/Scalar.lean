import SearchIndex.Text.Numeral
import SearchIndex.Yaml.Cursor

/-!
# Scalars of a YAML text

A scalar is written plain, between quotes, or as a block. Whatever the form, a line
break inside it may be folded: a single break becomes a space and further breaks are
kept. The functions here read one scalar from where it starts and give its text and
the cursor behind it; they fail where the text is malformed.
-/

namespace SearchIndex.Yaml

/-- Blanks and line breaks that have been read but not yet decided upon. -/
inductive Pending where
  /-- Blanks within a line, last one first. -/
  | blanks (reversed : List Char)
  /-- A first line break, kept as written unless it was escaped, and further ones, last
  one first. -/
  | breaks (first : Option Char) (reversed : List Char)

namespace Pending

/-- Nothing is pending. -/
def nothing : Pending := blanks []

/-- Whether a line break is pending. -/
def hasBreak : Pending → Bool
  | blanks _ => false
  | breaks _ _ => true

/-- Whether anything is pending. -/
def isNothing : Pending → Bool
  | blanks [] => true
  | _ => false

/-- After one more blank; behind a line break blanks do not count. -/
def addBlank : Pending → Char → Pending
  | blanks cs, c => blanks (c :: cs)
  | p, _ => p

/-- After one more line break; blanks in front of the first one do not count. -/
def addBreak : Pending → Char → Pending
  | blanks _, b => breaks (some b) []
  | breaks first cs, b => breaks first (b :: cs)

/-- Appends what is pending to a text that is kept last character first, folding line
breaks. -/
def flush (taken : List Char) : Pending → List Char
  | blanks cs => cs ++ taken
  | breaks (some '\n') [] => ' ' :: taken
  | breaks (some '\n') cs => cs ++ taken
  | breaks (some b) cs => cs ++ b :: taken
  | breaks none cs => cs ++ taken

end Pending

/-! ### Plain scalars -/

/-- Whether a character ends an entry of a flow collection. -/
def isFlowIndicator (c : Char) : Bool :=
  c == ',' || c == '[' || c == ']' || c == '\x7b' || c == '\x7d'

/-- Whether a plain scalar ends in front of a text: at a colon before a blank, and in a
flow collection at its indicators. -/
def endsPlain (inFlow : Bool) : List Char → Bool
  | ':' :: rest => startsBlank rest
  | c :: _ => inFlow && isFlowIndicator c
  | [] => true

/-- Whether a text starts with a colon that a plain scalar in a flow collection must not
contain. -/
def strayColon (inFlow : Bool) : List Char → Bool
  | ':' :: c :: _ => inFlow && (isFlowIndicator c || c == '?')
  | _ => false

/-- What remains to be read of a plain scalar. `indent` is the least column of its
lines. The result holds the text, the cursor behind it and whether the scalar ended
behind a line break. -/
def plainFrom (inFlow : Bool) (indent : Int) (taken : List Char) (pending : Pending)
    (index line column : Nat) : List Char → Option (String × Cursor × Bool)
  | [] =>
    some (String.ofList taken.reverse, ⟨[], index, line, column⟩, pending.hasBreak)
  | '\r' :: '\n' :: rest =>
    plainFrom inFlow indent taken (pending.addBreak '\n') (index + 2) (line + 1) 0 rest
  | c :: rest =>
    let finish := some
      (String.ofList taken.reverse, (⟨c :: rest, index, line, column⟩ : Cursor), pending.hasBreak)
    if isSpace c then
      if pending.hasBreak && c == '\t' && decide ((column : Int) < indent) then none
      else plainFrom inFlow indent taken (pending.addBlank c) (index + 1) line (column + 1) rest
    else if isBreak c then
      plainFrom inFlow indent taken (pending.addBreak (keptBreak c)) (index + c.utf8Size)
        (line + 1) 0 rest
    else if !pending.isNothing && ((!inFlow && decide ((column : Int) < indent)) ||
        (column == 0 && startsMarker (c :: rest)) || c == '#') then finish
    else if strayColon inFlow (c :: rest) then none
    else if endsPlain inFlow (c :: rest) then finish
    else plainFrom inFlow indent (c :: pending.flush taken) .nothing (index + c.utf8Size) line
      (column + 1) rest

/-- A plain scalar at a cursor. -/
def plain? (inFlow : Bool) (indent : Int) (c : Cursor) : Option (String × Cursor × Bool) :=
  plainFrom inFlow indent [] .nothing c.index c.line c.column c.rest

/-! ### Quoted scalars -/

/-- What remains of a scalar between single quotes. A quote is written twice. -/
def singleFrom (taken : List Char) (pending : Pending) (index line column : Nat) :
    List Char → Option (String × Cursor)
  | [] => none
  | '\'' :: '\'' :: rest =>
    singleFrom ('\'' :: pending.flush taken) .nothing (index + 2) line (column + 2) rest
  | '\'' :: rest =>
    some (String.ofList (pending.flush taken).reverse, ⟨rest, index + 1, line, column + 1⟩)
  | '\r' :: '\n' :: rest =>
    singleFrom taken (pending.addBreak '\n') (index + 2) (line + 1) 0 rest
  | c :: rest =>
    if isSpace c then
      singleFrom taken (pending.addBlank c) (index + 1) line (column + 1) rest
    else if isBreak c then
      singleFrom taken (pending.addBreak (keptBreak c)) (index + c.utf8Size) (line + 1) 0 rest
    else if column == 0 && startsMarker (c :: rest) then none
    else singleFrom (c :: pending.flush taken) .nothing (index + c.utf8Size) line (column + 1) rest

/-- The character of an escape of one letter. -/
def unescape? : Char → Option Char
  | '0' => some '\x00'
  | 'a' => some '\x07'
  | 'b' => some '\x08'
  | 't' => some '\t'
  | '\t' => some '\t'
  | 'n' => some '\n'
  | 'v' => some '\x0b'
  | 'f' => some '\x0c'
  | 'r' => some '\r'
  | 'e' => some '\x1b'
  | ' ' => some ' '
  | '"' => some '"'
  | '/' => some '/'
  | '\\' => some '\\'
  | 'N' => some '\u0085'
  | '_' => some '\u00a0'
  | 'L' => some '\u2028'
  | 'P' => some '\u2029'
  | _ => none

/-- The number of hexadecimal digits behind the letter of an escape. -/
def codeLength? : Char → Option Nat
  | 'x' => some 2
  | 'u' => some 4
  | 'U' => some 8
  | _ => none

/-- The character that hexadecimal digits at the start of a text write. -/
def codePoint? (length : Nat) (cs : List Char) : Option Char :=
  let digits := cs.take length
  if digits.length < length then none else Text.charOfHex? digits

/-- What remains of a scalar between double quotes, with fuel for every character. A
backslash at the end of a line joins it with the next one. -/
def doubleFrom : Nat → List Char → Pending → Cursor → Option (String × Cursor)
  | 0, _, _, _ => none
  | fuel + 1, taken, pending, cursor =>
    match cursor.rest with
    | [] => none
    | c :: rest =>
      if isSpace c then doubleFrom fuel taken (pending.addBlank c) cursor.skip
      else if isBreak c then
        doubleFrom fuel taken (pending.addBreak (keptBreak c)) cursor.skipBreak
      else if cursor.column == 0 && startsMarker cursor.rest then none
      else
        let flushed := pending.flush taken
        if c = '"' then some (String.ofList flushed.reverse, cursor.skip)
        else if c = '\\' then
          match rest with
          | [] => none
          | e :: code =>
            if isBreak e then doubleFrom fuel flushed (.breaks none []) cursor.skip.skipBreak
            else
              match unescape? e, codeLength? e with
              | some ch, _ => doubleFrom fuel (ch :: flushed) .nothing (cursor.skipMany 2)
              | none, some n =>
                (codePoint? n code).bind (fun ch =>
                  doubleFrom fuel (ch :: flushed) .nothing (cursor.skipMany (2 + n)))
              | none, none => none
        else doubleFrom fuel (c :: flushed) .nothing cursor.skip

/-- A quoted scalar at a cursor behind its opening quote. -/
def quoted? (single : Bool) (c : Cursor) : Option (String × Cursor) :=
  if single then singleFrom [] .nothing c.index c.line c.column c.rest
  else doubleFrom (c.rest.length + 1) [] .nothing c

/-! ### Block scalars -/

/-- What happens to the line breaks at the end of a block scalar. -/
inductive Chomping where
  | strip
  | clip
  | keep

/-- The header of a block scalar: how its end is treated, and the indentation if it is
stated. -/
structure BlockHeader where
  chomping : Chomping
  increment : Option Nat

/-- The sign of a chomping indicator. -/
def chomping? : List Char → Option Chomping
  | '+' :: _ => some .keep
  | '-' :: _ => some .strip
  | _ => none

/-- The indentation that a header states; zero is refused. -/
def increment? (cs : List Char) : Option (Option Nat) :=
  match cs with
  | '0' :: _ => none
  | c :: _ => some (if c.isDigit then some (c.toNat - 48) else none)
  | [] => some none

/-- The header at a cursor behind the block indicator, and the cursor behind it. The two
indicators may come in either order. -/
def blockHeader? (c : Cursor) : Option (BlockHeader × Cursor) :=
  match chomping? c.rest with
  | some chomping =>
    (increment? c.skip.rest).map (fun increment =>
      (⟨chomping, increment⟩, if increment.isSome then c.skip.skip else c.skip))
  | none =>
    (increment? c.rest).map (fun increment =>
      let c' := if increment.isSome then c.skip else c
      match increment, chomping? c'.rest with
      | some n, some chomping => (⟨chomping, some n⟩, c'.skip)
      | _, _ => (⟨.clip, increment⟩, c'))

/-- Reads indentation and empty lines, with fuel for every line. `limit` is the column up
to which spaces count as indentation, if it is known. The result holds the line breaks,
last one first, the greatest column seen, and the cursor. -/
def blockBreaks (limit : Option Nat) :
    Nat → List Char → Nat → Cursor → Option (List Char × Nat × Cursor)
  | 0, _, _, _ => none
  | fuel + 1, taken, deepest, c =>
    let spaces := (c.rest.takeWhile (fun ch => ch == ' ')).length
    let c' := c.skipMany (match limit with
      | some n => min spaces (n - c.column)
      | none => spaces)
    let deepest' := max deepest c'.column
    let within := match limit with
      | some n => decide (c'.column < n)
      | none => true
    match c'.rest with
    | [] => some (taken, deepest', c')
    | ch :: _ =>
      if within && ch == '\t' then none
      else if isBreak ch then blockBreaks limit fuel (keptBreak ch :: taken) deepest' c'.skipBreak
      else some (taken, deepest', c')

/-- The lines of a block scalar, with fuel for every line. `first` is the line break
behind the line before, `more` those of empty lines behind it, `led` whether that line
started with a blank. -/
def blockLines (literal : Bool) (indent : Nat) :
    Nat → List Char → Option Char → List Char → Bool → Cursor →
      Option (List Char × Option Char × List Char × Cursor)
  | 0, _, _, _, _, _ => none
  | fuel + 1, taken, first, more, led, c =>
    if c.column != indent || c.rest.isEmpty then some (taken, first, more, c)
    else
      let leads := match c.rest with
        | ch :: _ => isSpace ch
        | [] => false
      let folds := !literal && first == some '\n' && !led && !leads
      let joined :=
        if folds then (if more.isEmpty then ' ' :: taken else more ++ taken)
        else more ++ first.toList ++ taken
      let line := c.rest.takeWhile (fun ch => !isBreak ch)
      let c' := c.skipLine
      let next := match c'.rest with
        | b :: _ => some (keptBreak b)
        | [] => none
      (blockBreaks (some indent) (c'.rest.length + 1) [] 0 c'.skipBreak).bind
        (fun (breaks, _, c'') =>
          blockLines literal indent fuel (line.reverse ++ joined) next breaks leads c'')

/-- A block scalar at a cursor behind its indicator; `parent` is the indentation of the
collection around it. -/
def block? (literal : Bool) (parent : Int) (c : Cursor) : Option (String × Cursor) := do
  let (header, c) ← blockHeader? c
  let c ← c.endLine?
  let stated := header.increment.map (fun n => (max parent 0 + n).toNat)
  let (breaks, deepest, c) ← blockBreaks stated (c.rest.length + 1) [] 0 c
  let indent := stated.getD (max (max deepest (parent + 1).toNat) 1)
  let (taken, first, more, c) ← blockLines literal indent (c.rest.length + 1) [] none breaks false c
  let ending := match header.chomping with
    | .strip => taken
    | .clip => first.toList ++ taken
    | .keep => more ++ first.toList ++ taken
  pure (String.ofList ending.reverse, c)

end SearchIndex.Yaml
