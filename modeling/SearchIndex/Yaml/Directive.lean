import SearchIndex.Text.Numeral
import SearchIndex.Yaml.Cursor

/-!
# Directives of a YAML text

A line that starts with a percent sign is a directive about the document behind it. It
states the version of the language, or what a handle of tags stands for; there are no
others. A comment may follow on the same line.

`Directive.read?` reads one directive, and `Directive.areConsistent` says which ones may
stand together in front of a document.
-/

namespace SearchIndex.Yaml

/-- A directive. What a handle stands for does not matter, because no tag is ever read. -/
inductive Directive where
  | version (major minor : Nat)
  | tagHandle (handle : String)
deriving DecidableEq

/-- Whether a character belongs to a name: that of an anchor, a directive or a handle. -/
def isNameChar (c : Char) : Bool := c.isAlphanum || c == '_' || c == '-'

namespace Directive

/-- A number of a version, of at most nine digits, and the cursor behind it. -/
def number? (c : Cursor) : Option (Nat × Cursor) :=
  let digits := c.rest.takeWhile Char.isDigit
  if digits.isEmpty || decide (9 < digits.length) then none
  else some (Text.decimalValue digits, c.skipMany digits.length)

/-- The version at a cursor: two numbers with a point between them. -/
def version? (c : Cursor) : Option (Directive × Cursor) :=
  (number? c).bind (fun (major, c) =>
    if c.rest.head? == some '.' then
      (number? c.skip).map (fun (minor, c) => (.version major minor, c))
    else none)

/-- The length of the handle at the start of a text: a name between exclamation marks,
which may be empty, or one of these marks alone. -/
def handleLength? : List Char → Option Nat
  | '!' :: rest =>
    let name := rest.takeWhile isNameChar
    if (rest.drop name.length).head? == some '!' then some (name.length + 2)
    else if name.isEmpty then some 1
    else none
  | _ => none

/-- Whether a character may stand, unescaped, in what a handle stands for. -/
def isAddressChar (c : Char) : Bool :=
  isNameChar c || ";/?:@&=+$.!~*'(),[]".toList.contains c

/-- The number of bytes still due in a UTF-8 sequence after one more of its bytes, of which
`due` were due before; none were if the byte is the first. -/
def stillDue? (due byte : Nat) : Option Nat :=
  if due = 0 then
    if byte < 0x80 then some 0
    else if byte < 0xC0 then none
    else if byte < 0xE0 then some 1
    else if byte < 0xF0 then some 2
    else if byte < 0xF8 then some 3
    else none
  else if 0x80 ≤ byte ∧ byte < 0xC0 then some (due - 1)
  else none

/-- The length of what a handle stands for at the start of a text. A percent sign escapes
a byte, of which `due` are missing to the end of a UTF-8 sequence. -/
def addressLength? (due : Nat) : List Char → Option Nat
  | '%' :: a :: b :: rest =>
    match Text.hexValue? a, Text.hexValue? b with
    | some high, some low =>
      (stillDue? due (16 * high + low)).bind (fun due =>
        (addressLength? due rest).map (fun n => n + 3))
    | _, _ => none
  | c :: rest =>
    if due ≠ 0 then none
    else if isAddressChar c then (addressLength? 0 rest).map (fun n => n + 1)
    else some 0
  | [] => if due ≠ 0 then none else some 0

/-- The handle at a cursor. What it stands for follows behind blanks. -/
def tagHandle? (c : Cursor) : Option (Directive × Cursor) :=
  (handleLength? c.rest).bind (fun n =>
    let behind := c.skipMany n
    let address := behind.skipWhile isSpace
    (addressLength? 0 address.rest).bind (fun m =>
      let c' := address.skipMany m
      if behind.rest.head?.any isSpace && 0 < m && startsBlank c'.rest then
        some (.tagHandle (String.ofList (c.rest.take n)), c')
      else none))

/-- The directive at a cursor behind its percent sign, and the cursor on the next line. -/
def read? (c : Cursor) : Option (Directive × Cursor) :=
  let name := c.rest.takeWhile isNameChar
  let behind := c.skipMany name.length
  if startsBlank behind.rest then
    let c' := behind.skipWhile isSpace
    let directive :=
      if name = "YAML".toList then version? c'
      else if name = "TAG".toList then tagHandle? c'
      else none
    directive.bind (fun (d, c'') => (c''.endLine?).map (fun next => (d, next)))
  else none

/-- Whether a directive is understood: of the versions, only 1.1 and 1.2 are. -/
def isSupported : Directive → Bool
  | version major minor => major == 1 && (minor == 1 || minor == 2)
  | tagHandle _ => true

/-- The handle that a directive is about, if it is about one. -/
def handle? : Directive → Option String
  | version _ _ => none
  | tagHandle handle => some handle

/-- Whether directives may stand together: all are understood, and no two are about the
version or about the same handle. -/
def areConsistent (ds : List Directive) : Bool :=
  ds.all isSupported && decide (ds.map handle?).Nodup

end Directive

end SearchIndex.Yaml
