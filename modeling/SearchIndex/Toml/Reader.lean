import SearchIndex.Toml.Scalar

/-!
# Reading TOML text

`Toml.read?` reads the table that a whole text writes. Each line holds a statement, a
comment or nothing; arrays and strings between triple quotes may go over several lines.
Arrays and tables in braces nest less than 80 deep, and dotted keys have fewer than 80
parts.
-/

namespace SearchIndex.Toml

/-- How deep collections must not nest, and how many parts a key must not have. -/
def depthLimit : Nat := 80

/-- The text behind leading blanks. -/
def skipBlanks (cs : List Char) : List Char := cs.dropWhile isBlank

/-- The text behind a comment, if it starts with one. -/
def skipComment : List Char → List Char
  | '#' :: rest => rest.dropWhile isText
  | cs => cs

/-- The text behind the end of a line, in front of which a comment may stand. -/
def lineEnd? (cs : List Char) : Option (List Char) :=
  match skipComment (skipBlanks cs) with
  | [] => some []
  | rest => lineBreak? rest

/-- The text behind blanks, comments and line breaks, with fuel for every line. -/
def skipLines : Nat → List Char → List Char
  | 0, cs => cs
  | fuel + 1, cs =>
    match lineBreak? (skipComment (skipBlanks cs)) with
    | some rest => skipLines fuel rest
    | none => skipBlanks cs

/-- The text behind blanks, comments and line breaks. -/
def skipGap (cs : List Char) : List Char := skipLines (cs.length + 1) cs

/-! ### Keys -/

/-- Whether a character may stand in a key without quotes. -/
def isKeyChar (c : Char) : Bool := c.isAlphanum || c == '_' || c == '-'

/-- One part of a key. -/
def keyPart? (cs : List Char) : Option (String × List Char) :=
  match cs with
  | '"' :: rest => basicFrom (rest.length + 1) [] rest
  | '\'' :: rest => literal? rest
  | _ =>
    let name := cs.takeWhile isKeyChar
    if name.isEmpty then none else some (String.ofList name, cs.dropWhile isKeyChar)

/-- The parts of a dotted key, the last one apart from those in front of it, with fuel
for every part. -/
def keyParts? : Nat → List String → List Char → Option ((List String × String) × List Char)
  | 0, _, _ => none
  | fuel + 1, outer, cs =>
    (keyPart? (skipBlanks cs)).bind (fun (part, rest) =>
      match skipBlanks rest with
      | '.' :: rest => keyParts? fuel (outer ++ [part]) rest
      | rest => some ((outer, part), rest))

/-- A key, which may be dotted. -/
def key? (cs : List Char) : Option ((List String × String) × List Char) :=
  keyParts? (depthLimit - 1) [] cs

/-! ### Values -/

mutual

/-- A value that stands inside `depth` collections, with fuel for every part of it. -/
def value? : Nat → Nat → List Char → Option (Value × List Char)
  | 0, _, _ => none
  | fuel + 1, depth, cs =>
    match cs with
    | '[' :: rest =>
      if depth + 1 < depthLimit then
        (items? fuel (depth + 1) [] (skipGap rest)).map (fun (items, rest) =>
          (.array items, rest))
      else none
    | '\x7b' :: rest =>
      if depth + 1 < depthLimit then
        match skipBlanks rest with
        | '\x7d' :: rest => some (.table .braces .empty, rest)
        | rest =>
          (entries? fuel (depth + 1) [] rest).bind (fun (entries, rest) =>
            (Value.ofEntries? entries).map (fun v => (v, rest)))
      else none
    | _ => scalar? cs

/-- The items of an array behind the ones that have been read. The last one may have a
comma behind it. -/
def items? : Nat → Nat → List Value → List Char → Option (List Value × List Char)
  | 0, _, _, _ => none
  | fuel + 1, depth, taken, cs =>
    match cs with
    | ']' :: rest => some (taken.reverse, rest)
    | _ =>
      (value? fuel depth cs).bind (fun (v, rest) =>
        match skipGap rest with
        | ',' :: rest => items? fuel depth (v :: taken) (skipGap rest)
        | ']' :: rest => some ((v :: taken).reverse, rest)
        | _ => none)

/-- The entries of a table in braces behind the ones that have been read. -/
def entries? : Nat → Nat → List (List String × String × Value) → List Char →
    Option (List (List String × String × Value) × List Char)
  | 0, _, _, _ => none
  | fuel + 1, depth, taken, cs =>
    (keyValue? fuel depth cs).bind (fun (e, rest) =>
      match skipBlanks rest with
      | ',' :: rest => entries? fuel depth (e :: taken) rest
      | '\x7d' :: rest => some ((e :: taken).reverse, rest)
      | _ => none)

/-- A key, an equals sign and a value. -/
def keyValue? : Nat → Nat → List Char → Option ((List String × String × Value) × List Char)
  | 0, _, _ => none
  | fuel + 1, depth, cs =>
    (key? cs).bind (fun ((outer, key), rest) =>
      match rest with
      | '=' :: rest =>
        (value? fuel depth (skipBlanks rest)).map (fun (v, rest) => ((outer, key, v), rest))
      | _ => none)

end

/-! ### Statements -/

/-- A statement, which takes the rest of its line. -/
def statement? (cs : List Char) : Option (Statement × List Char) :=
  match cs with
  | '[' :: '[' :: rest =>
    (key? rest).bind (fun ((outer, key), rest) =>
      match rest with
      | ']' :: ']' :: rest =>
        (lineEnd? rest).map (fun rest => (.repeatedHeader outer key, rest))
      | _ => none)
  | '[' :: rest =>
    (key? rest).bind (fun ((outer, key), rest) =>
      match rest with
      | ']' :: rest => (lineEnd? rest).map (fun rest => (.header outer key, rest))
      | _ => none)
  | _ =>
    (keyValue? (3 * cs.length + 3) 0 cs).bind (fun ((outer, key, value), rest) =>
      (lineEnd? rest).map (fun rest => (.entry outer key value, rest)))

/-- The statements of a text, with fuel for every one. -/
def statements? : Nat → List Char → Option (List Statement)
  | 0, _ => none
  | fuel + 1, cs =>
    match skipGap cs with
    | [] => some []
    | '#' :: rest => if (rest.dropWhile isText).isEmpty then some [] else none
    | rest =>
      (statement? rest).bind (fun (s, rest) => (statements? fuel rest).map (s :: ·))

/-- The table that a text writes. A byte order mark at its start does not count. -/
def read? (text : String) : Option (Table Value) :=
  let cs := match text.toList with
    | '\ufeff' :: rest => rest
    | cs => cs
  (statements? (cs.length + 1) cs).bind Value.ofStatements?

end SearchIndex.Toml
