import SearchIndex.Json
import SearchIndex.Text.Numeral
import SearchIndex.Yaml.Graph

/-!
# What plain scalars stand for

A plain scalar may stand for nothing, a truth value or a number; any other scalar is a
text. Integers are decimal, hexadecimal, octal or binary, and a decimal that starts with
a zero and has further digits is a text. An integer that fits 64 bits is kept exactly;
one beyond that and up to 128 bits is refused.
-/

namespace SearchIndex.Yaml

/-- What a scalar stands for. -/
inductive Meaning where
  | null
  | bool (value : Bool)
  | int (value : Int)
  /-- An integer that no value can hold. -/
  | tooLarge
  | real (value : Quantity)
  | text (value : String)

namespace Meaning

/-- Whether a text stands for nothing. -/
def isNull (s : String) : Bool := ["null", "Null", "NULL", "~"].contains s

/-- The truth value of a text. -/
def bool? (s : String) : Option Bool :=
  if ["true", "True", "TRUE"].contains s then some true
  else if ["false", "False", "FALSE"].contains s then some false
  else none

/-- The number that digits of a base write; there is at least one. -/
def digits? (base : Nat) (cs : List Char) : Option Nat :=
  if cs.isEmpty then none
  else cs.foldlM (fun n c =>
    (Text.hexValue? c).bind (fun d => if d < base then some (n * base + d) else none)) 0

/-- Whether a text, apart from its sign, has a zero in front of further digits. -/
def hasLeadingZero (cs : List Char) : Bool :=
  let bare := match cs with
    | '-' :: rest => rest
    | '+' :: rest => rest
    | _ => cs
  match bare with
  | '0' :: c :: rest => (c :: rest).all Char.isDigit
  | _ => false

/-- The number that a text without a sign writes, in any of the four bases. -/
def natural? (cs : List Char) : Option Nat :=
  match cs with
  | '0' :: 'x' :: rest => digits? 16 rest
  | '0' :: 'o' :: rest => digits? 8 rest
  | '0' :: 'b' :: rest => digits? 2 rest
  | _ => if hasLeadingZero cs then none else digits? 10 cs

/-- The integer that a text writes, with at most one sign. -/
def integer? (cs : List Char) : Option Int :=
  match cs with
  | '+' :: rest => (natural? rest).map (fun n => (n : Int))
  | '-' :: rest => (natural? rest).map (fun n => -(n : Int))
  | _ => (natural? cs).map (fun n => (n : Int))

/-- Digits with a point somewhere, an exponent, and nothing else; there is at least one
digit before the exponent. -/
def decimal? (negative : Bool) (cs : List Char) : Option Quantity :=
  let whole := cs.takeWhile Char.isDigit
  let rest := cs.dropWhile Char.isDigit
  let (fraction, rest) : List Char × List Char :=
    match rest with
    | '.' :: rest => (rest.takeWhile Char.isDigit, rest.dropWhile Char.isDigit)
    | _ => ([], rest)
  if whole.isEmpty && fraction.isEmpty then none
  else
    (Text.exponent? rest).bind (fun (exponent, rest) =>
      if rest.isEmpty then
        some (Quantity.ofDecimal negative (Text.decimalValue (whole ++ fraction))
          (exponent.getD 0 - fraction.length))
      else none)

/-- The number with a fraction or an exponent that a text writes. What rounds to
infinity is no number. -/
def finite? (negative : Bool) (cs : List Char) : Option Quantity :=
  (decimal? negative cs).bind (fun q => q.finite?.map Quantity.finite)

/-- The real number, or the infinity or the lack of a number, that a text writes. -/
def real? (s : String) : Option Quantity :=
  if [".inf", ".Inf", ".INF", "+.inf", "+.Inf", "+.INF"].contains s then some (.infinite false)
  else if ["-.inf", "-.Inf", "-.INF"].contains s then some (.infinite true)
  else if [".nan", ".NaN", ".NAN"].contains s then some .notANumber
  else match s.toList with
    | '+' :: '-' :: _ => none
    | '+' :: rest => finite? false rest
    | '-' :: rest => finite? true rest
    | cs => finite? false cs

/-- The least integer of 128 bits with a sign. -/
def least128 : Int := -0x80000000000000000000000000000000

/-- The greatest integer of 128 bits without a sign. -/
def greatest128 : Int := 0xFFFFFFFFFFFFFFFFFFFFFFFFFFFFFFFF

/-- What a plain scalar stands for. -/
def ofPlain (s : String) : Meaning :=
  if s.isEmpty || isNull s then .null
  else match bool? s with
    | some b => .bool b
    | none =>
      match integer? s.toList with
      | some n =>
        if Number.least ≤ n ∧ n ≤ Number.greatest then .int n
        else if least128 ≤ n ∧ n ≤ greatest128 then .tooLarge
        else ((real? s).map .real).getD (.text s)
      | none =>
        if hasLeadingZero s.toList then .text s
        else ((real? s).map .real).getD (.text s)

/-- What a scalar stands for. -/
def ofScalar (text : String) (plain : Bool) : Meaning :=
  if plain then ofPlain text else .text text

/-- The value that a meaning has in a document. -/
def toJson? : Meaning → Option Json
  | null => some .null
  | bool b => some (.bool b)
  | int n => some (.number (.int n))
  | tooLarge => none
  | real q => some (.ofQuantity q)
  | text s => some (.string s)

end Meaning

/-- How the keys of mappings become the keys of objects. -/
inductive KeyRule where
  /-- The text of any scalar is a key. -/
  | anyScalar
  /-- Only scalars that are texts are keys. -/
  | textOnly

/-- The key that a node is, under a rule. -/
def KeyRule.key (rule : KeyRule) (n : Node) : Reading String := do
  match ← n.target with
  | .scalar s plain =>
    match rule, Meaning.ofScalar s plain with
    | .anyScalar, _ => return s
    | .textOnly, .text s => return s
    | .textOnly, _ => failure
  | _ => failure

/-- The document of some entries, whose values are as `value` reads them. A repeated key
keeps its first place and takes its last value. -/
def KeyRule.members (rule : KeyRule) (value : Node → Reading Json)
    (entries : List (Node × Node)) : Reading Document :=
  entries.foldlM (fun taken (k, v) => return taken.insert (← rule.key k) (← value v)) .empty

/-- The value of a node, whose collections may be nested as deep as `depth`. -/
def Node.toJson (rule : KeyRule) (depth : Nat) (n : Node) : Reading Json := do
  match ← n.target, depth with
  | .scalar s plain, _ => (Meaning.ofScalar s plain).toJson?
  | .sequence items, deeper + 1 => return .array (← items.mapM (toJson rule deeper))
  | .mapping entries, deeper + 1 => return .object (← rule.members (toJson rule deeper) entries)
  | _, _ => failure

end SearchIndex.Yaml
