import SearchIndex.Number.Decimal
import SearchIndex.Table

/-!
# JSON values and documents

The values that mappings, requests and responses are made of. Numbers keep their
sort: an integer stays an integer and a number with a fraction or an exponent
stays a binary64 number. Objects are tables, so they list their members in order
of arrival; a `Document` is what an object holds.

Equality of values (`Json.same`) ignores the order of members, tells the sorts of
numbers apart and identifies the two zeros.
-/

namespace SearchIndex

/-- A number of a document, in one of its two sorts. -/
inductive Number where
  | int (value : Int)
  | real (value : Binary64)
deriving DecidableEq

/-- A JSON value. -/
inductive Json where
  | null
  | bool (value : Bool)
  | number (value : Number)
  | string (value : String)
  | array (items : List Json)
  | object (members : Table Json)

/-- The members of a JSON object. -/
abbrev Document := Table Json

namespace Number

/-- The least integer of the sort that a document can hold. -/
def least : Int := -0x8000000000000000

/-- The greatest integer that a signed 64-bit reader accepts. -/
def greatestSigned : Int := 0x7FFFFFFFFFFFFFFF

/-- The greatest integer that a document can hold. -/
def greatest : Int := 0xFFFFFFFFFFFFFFFF

/-- Equality of values within a sort. -/
def same : Number → Number → Bool
  | .int a, .int b => a == b
  | .real a, .real b => a.same b
  | _, _ => false

/-- The value as a binary64 number, rounded if it is an integer. -/
def toReal? : Number → Option Binary64
  | .int n => (Quantity.ofInt n).finite?
  | .real x => some x

end Number

namespace Json

instance : Inhabited Json := ⟨.null⟩

/-- A natural number as a value. -/
def ofNat (n : Nat) : Json := .number (.int n)

/-- A quantity as a value; documents have no infinities, and what is not finite
is written as null. -/
def ofQuantity : Quantity → Json
  | .finite x => .number (.real x)
  | _ => .null

/-- An object with the given members. -/
def ofMembers (entries : List (String × Json)) : Json := .object ⟨entries⟩

/-- The text, if the value is one. -/
def string? : Json → Option String
  | .string s => some s
  | _ => none

/-- The items, if the value is an array. -/
def items? : Json → Option (List Json)
  | .array items => some items
  | _ => none

/-- The members, if the value is an object. -/
def members? : Json → Option Document
  | .object members => some members
  | _ => none

/-- The natural number, if the value is an integer that is not negative. -/
def nat? : Json → Option Nat
  | .number (.int n) => if 0 ≤ n then some n.toNat else none
  | _ => none

/-- The value as a binary64 number, if it is a number. -/
def real? : Json → Option Binary64
  | .number n => n.toReal?
  | _ => none

/-- The value under a key, if the value is an object that has it. -/
def member? (value : Json) (key : String) : Option Json :=
  value.members?.bind (fun d => d.get? key)

mutual

/-- Equality of values. Objects are equal when they have the same keys and equal
values under them, in whatever order. -/
def same : Json → Json → Bool
  | .null, .null => true
  | .bool a, .bool b => a == b
  | .number a, .number b => a.same b
  | .string a, .string b => a == b
  | .array xs, .array ys => sameItems xs ys
  | .object ⟨es⟩, .object t => es.length == t.size && sameMembers es t
  | _, _ => false

/-- Equality of items, place by place. -/
def sameItems : List Json → List Json → Bool
  | [], [] => true
  | x :: xs, y :: ys => x.same y && sameItems xs ys
  | _, _ => false

/-- Whether each member is found, with an equal value, in a document. -/
def sameMembers : List (String × Json) → Document → Bool
  | [], _ => true
  | (k, v) :: rest, t =>
    (match t.get? k with
      | some w => v.same w
      | none => false) && sameMembers rest t

end

end Json

/-- Equality of documents, in whatever order their members are. -/
def Document.same (a b : Document) : Bool := (Json.object a).same (.object b)

@[simp] theorem Json.members?_object (d : Document) : (Json.object d).members? = some d := rfl

@[simp] theorem Json.member?_object (d : Document) (key : String) :
    (Json.object d).member? key = d.get? key := rfl

end SearchIndex
