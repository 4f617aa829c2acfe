import SearchIndex.Json

/-!
# Decoded aggregations

The result of an aggregation is a value, one bucket, or a list of buckets in the
order of the response. A bucket holds the results of the child aggregations that its
part of the response has, in the order in which they were registered.

As a document, a bucket lists its own members first and its children behind them.
-/

namespace SearchIndex

mutual

/-- A group of documents: its key as the response has it, the text of the key and
the number of documents if they are known, and the results of the children. -/
structure Bucket where
  key : Json
  keyAsString : Option String
  docCount : Option Nat
  children : Table Decoded

/-- The result of an aggregation. -/
inductive Decoded where
  | value (value : Json)
  | bucket (bucket : Bucket)
  | buckets (buckets : List Bucket)

end

/-- The result of a child aggregation. -/
def Bucket.child? (b : Bucket) (name : String) : Option Decoded := b.children.get? name

/-- The buckets of a result. One bucket is a list of one, and a value counts as one
bucket with that key. -/
def Decoded.collection : Decoded → List Bucket
  | .buckets bs => bs
  | .bucket b => [b]
  | .value v => [⟨v, none, none, .empty⟩]

/-- What a bucket says of a child that it does not have. -/
def Bucket.missingChild (name : String) : String :=
  "bucket has no aggregation named '" ++ name ++ "'"

mutual

/-- A bucket as a document. -/
def Bucket.toDocument : Bucket → Document
  | ⟨key, keyAsString, docCount, ⟨children⟩⟩ =>
    ⟨("key", key) ::
      ((keyAsString.map (fun s => ("key_as_string", Json.string s))).toList ++
        (docCount.map (fun n => ("doc_count", Json.ofNat n))).toList ++
        Decoded.toMembers children)⟩

/-- A result as a value. -/
def Decoded.toJson : Decoded → Json
  | .value v => v
  | .bucket b => .object b.toDocument
  | .buckets bs => .array (Bucket.toItems bs)

/-- Buckets as the items of an array. -/
def Bucket.toItems : List Bucket → List Json
  | [] => []
  | b :: rest => .object b.toDocument :: Bucket.toItems rest

/-- Named results as the members of an object. -/
def Decoded.toMembers : List (String × Decoded) → List (String × Json)
  | [] => []
  | (name, r) :: rest => (name, r.toJson) :: Decoded.toMembers rest

end

end SearchIndex
