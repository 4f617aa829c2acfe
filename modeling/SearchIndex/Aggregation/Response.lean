import SearchIndex.Aggregation
import SearchIndex.Bucket
import SearchIndex.Formatter

/-!
# Aggregations in a response

Each aggregation decodes its own part of a response. Groupings read a list of buckets
and decode their children in every one of them; a filter is one bucket; a metric is a
value. A child that a part of the response does not have is left out, and one whose
part is no object is a final value. The values of fields go through the formatter;
counts do not.
-/

namespace SearchIndex

/-- Whether a metric counts documents rather than computing a value of its field. -/
def MetricKind.counts : MetricKind → Bool
  | .valueCount => true
  | .cardinality => true
  | _ => false

namespace Metric

/-- Takes the member of a key out of the statistics and puts it back, shaped, at the
end; the last member takes its place. -/
def shapeMember (shape : Json → Json) (stats : Document) (key : String) : Document :=
  match stats.get? key with
  | none => stats
  | some value => (stats.swapErase key).insert key (shape value)

/-- The result of a metric. Of statistics, the least, greatest and mean values are
values of the field; of any other metric the value is, unless it is a count. -/
def decode (formatter : Formatter) (m : Metric) (raw : Json) : Except Error Decoded :=
  match raw.members? with
  | none => .error (.decode (.notAnObject m.kind.word))
  | some members =>
    if m.kind = .stats then
      let shape := formatter (some m.field)
      .ok (.value (.object (["min", "max", "avg"].foldl (shapeMember shape) members)))
    else match members.get? "value" with
      | none => .error (.decode (.withoutValue m.kind.word))
      | some value =>
        .ok (.value (if m.kind.counts then value else formatter (some m.field) value))

end Metric

/-- A bucket from its part of the response and the results of its children. -/
def Bucket.ofMembers (members : Document) (children : List (String × Decoded)) : Bucket where
  key := (members.get? "key").getD .null
  keyAsString := (members.get? "key_as_string").bind Json.string?
  docCount := (members.get? "doc_count").bind Json.nat?
  children := ⟨children⟩

/-- A bucket from an entry of a list of buckets, given how to decode the children. -/
def Bucket.decode (type : String)
    (children : Document → Except Error (List (String × Decoded))) (entry : Json) :
    Except Error Bucket :=
  match entry.members? with
  | none => .error (.decode (.bucketNotAnObject type))
  | some members => (children members).map (Bucket.ofMembers members)

mutual

/-- The result of an aggregation. -/
def Aggregation.decode (formatter : Formatter) : Aggregation → Json → Except Error Decoded
  | .grouping g ⟨children⟩, raw =>
    match (raw.member? "buckets").bind Json.items? with
    | none => .error (.decode (.withoutBuckets g.word))
    | some entries =>
      (entries.mapM
        (Bucket.decode g.word (Aggregation.decodeChildren formatter children))).map .buckets
  | .filter _ ⟨children⟩, raw =>
    match raw.members? with
    | none => .error (.decode (.notAnObject "filter"))
    | some members =>
      (Aggregation.decodeChildren formatter children members).map (fun results =>
        .bucket { Bucket.ofMembers members results with key := .null, keyAsString := none })
  | .metric m, raw => m.decode formatter raw

/-- The results of the named aggregations that a part of the response has. -/
def Aggregation.decodeChildren (formatter : Formatter) :
    List (String × Aggregation) → Document → Except Error (List (String × Decoded))
  | [], _ => .ok []
  | (name, a) :: rest, members =>
    match members.get? name with
    | none => Aggregation.decodeChildren formatter rest members
    | some (.object payload) => do
      let result ← a.decode formatter (.object payload)
      let others ← Aggregation.decodeChildren formatter rest members
      pure ((name, result) :: others)
    | some value => do
      let others ← Aggregation.decodeChildren formatter rest members
      pure ((name, .value (formatter a.field? value)) :: others)

end

/-- The results of registered aggregations that a document has, in the order of
registration. -/
def Aggregations.decode (as : Aggregations) (formatter : Formatter) (raw : Document) :
    Except Error (Table Decoded) :=
  (Aggregation.decodeChildren formatter as.entries raw).map Table.mk

end SearchIndex
