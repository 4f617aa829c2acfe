import SearchIndex.Aggregation.Interval
import SearchIndex.Query

/-!
# Aggregations

An aggregation either groups documents into buckets, by dates, by numbers, by terms
or by ranges, or keeps those that match a query as one bucket, or computes a metric of
a field. Groupings and filters carry named child aggregations, which are computed in
every bucket; metrics are leaves.

The parameters of an aggregation are set by `Aggregation.change`, which refuses what
the engine would not accept and then has no result, so that a refused change leaves
the aggregation as it was.
-/

namespace SearchIndex

/-- Groups by date intervals. -/
structure DateHistogram where
  field : String
  interval : Option String
  zone : Option TimeZone
  minDocCount : Option Nat

/-- Groups by numeric intervals of one width. -/
structure Histogram where
  field : String
  interval : Quantity
  minDocCount : Option Nat

/-- Groups by the most frequent values. -/
structure Terms where
  field : String
  size : Option Nat
  minDocCount : Option Nat

/-- One range: from its lower bound on, up to but without its upper bound. -/
structure RangeEntry where
  key : Option String
  lower : Option Quantity
  upper : Option Quantity

/-- Groups by given ranges. -/
structure Ranges where
  field : String
  entries : List RangeEntry

/-- A way to put documents into buckets. -/
inductive Grouping where
  | dateHistogram (by_ : DateHistogram)
  | histogram (by_ : Histogram)
  | terms (by_ : Terms)
  | ranges (by_ : Ranges)

/-- What a metric computes. -/
inductive MetricKind where
  | avg
  | sum
  | min
  | max
  | valueCount
  | cardinality
  | stats
deriving DecidableEq

/-- A metric of a field. -/
structure Metric where
  kind : MetricKind
  field : String

/-- An aggregation with its children. -/
inductive Aggregation where
  | grouping (by_ : Grouping) (children : Table Aggregation)
  | filter (query : Query) (children : Table Aggregation)
  | metric (metric : Metric)

/-- Named aggregations, in order of registration. -/
abbrev Aggregations := Table Aggregation

/-! ### Words and fields -/

/-- The word for a metric. -/
def MetricKind.word : MetricKind → String
  | .avg => "avg"
  | .sum => "sum"
  | .min => "min"
  | .max => "max"
  | .valueCount => "value_count"
  | .cardinality => "cardinality"
  | .stats => "stats"

/-- The word for a grouping. -/
def Grouping.word : Grouping → String
  | .dateHistogram _ => "date_histogram"
  | .histogram _ => "histogram"
  | .terms _ => "terms"
  | .ranges _ => "range"

/-- The field that a grouping looks at. -/
def Grouping.field : Grouping → String
  | .dateHistogram g => g.field
  | .histogram g => g.field
  | .terms g => g.field
  | .ranges g => g.field

namespace Aggregation

/-- The word for an aggregation, under which its parameters are sent. -/
def word : Aggregation → String
  | grouping g _ => g.word
  | filter _ _ => "filter"
  | metric m => m.kind.word

/-- The field that the aggregation looks at; a filter has none. -/
def field? : Aggregation → Option String
  | grouping g _ => some g.field
  | filter _ _ => none
  | metric m => some m.field

/-- The child aggregations; a metric has none. -/
def children : Aggregation → Aggregations
  | grouping _ cs => cs
  | filter _ cs => cs
  | metric _ => .empty

end Aggregation

/-! ### Registration -/

namespace Aggregations

/-- The names that a bucket uses for itself. -/
def reservedNames : List String := ["key", "key_as_string", "doc_count"]

/-- Whether an aggregation may have a name: it is not empty and not one that a bucket
uses for itself. -/
def allowsName (name : String) : Bool := !name.isEmpty && !reservedNames.contains name

/-- Registers an aggregation; one of the same name is replaced in place. -/
def register (as : Aggregations) (name : String) (a : Aggregation) :
    Except Error Aggregations :=
  if allowsName name then .ok (as.insert name a)
  else .error (.validation (.reservedName name))

end Aggregations

/-! ### Changes -/

/-- A change of an aggregation. Each kind of aggregation knows some of them. -/
inductive Change where
  | child (name : String) (a : Aggregation)
  | field (name : String)
  | interval (text : Option String)
  | zone (zone : Option TimeZone)
  | minDocCount (count : Option Nat)
  | width (interval : Quantity)
  | size (count : Option Nat)
  | range (entry : RangeEntry)

/-- Sets the interval, which must be one if it is given. -/
def DateHistogram.setInterval (g : DateHistogram) (text : Option String) :
    Except Error DateHistogram :=
  match text with
  | none => .ok { g with interval := none }
  | some t =>
    if Interval.isInterval t then .ok { g with interval := some t }
    else .error (.validation (.interval t))

/-- Sets the width of the intervals, which must be a positive number. -/
def Histogram.setInterval (g : Histogram) (interval : Quantity) : Except Error Histogram :=
  if interval.isPositive then .ok { g with interval := interval }
  else .error (.validation (.histogramInterval interval))

/-- Sets the number of buckets, of which there must be at least one. -/
def Terms.setSize (g : Terms) (size : Option Nat) : Except Error Terms :=
  if size = some 0 then .error (.validation .termsSize) else .ok { g with size := size }

/-- Adds a range, which must have a bound; the lower bound must not lie above the
upper one. -/
def Ranges.add (g : Ranges) (entry : RangeEntry) : Except Error Ranges :=
  match entry.lower, entry.upper with
  | none, none => .error (.validation (.rangeWithoutBound g.field))
  | some lower, some upper =>
    if lower.above upper then .error (.validation (.rangeReversed g.field lower upper))
    else .ok { g with entries := g.entries ++ [entry] }
  | _, _ => .ok { g with entries := g.entries ++ [entry] }

/-- Applies a change of parameters; one that the grouping does not know leaves it as it
is. -/
def Grouping.change : Grouping → Change → Except Error Grouping
  | .dateHistogram g, .field name => .ok (.dateHistogram { g with field := name })
  | .dateHistogram g, .interval text => (g.setInterval text).map .dateHistogram
  | .dateHistogram g, .zone zone => .ok (.dateHistogram { g with zone := zone })
  | .dateHistogram g, .minDocCount n => .ok (.dateHistogram { g with minDocCount := n })
  | .histogram g, .width interval => (g.setInterval interval).map .histogram
  | .histogram g, .minDocCount n => .ok (.histogram { g with minDocCount := n })
  | .terms g, .size n => (g.setSize n).map .terms
  | .terms g, .minDocCount n => .ok (.terms { g with minDocCount := n })
  | .ranges g, .range entry => (g.add entry).map .ranges
  | g, _ => .ok g

namespace Aggregation

/-- Applies a change. Children are registered on groupings and filters, parameters
belong to groupings, and a metric has nothing to change. -/
def change : Aggregation → Change → Except Error Aggregation
  | grouping g cs, .child name a => (Aggregations.register cs name a).map (grouping g)
  | filter q cs, .child name a => (Aggregations.register cs name a).map (filter q)
  | grouping g cs, c => (g.change c).map (fun g' => grouping g' cs)
  | a, _ => .ok a

/-- Groups by dates. -/
def dateHistogram (field : String) : Aggregation :=
  grouping (.dateHistogram ⟨field, none, none, none⟩) .empty

/-- Groups by numeric intervals, whose width must be positive. -/
def histogram (field : String) (interval : Quantity) : Except Error Aggregation :=
  (Histogram.setInterval ⟨field, interval, none⟩ interval).map
    (fun g => grouping (.histogram g) .empty)

/-- Groups by terms. -/
def terms (field : String) : Aggregation := grouping (.terms ⟨field, none, none⟩) .empty

/-- Groups by ranges, of which there are none yet. -/
def ranges (field : String) : Aggregation := grouping (.ranges ⟨field, []⟩) .empty

end Aggregation

end SearchIndex
