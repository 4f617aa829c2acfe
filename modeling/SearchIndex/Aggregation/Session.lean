import SearchIndex.Aggregation
import SearchIndex.Call

/-!
# Calls on an aggregation

The parameters and children of an aggregation are set by calls in place. Each call belongs to
a part of the aggregation, to the parameters of one kind of grouping or to the registry of
children, and is made on that part (`Aggregation.call`).
-/

namespace SearchIndex

/-- Sets the interval, or clears it. -/
def DateHistogram.assignInterval (text : Option String) : Call DateHistogram Unit := do
  if let some t := text then
    unless Interval.isInterval t do
      throw (.validation (.interval t))
  modify fun g => { g with interval := text }

/-- Sets the width of the intervals. -/
def Histogram.assignInterval (interval : Quantity) : Call Histogram Unit := do
  unless interval.isPositive do
    throw (.validation (.histogramInterval interval))
  modify fun g => { g with interval := interval }

/-- Sets the number of buckets, or clears it. -/
def Terms.assignSize (size : Option Nat) : Call Terms Unit := do
  if size = some 0 then
    throw (.validation .termsSize)
  modify fun g => { g with size := size }

/-- Adds a range behind those that are there. -/
def Ranges.push (entry : RangeEntry) : Call Ranges Unit := do
  let g ← get
  match entry.lower, entry.upper with
  | none, none => throw (.validation (.rangeWithoutBound g.field))
  | some lower, some upper =>
    if lower.above upper then
      throw (.validation (.rangeReversed g.field lower upper))
  | _, _ => pure ()
  modify fun g => { g with entries := g.entries ++ [entry] }

/-- Registers a child, in place of one of the same name. -/
def Aggregations.add (name : String) (a : Aggregation) : Call Aggregations Unit := do
  unless allowsName name do
    throw (.validation (.reservedName name))
  modify fun as => as.insert name a

/-- The call on the parameters of a grouping; a change that the grouping does not know does
nothing. -/
def Grouping.call (c : Change) : Call Grouping Unit := do
  match ← get, c with
  | .dateHistogram g, .field name => set (Grouping.dateHistogram { g with field := name })
  | .dateHistogram g, .interval text =>
    (DateHistogram.assignInterval text).onPart g .dateHistogram
  | .dateHistogram g, .zone zone => set (Grouping.dateHistogram { g with zone := zone })
  | .dateHistogram g, .minDocCount n =>
    set (Grouping.dateHistogram { g with minDocCount := n })
  | .histogram g, .width interval => (Histogram.assignInterval interval).onPart g .histogram
  | .histogram g, .minDocCount n => set (Grouping.histogram { g with minDocCount := n })
  | .terms g, .size n => (Terms.assignSize n).onPart g .terms
  | .terms g, .minDocCount n => set (Grouping.terms { g with minDocCount := n })
  | .ranges g, .range entry => (Ranges.push entry).onPart g .ranges
  | _, _ => pure ()

/-- The call that a change of an aggregation is made by. -/
def Aggregation.call (c : Change) : Call Aggregation Unit := do
  match ← get, c with
  | grouping g cs, .child name a => (Aggregations.add name a).onPart cs (grouping g)
  | filter q cs, .child name a => (Aggregations.add name a).onPart cs (filter q)
  | grouping g cs, c => (Grouping.call c).onPart g fun g' => grouping g' cs
  | _, _ => pure ()

end SearchIndex
