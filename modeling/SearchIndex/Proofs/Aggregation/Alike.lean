import SearchIndex.Aggregation.Request
import SearchIndex.Proofs.Aggregation.Tree
import SearchIndex.Proofs.Query.Alike
import SearchIndex.Proofs.Table

/-!
# Aggregations told apart by their objects

An aggregation is sent under its word, with its children behind it if it has any.
`Aggregation.render_alike_iff` carries over to aggregations what holds of queries: two of
them have the same object exactly if they are the same aggregation with the same children
under the same names in the same order (`Aggregation.Alike`).

All kinds are sent in one form, a member for the parameters and possibly one for the children
(`Aggregation.render_eq`), so only the parameters are looked at kind by kind.
-/

namespace SearchIndex

/-! ### Parameters -/

/-- Ranges with the same key and the same bounds. -/
structure RangeEntry.Alike (e e' : RangeEntry) : Prop where
  key : e.key = e'.key
  lower : Option.Rel Quantity.Same e.lower e'.lower
  upper : Option.Rel Quantity.Same e.upper e'.upper

/-- The same grouping: one kind with the same parameters, and the same ranges in order. -/
def Grouping.Alike : Grouping → Grouping → Prop
  | .dateHistogram g, .dateHistogram g' =>
    g.field = g'.field ∧ g.interval = g'.interval ∧ Option.Rel TimeZone.Alike g.zone g'.zone ∧
      g.minDocCount = g'.minDocCount
  | .histogram g, .histogram g' =>
    g.field = g'.field ∧ g.interval.Same g'.interval ∧ g.minDocCount = g'.minDocCount
  | .terms g, .terms g' =>
    g.field = g'.field ∧ g.size = g'.size ∧ g.minDocCount = g'.minDocCount
  | .ranges g, .ranges g' =>
    g.field = g'.field ∧ List.Forall₂ RangeEntry.Alike g.entries g'.entries
  | _, _ => False

/-- The quantities among the bounds of a range. -/
def RangeEntry.quantities (e : RangeEntry) : List Quantity := e.lower.toList ++ e.upper.toList

/-- The quantities among the parameters of a grouping. -/
def Grouping.quantities : Grouping → List Quantity
  | .dateHistogram _ => []
  | .histogram g => [g.interval]
  | .terms _ => []
  | .ranges g => g.entries.flatMap RangeEntry.quantities

/-- **A range is told from others by its object.** -/
theorem RangeEntry.render_alike_iff {e e' : RangeEntry} (h : ∀ x ∈ e.quantities, x.IsFinite)
    (h' : ∀ x ∈ e'.quantities, x.IsFinite) : e.render.alike e'.render ↔ e.Alike e' := by
  rw [quantities, List.forall_mem_append] at h h'
  have hlower := Json.alikeIfSet_ofQuantity h.1 h'.1
  have hupper := Json.alikeIfSet_ofQuantity h.2 h'.2
  -- the object has a member for each of the three, if it is set
  have hmembers : e.render.alike e'.render ↔ e.key = e'.key ∧
      Option.Rel Quantity.Same e.lower e'.lower ∧
      Option.Rel Quantity.Same e.upper e'.upper := by
    simp [render, Document.ofOptional_alike_iff, Json.alikeIfSet_string, hlower, hupper]
  rw [hmembers]
  refine ⟨?_, fun h => ⟨h.key, h.lower, h.upper⟩⟩
  rintro ⟨key, lower, upper⟩
  exact ⟨key, lower, upper⟩

/-- The word of a metric tells what it computes. -/
theorem MetricKind.word_inj {k k' : MetricKind} : k.word = k'.word ↔ k = k' := by
  cases k <;> cases k' <;> simp [word]

namespace Grouping

variable {g g' : Grouping}

theorem Alike.word_eq (h : g.Alike g') : g.word = g'.word := by
  cases g <;> cases g' <;> first | rfl | exact absurd h (by simp [Alike])

/-- Lists of ranges have the same objects exactly if they are the same, range by range. -/
theorem ranges_alike_iff {es es' : List RangeEntry}
    (h : ∀ x ∈ es.flatMap RangeEntry.quantities, x.IsFinite)
    (h' : ∀ x ∈ es'.flatMap RangeEntry.quantities, x.IsFinite) :
    List.Forall₂ (fun v w => v.alike w) (es.map RangeEntry.render) (es'.map RangeEntry.render) ↔
      List.Forall₂ RangeEntry.Alike es es' := by
  -- both lists are taken apart together, and the quantities with them
  induction es generalizing es' with
  | nil => cases es' <;> simp
  | cons e rest ih =>
    cases es' with
    | nil => simp
    | cons e' rest' =>
      rw [List.flatMap_cons, List.forall_mem_append] at h h'
      rw [List.map_cons, List.map_cons, List.forall₂_cons, List.forall₂_cons,
        RangeEntry.render_alike_iff h.1 h'.1, ih h.2 h'.2]

/-- Groupings of one kind have the same parameters exactly if they are the same. -/
theorem parameters_alike_iff (hword : g.word = g'.word) (h : ∀ x ∈ g.quantities, x.IsFinite)
    (h' : ∀ x ∈ g'.quantities, x.IsFinite) :
    g.parameters.alike g'.parameters ↔ g.Alike g' := by
  -- the word has settled the kind, so that only parameters of one kind are compared
  cases g with
  | dateHistogram g =>
    cases g' with
    | dateHistogram g' =>
      simp [parameters, Document.ofOptional_alike_iff, Alike, Json.alikeIfSet_string,
        Json.alikeIfSet_zone, Json.alikeIfSet_ofNat]
    | _ => exact absurd hword (by simp [word])
  | histogram g =>
    cases g' with
    | histogram g' =>
      -- a width is always there, and a finite one is told by its number
      have hinterval : (Json.ofQuantity g.interval).alike (.ofQuantity g'.interval) ↔
          g.interval.Same g'.interval :=
        Json.alike_ofQuantity (h _ List.mem_cons_self) (h' _ List.mem_cons_self)
      simp [parameters, Document.ofOptional_alike_iff, Alike, hinterval, Json.alikeIfSet_ofNat]
    | _ => exact absurd hword (by simp [word])
  | terms g =>
    cases g' with
    | terms g' =>
      simp [parameters, Document.ofOptional_alike_iff, Alike, Json.alikeIfSet_ofNat]
    | _ => exact absurd hword (by simp [word])
  | ranges g =>
    cases g' with
    | ranges g' => simp [parameters, Alike, ranges_alike_iff h h']
    | _ => exact absurd hword (by simp [word])

end Grouping

namespace Aggregation

/-! ### The same aggregation -/

mutual

/-- The same aggregation: one kind with the same parameters, and the same children under the
same names in the same order. -/
def Alike : Aggregation → Aggregation → Prop
  | grouping g ⟨children⟩, grouping g' ⟨children'⟩ => g.Alike g' ∧ AlikeList children children'
  | filter query ⟨children⟩, filter query' ⟨children'⟩ =>
    query.Alike query' ∧ AlikeList children children'
  | metric m, metric m' => m = m'
  | _, _ => False

/-- The same named aggregations, place by place. -/
def AlikeList : List (String × Aggregation) → List (String × Aggregation) → Prop
  | [], [] => True
  | (name, a) :: rest, (name', a') :: rest' =>
    name = name' ∧ a.Alike a' ∧ AlikeList rest rest'
  | _, _ => False

end

mutual

/-- The quantities among the parameters of an aggregation and its children. -/
def quantities : Aggregation → List Quantity
  | grouping g ⟨children⟩ => g.quantities ++ quantitiesOf children
  | filter query ⟨children⟩ => query.quantities ++ quantitiesOf children
  | metric _ => []

/-- The quantities of named aggregations. -/
def quantitiesOf : List (String × Aggregation) → List Quantity
  | [] => []
  | (_, a) :: rest => a.quantities ++ quantitiesOf rest

end

/-- All quantities of the aggregation are finite. -/
def Finite (a : Aggregation) : Prop := ∀ x ∈ a.quantities, x.IsFinite

/-! ### The form of the object -/

/-- The parameters of an aggregation. -/
def parameters : Aggregation → Document
  | grouping g _ => g.parameters
  | filter query _ => query.render
  | metric m => ⟨[("field", .string m.field)]⟩

/-- Named children as a member of an object, if there are any. -/
def children? (children : List (String × Aggregation)) : Option Json :=
  match renderList children with
  | [] => none
  | rendered => some (.object ⟨rendered⟩)

/-- Children that are added to an object without `aggs` are one more member of it. -/
theorem withChildren_ofOptional {members : List (String × Option Json)}
    (hnew : "aggs" ∉ members.map Prod.fst) (children : List (String × Aggregation)) :
    (Document.ofOptional members).withChildren (renderList children) =
      Document.ofOptional (members ++ [("aggs", children? children)]) := by
  have hend : Document.ofOptional (members ++ [("aggs", children? children)]) =
      ⟨(Document.ofOptional members).entries ++
        (Document.ofOptional [("aggs", children? children)]).entries⟩ :=
    congrArg Table.mk List.filterMap_append
  have hkeys : "aggs" ∉ (Document.ofOptional members).keys :=
    fun h => hnew (Document.mem_of_mem_keys_ofOptional h)
  rw [hend, Document.withChildren, children?]
  cases renderList children with
  | nil => simp [Document.ofOptional]
  | cons c rest =>
    -- the key is new, so it is written at the end
    rw [if_neg (by simp), Table.insert_of_notMem hkeys]
    rfl

variable {a a' : Aggregation}

/-- No aggregation is sent under the key of children. -/
theorem word_ne_aggs (a : Aggregation) : a.word ≠ "aggs" := by
  cases a with
  | grouping g children => cases g <;> simp [word, Grouping.word]
  | filter query children => simp [word]
  | metric m =>
    obtain ⟨kind, field⟩ := m
    cases kind <;> simp [word, MetricKind.word]

/-- **The object of an aggregation** holds the parameters under the word, and the children
behind it if there are any. -/
theorem render_eq (a : Aggregation) :
    a.render = Document.ofOptional
      [(a.word, some (.object a.parameters)), ("aggs", children? a.children.entries)] := by
  have hnew : "aggs" ∉ [(a.word, some (Json.object a.parameters))].map Prod.fst := by
    simpa using (word_ne_aggs a).symm
  rw [← List.singleton_append, ← withChildren_ofOptional hnew]
  cases a with
  | grouping g children => rfl
  | filter query children => rfl
  | metric m => rfl

/-- The parameters are found under the word. -/
theorem get?_word_render (a : Aggregation) :
    a.render.get? a.word = some (.object a.parameters) := by
  rw [render_eq]
  exact List.lookup_cons_self

/-- Children have the same member exactly if they have the same objects, none included. -/
theorem children?_alike_iff {cs cs' : List (String × Aggregation)} :
    Json.AlikeIfSet (children? cs) (children? cs') ↔
      List.Forall₂ Json.MemberAlike (renderList cs) (renderList cs') := by
  -- an empty list of children has no member, which is told from any other
  rw [children?, children?]
  cases renderList cs <;> cases renderList cs' <;> simp [Document.alike_iff]

/-- The objects of two aggregations are alike if the words, the parameters and the children
are. -/
theorem render_alike_iff_of_parts : a.render.alike a'.render ↔
    a.word = a'.word ∧ a.parameters.alike a'.parameters ∧
      List.Forall₂ Json.MemberAlike (renderList a.children.entries)
        (renderList a'.children.entries) := by
  rw [render_eq, render_eq]
  by_cases hword : a.word = a'.word
  · -- both objects have the same two keys to choose from
    have hdistinct : a.word ≠ "aggs" := word_ne_aggs a
    rw [Document.ofOptional_alike_iff (by simpa using hword) (by simpa using hdistinct)]
    simp [hword, children?_alike_iff]
  · -- the parameters are always there, so the first members tell the objects apart
    refine iff_of_false (fun h => hword ?_) (fun h => hword h.1)
    rw [Document.alike_iff, Document.entries_ofOptional_set, Document.entries_ofOptional_set,
      List.forall₂_cons] at h
    exact h.1.1

/-! ### The same object -/

theorem grouping_word_ne_filter (g : Grouping) : g.word ≠ "filter" := by
  cases g <;> simp [Grouping.word]

theorem grouping_word_ne_metric (g : Grouping) (k : MetricKind) : g.word ≠ k.word := by
  cases g <;> cases k <;> simp [Grouping.word, MetricKind.word]

theorem metric_word_ne_filter (k : MetricKind) : k.word ≠ "filter" := by
  cases k <;> simp [MetricKind.word]

/-- Aggregations of two sorts have objects under two words. -/
theorem render_alike_iff_of_word_ne (hword : a.word ≠ a'.word) (hkind : ¬ a.Alike a') :
    a.render.alike a'.render ↔ a.Alike a' :=
  iff_of_false (fun h => hword (render_alike_iff_of_parts.mp h).1) hkind

/-- Named aggregations have the same objects exactly if they are the same, place by place. -/
theorem renderList_alike_iff {cs cs' : List (String × Aggregation)}
    (h : ∀ c ∈ cs, ∀ a : Aggregation, c.2.Finite → a.Finite →
      (c.2.render.alike a.render ↔ c.2.Alike a))
    (hcs : ∀ x ∈ quantitiesOf cs, x.IsFinite) (hcs' : ∀ x ∈ quantitiesOf cs', x.IsFinite) :
    List.Forall₂ Json.MemberAlike (renderList cs) (renderList cs') ↔ AlikeList cs cs' := by
  induction cs generalizing cs' with
  | nil => cases cs' <;> simp [renderList, AlikeList]
  | cons c rest ih =>
    cases cs' with
    | nil => simp [renderList, AlikeList]
    | cons c' rest' =>
      rw [quantitiesOf, List.forall_mem_append] at hcs hcs'
      -- the first two are compared by what is known of each, the others by induction
      have hfirst := h c List.mem_cons_self c'.2 hcs.1 hcs'.1
      have hrest := ih (fun r hr => h r (List.mem_cons_of_mem c hr)) hcs.2 hcs'.2
      rw [renderList, renderList, List.forall₂_cons, AlikeList, Json.MemberAlike,
        Json.alike_object, hfirst, hrest, and_assoc]

/-- **Two aggregations have the same object exactly if they are the same.** The induction is
on the first aggregation, for every other. -/
theorem render_alike_iff (a : Aggregation) : ∀ a' : Aggregation, a.Finite → a'.Finite →
    (a.render.alike a'.render ↔ a.Alike a') := by
  induction a using Aggregation.induction with
  | grouping g children ih =>
    intro a' ha ha'
    cases a' with
    | grouping g' children' =>
      rw [Finite, quantities, List.forall_mem_append] at ha ha'
      have hchildren := renderList_alike_iff ih ha.2 ha'.2
      rw [render_alike_iff_of_parts, Alike]
      -- the parameters decide only once the kinds are known to be the same
      constructor
      · rintro ⟨hword, hparameters, hrendered⟩
        exact ⟨(Grouping.parameters_alike_iff hword ha.1 ha'.1).mp hparameters,
          hchildren.mp hrendered⟩
      · rintro ⟨hg, hsame⟩
        have hword : g.word = g'.word := hg.word_eq
        exact ⟨hword, (Grouping.parameters_alike_iff hword ha.1 ha'.1).mpr hg,
          hchildren.mpr hsame⟩
    | filter query children' =>
      exact render_alike_iff_of_word_ne (grouping_word_ne_filter g) (by simp [Alike])
    | metric m =>
      exact render_alike_iff_of_word_ne (grouping_word_ne_metric g m.kind) (by simp [Alike])
  | filter query children ih =>
    intro a' ha ha'
    cases a' with
    | filter query' children' =>
      rw [Finite, quantities, List.forall_mem_append] at ha ha'
      have hchildren := renderList_alike_iff ih ha.2 ha'.2
      have hquery := Query.render_alike_iff query query' ha.1 ha'.1
      rw [render_alike_iff_of_parts, Alike]
      -- the word of a filter says no more than that it is one
      exact (and_iff_right rfl).trans (and_congr hquery hchildren)
    | grouping g children' =>
      exact render_alike_iff_of_word_ne (grouping_word_ne_filter g).symm (by simp [Alike])
    | metric m =>
      exact render_alike_iff_of_word_ne (metric_word_ne_filter m.kind).symm (by simp [Alike])
  | metric m =>
    intro a' ha ha'
    cases a' with
    | metric m' =>
      -- a metric has a word for its kind, a field, and no children
      obtain ⟨kind, field⟩ := m
      obtain ⟨kind', field'⟩ := m'
      rw [render_alike_iff_of_parts, Alike]
      simp [word, parameters, children, Table.empty, renderList, MetricKind.word_inj]
    | grouping g children' =>
      exact render_alike_iff_of_word_ne (grouping_word_ne_metric g m.kind).symm (by simp [Alike])
    | filter query children' =>
      exact render_alike_iff_of_word_ne (metric_word_ne_filter m.kind) (by simp [Alike])

end Aggregation

end SearchIndex
