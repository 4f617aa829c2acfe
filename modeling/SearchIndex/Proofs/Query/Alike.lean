import SearchIndex.Proofs.Json.Alike

/-!
# Queries told apart by their objects

A query is sent as an object from which every parameter that is not set is missing, clauses
come in lists that are missing when they are empty, and fields become keys. None of this
loses anything: `Query.render_alike_iff` says that two queries have the same object exactly
if they are the same query (`Query.Alike`).

What a request cannot say is left out of the comparison. Quantities are compared as numbers,
so that the two zeros are one, and zones by the text of their offset. Quantities must be
finite (`Query.Finite`): what is not finite is sent as null, whichever it is.
-/

namespace SearchIndex

/-! ### Parameters -/

/-- Quantities that are equal as numbers. -/
def Quantity.Same (x y : Quantity) : Prop := x.key? = y.key?

/-- A quantity that is a number, and not an infinity. -/
def Quantity.IsFinite (x : Quantity) : Prop := x.finite?.isSome

instance (x : Quantity) : Decidable x.IsFinite := inferInstanceAs (Decidable (_ = _))

/-- Zones that stand for the same offset in a request. -/
def TimeZone.Alike (z z' : TimeZone) : Prop := z.offsetText = z'.offsetText

/-- Bounds that are set to the same values. -/
structure Bounds.Alike (b b' : Bounds) : Prop where
  gte : Json.AlikeIfSet b.gte b'.gte
  gt : Json.AlikeIfSet b.gt b'.gt
  lte : Json.AlikeIfSet b.lte b'.lte
  lt : Json.AlikeIfSet b.lt b'.lt

theorem Bounds.alike_iff {b b' : Bounds} :
    b.Alike b' ↔ Json.AlikeIfSet b.gte b'.gte ∧ Json.AlikeIfSet b.gt b'.gt ∧
      Json.AlikeIfSet b.lte b'.lte ∧ Json.AlikeIfSet b.lt b'.lt :=
  ⟨fun h => ⟨h.gte, h.gt, h.lte, h.lt⟩, fun ⟨gte, gt, lte, lt⟩ => ⟨gte, gt, lte, lt⟩⟩

/-- The text of an operator tells which one it is. -/
theorem Operator.word_inj {o o' : Operator} : o.word = o'.word ↔ o = o' := by
  cases o <;> cases o' <;> simp [word]

namespace Json

theorem alikeIfSet_ofNat {m n : Option Nat} :
    AlikeIfSet (m.map .ofNat) (n.map .ofNat) ↔ m = n :=
  alikeIfSet_map_iff alike_ofNat

theorem alikeIfSet_string {s t : Option String} :
    AlikeIfSet (s.map .string) (t.map .string) ↔ s = t :=
  alikeIfSet_map_iff alike_string

theorem alikeIfSet_ofQuantity {x y : Option Quantity} (hx : ∀ a ∈ x.toList, a.IsFinite)
    (hy : ∀ a ∈ y.toList, a.IsFinite) :
    AlikeIfSet (x.map .ofQuantity) (y.map .ofQuantity) ↔ Option.Rel Quantity.Same x y := by
  cases x with
  | none => cases y <;> simp
  | some a =>
    cases y with
    | none => simp
    | some b =>
      have hboth := alike_ofQuantity (hx a List.mem_cons_self) (hy b List.mem_cons_self)
      simpa [Quantity.Same] using hboth

theorem alikeIfSet_zone {z z' : Option TimeZone} :
    AlikeIfSet (z.map fun z => .string z.offsetText) (z'.map fun z => .string z.offsetText) ↔
      Option.Rel TimeZone.Alike z z' := by
  cases z <;> cases z' <;> simp [TimeZone.Alike]

end Json

namespace Query

/-! ### Induction -/

/-- **Induction over a query**, from the queries inside it to itself. -/
theorem induction {motive : Query → Prop}
    (matchAll : ∀ boost, motive (.matchAll boost))
    (term : ∀ field value boost, motive (.term field value boost))
    (terms : ∀ field values, motive (.terms field values))
    (text : ∀ field query operator, motive (.text field query operator))
    (range : ∀ field bounds zone, motive (.range field bounds zone))
    (nested : ∀ path query, motive query → motive (.nested path query))
    (bool : ∀ must should mustNot filter least boost,
      (∀ q ∈ must ++ should ++ mustNot ++ filter, motive q) →
      motive (.bool must should mustNot filter least boost))
    (q : Query) : motive q := by
  have ih : ∀ q', sizeOf q' < sizeOf q → motive q' := fun q' _ =>
    induction matchAll term terms text range nested bool q'
  cases q with
  | matchAll boost => exact matchAll boost
  | term field value boost => exact term field value boost
  | terms field values => exact terms field values
  | text field query operator => exact text field query operator
  | range field bounds zone => exact range field bounds zone
  | nested path query =>
    have hlt : sizeOf query < sizeOf (Query.nested path query) := by
      simp only [Query.nested.sizeOf_spec]
      omega
    exact nested path query (ih query hlt)
  | bool must should mustNot filter least boost =>
    refine bool must should mustNot filter least boost fun q hq => ih q ?_
    simp only [List.mem_append] at hq
    simp only [Query.bool.sizeOf_spec]
    -- a clause is smaller than the list it stands in, whichever role that has
    rcases hq with ((hq | hq) | hq) | hq <;> have hlt := List.sizeOf_lt_of_mem hq <;> omega
termination_by sizeOf q

/-! ### The same query -/

mutual

/-- The same query: one kind with the same parameters, and in a combination the same clauses
in each role. -/
def Alike : Query → Query → Prop
  | matchAll boost, matchAll boost' => Option.Rel Quantity.Same boost boost'
  | term field value boost, term field' value' boost' =>
    field = field' ∧ value.alike value' ∧ Option.Rel Quantity.Same boost boost'
  | terms field values, terms field' values' =>
    field = field' ∧ List.Forall₂ (fun v w => v.alike w) values values'
  | text field query operator, text field' query' operator' =>
    field = field' ∧ query = query' ∧ operator = operator'
  | range field bounds zone, range field' bounds' zone' =>
    field = field' ∧ bounds.Alike bounds' ∧ Option.Rel TimeZone.Alike zone zone'
  | nested path query, nested path' query' => path = path' ∧ query.Alike query'
  | bool must should mustNot filter least boost,
    bool must' should' mustNot' filter' least' boost' =>
    AlikeList must must' ∧ AlikeList should should' ∧ AlikeList mustNot mustNot' ∧
      AlikeList filter filter' ∧ least = least' ∧ Option.Rel Quantity.Same boost boost'
  | _, _ => False

/-- The same queries, place by place. -/
def AlikeList : List Query → List Query → Prop
  | [], [] => True
  | q :: rest, q' :: rest' => q.Alike q' ∧ AlikeList rest rest'
  | _, _ => False

end

mutual

/-- The quantities among the parameters of a query. -/
def quantities : Query → List Quantity
  | matchAll boost => boost.toList
  | term _ _ boost => boost.toList
  | terms _ _ => []
  | text _ _ _ => []
  | range _ _ _ => []
  | nested _ query => query.quantities
  | bool must should mustNot filter _ boost =>
    quantitiesOf must ++ quantitiesOf should ++ quantitiesOf mustNot ++ quantitiesOf filter ++
      boost.toList

/-- The quantities of a list of queries. -/
def quantitiesOf : List Query → List Quantity
  | [] => []
  | q :: rest => q.quantities ++ quantitiesOf rest

end

/-- All quantities of the query are finite. -/
def Finite (q : Query) : Prop := ∀ x ∈ q.quantities, x.IsFinite

/-! ### The same object -/

/-- The word for a kind of query, under which its parameters are sent. -/
def word : Query → String
  | matchAll _ => "match_all"
  | term _ _ _ => "term"
  | terms _ _ => "terms"
  | text _ _ _ => "match"
  | range _ _ _ => "range"
  | nested _ _ => "nested"
  | bool _ _ _ _ _ _ => "bool"

/-- The object of a query has one member, whose key is the word for its kind. -/
theorem exists_render_eq (q : Query) : ∃ body, q.render = wrap q.word body := by
  cases q <;> exact ⟨_, rfl⟩

variable {q q' : Query}

theorem Alike.word_eq (h : q.Alike q') : q.word = q'.word := by
  cases q <;> cases q' <;> first | rfl | exact absurd h (by simp [Alike])

/-- Queries of two kinds have objects under two words, and are not the same. -/
theorem render_alike_iff_of_word_ne (h : q.word ≠ q'.word) :
    q.render.alike q'.render ↔ q.Alike q' := by
  obtain ⟨body, hbody⟩ := exists_render_eq q
  obtain ⟨body', hbody'⟩ := exists_render_eq q'
  rw [hbody, hbody', Document.alike_wrap]
  exact iff_of_false (fun hboth => h hboth.1) (fun hsame => h hsame.word_eq)

/-- The parameters of a query on one field. -/
theorem alike_onField {type field field' : String} {parameters parameters' : Document} :
    (onField type field parameters).alike (onField type field' parameters') ↔
      field = field' ∧ parameters.alike parameters' := by
  simp [onField]

theorem alikeIfSet_operator {operator operator' : Option Operator} :
    Json.AlikeIfSet (operator.map fun o => .string o.word)
      (operator'.map fun o => .string o.word) ↔ operator = operator' :=
  Json.alikeIfSet_map_iff (f := fun o : Operator => .string o.word) fun o o' =>
    (Json.alike_string o.word o'.word).trans Operator.word_inj

/-- Clauses that are left out when there are none are alike if the lists are. -/
theorem clauses?_alike_iff {xs ys : List Json} :
    Json.AlikeIfSet (clauses? xs) (clauses? ys) ↔
      List.Forall₂ (fun v w => v.alike w) xs ys := by
  cases xs <;> cases ys <;> simp [clauses?]

theorem renderList_alike_iff {qs qs' : List Query}
    (h : ∀ q ∈ qs, ∀ q' : Query, q.Finite → q'.Finite → (q.render.alike q'.render ↔ q.Alike q'))
    (hqs : ∀ x ∈ quantitiesOf qs, x.IsFinite) (hqs' : ∀ x ∈ quantitiesOf qs', x.IsFinite) :
    List.Forall₂ (fun v w => v.alike w) (renderList qs) (renderList qs') ↔
      AlikeList qs qs' := by
  -- clause by clause, of which both lists have to have one
  induction qs generalizing qs' with
  | nil => cases qs' <;> simp [renderList, AlikeList]
  | cons q rest ih =>
    cases qs' with
    | nil => simp [renderList, AlikeList]
    | cons q' rest' =>
      rw [quantitiesOf, List.forall_mem_append] at hqs hqs'
      rw [renderList, renderList, List.forall₂_cons, AlikeList, Json.alike_object,
        h q List.mem_cons_self q' hqs.1 hqs'.1,
        ih (fun r hr => h r (List.mem_cons_of_mem q hr)) hqs.2 hqs'.2]

/-- **Two queries have the same object exactly if they are the same.** The induction is on
the first query, for every other; kinds are told apart by their words. -/
theorem render_alike_iff (q : Query) : ∀ q' : Query, q.Finite → q'.Finite →
    (q.render.alike q'.render ↔ q.Alike q') := by
  -- the kinds that agree are compared by their parameters
  induction q using Query.induction with
  | matchAll boost =>
    intro q' hq hq'
    cases q' with
    | matchAll boost' =>
      have hboost := Json.alikeIfSet_ofQuantity hq hq'
      simp [render, Document.ofOptional_alike_iff, Alike, hboost]
    | _ => exact render_alike_iff_of_word_ne (by simp [word])
  | term field value boost =>
    intro q' hq hq'
    cases q' with
    | term field' value' boost' =>
      have hboost := Json.alikeIfSet_ofQuantity hq hq'
      simp [render, alike_onField, Document.ofOptional_alike_iff, Alike, hboost]
    | _ => exact render_alike_iff_of_word_ne (by simp [word])
  | terms field values =>
    intro q' hq hq'
    cases q' with
    | terms field' values' => simp [render, Alike]
    | _ => exact render_alike_iff_of_word_ne (by simp [word])
  | text field query operator =>
    intro q' hq hq'
    cases q' with
    | text field' query' operator' =>
      simp [render, alike_onField, Document.ofOptional_alike_iff, Alike, alikeIfSet_operator]
    | _ => exact render_alike_iff_of_word_ne (by simp [word])
  | range field bounds zone =>
    intro q' hq hq'
    cases q' with
    | range field' bounds' zone' =>
      simp [render, alike_onField, Document.ofOptional_alike_iff, Alike, Json.alikeIfSet_zone,
        Bounds.alike_iff, and_assoc]
    | _ => exact render_alike_iff_of_word_ne (by simp [word])
  | nested path query ih =>
    intro q' hq hq'
    cases q' with
    | nested path' query' => simp [render, Alike, ih query' hq hq']
    | _ => exact render_alike_iff_of_word_ne (by simp [word])
  | bool must should mustNot filter least boost ih =>
    intro q' hq hq'
    cases q' with
    | bool must' should' mustNot' filter' least' boost' =>
      -- the clauses of each role are compared on their own
      simp only [Finite, quantities, List.forall_mem_append] at hq hq' ih
      obtain ⟨⟨⟨⟨hmust, hshould⟩, hmustNot⟩, hfilter⟩, hboost⟩ := hq
      obtain ⟨⟨⟨⟨hmust', hshould'⟩, hmustNot'⟩, hfilter'⟩, hboost'⟩ := hq'
      obtain ⟨⟨⟨ihmust, ihshould⟩, ihmustNot⟩, ihfilter⟩ := ih
      simp [render, Document.ofOptional_alike_iff, Alike, clauses?_alike_iff,
        renderList_alike_iff ihmust hmust hmust',
        renderList_alike_iff ihshould hshould hshould',
        renderList_alike_iff ihmustNot hmustNot hmustNot',
        renderList_alike_iff ihfilter hfilter hfilter', Json.alikeIfSet_ofNat,
        Json.alikeIfSet_ofQuantity hboost hboost']
    | _ => exact render_alike_iff_of_word_ne (by simp [word])

end Query

end SearchIndex
