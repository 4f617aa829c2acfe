import SearchIndex.Proofs.Aggregation.Address
import SearchIndex.Proofs.Aggregation.Alike
import SearchIndex.Proofs.Aggregation.Session
import SearchIndex.Proofs.Table.Record
import SearchIndex.Proofs.Table.Values

/-!
# One registry for requests and responses

A node has its children in a registry, and two walks go through it. A request lists all children
with their objects, and for a response each child is looked for in every entry and decodes what is
there. The two belong together: what an engine computes is read by the child that has asked for it
only if both walks find the same child under a name.

What a registry holds is told here by the calls that have filled it (`Table.Records`). Names stand
in the order of their first call, and under each name is the child of its last call.
`Document.SendsChildren` says this of a request and `Table.ReadsChildren` of what is decoded of
one entry, both in terms of the calls alone. They follow for any registry
(`Aggregations.sendsChildren`, `Aggregations.readsChildren`); that a node's registry is filled by
the calls that it has accepted is an invariant of its session (`Aggregation.HasRegistered`).
-/

namespace SearchIndex

/-! ### What requests and responses have to do with the calls -/

/-- A name that children may have: it is not empty, and a bucket does not use it for itself. -/
def Aggregations.Allowed (name : String) : Prop :=
  name ≠ "" ∧ name ∉ ["key", "key_as_string", "doc_count"]

instance : DecidablePred Aggregations.Allowed := fun name =>
  inferInstanceAs (Decidable (name ≠ "" ∧ name ∉ ["key", "key_as_string", "doc_count"]))

/-- The object of a request has children if any have been registered. They stand in the order in
which their names have come first, each with the object of the child that has come last. -/
structure Document.SendsChildren (sent : Document) (registered : List (String × Aggregation)) :
    Prop where
  contains_iff : sent.contains "aggs" = true ↔ registered ≠ []
  children : ∀ value, sent.get? "aggs" = some value → ∃ children, value = .object children ∧
    children.keys = (registered.map Prod.fst).eraseDups ∧
    ∀ name a, Table.IsLast registered name a → children.get? name = some (.object a.render)

/-- The results that are read of an entry are those of the registered children whose names it
has, in the same order as in a request, each decoded by the child that has come last. -/
structure Table.ReadsChildren (results : Table Decoded) (formatter : Formatter)
    (registered : List (String × Aggregation)) (members : Document) : Prop where
  keys_eq : results.keys = ((registered.map Prod.fst).eraseDups).filter members.contains
  decoded : ∀ name a value, Table.IsLast registered name a → members.get? name = some value →
    ∃ result, a.decodePart formatter value = .ok result ∧ results.get? name = some result

/-- A node holds what has been registered, and both its request and all that it decodes go by
that. -/
structure Aggregation.KeepsRegistry (node : Aggregation)
    (registered : List (String × Aggregation)) : Prop where
  children : node.children.Records registered
  sent : node.render.SendsChildren registered
  read : ∀ formatter raw r, node.decode formatter raw = .ok r →
    List.Forall₂ (fun entry b => ∃ members, entry = .object members ∧
      b.children.ReadsChildren formatter registered members) (node.bucketEntries raw) r.bucketList

/-! ### Any registry -/

namespace Aggregations

variable {as : Aggregations} {registered : List (String × Aggregation)} {name : String}
  {a : Aggregation}

/-- The check of a name asks for an allowed one. -/
theorem allowsName_iff : allowsName name = true ↔ Allowed name := by
  simp [allowsName, reservedNames, Allowed]

/-- A child is registered under an allowed name, in place of an older one or at the end. -/
theorem register_eq_ok_iff {as' : Aggregations} :
    register as name a = .ok as' ↔ Allowed name ∧ as' = as.insert name a := by
  rw [← allowsName_iff, register]
  cases allowsName name with
  | true => simp [eq_comm]
  | false => simp

/-- Any other name is refused, with an error that quotes it. -/
theorem register_of_not_allowed (h : ¬ Allowed name) :
    register as name a = .error (.validation (.reservedName name)) := by
  rw [register, if_neg (mt allowsName_iff.mp h)]

/-- The children are sent in order, each under its name. -/
theorem render_eq_mapValues (as : Aggregations) :
    as.render = as.mapValues fun _ a => .object a.render := by
  obtain ⟨entries⟩ := as
  show (⟨Aggregation.renderList entries⟩ : Document) = ⟨entries.map _⟩
  congr 1
  induction entries with
  | nil => rfl
  | cons c rest ih => rw [Aggregation.renderList, ih, List.map_cons]

/-- Children are sent exactly if there are any. -/
theorem children?_eq (as : Aggregations) :
    Aggregation.children? as.entries = if as.isEmpty then none else some (.object as.render) := by
  obtain ⟨entries⟩ := as
  cases entries <;> rfl

/-- The registry is empty if nothing has been registered. -/
theorem isEmpty_iff (h : as.Records registered) : as.isEmpty = true ↔ registered = [] := by
  -- keys are the names of the calls, once each
  have hkeys : as.keys = [] ↔ registered = [] := by
    rw [h.keys_eq, List.eq_nil_iff_forall_not_mem]
    simp only [List.mem_eraseDups]
    rw [← List.eq_nil_iff_forall_not_mem, List.map_eq_nil_iff]
  rw [← hkeys, Table.isEmpty, List.isEmpty_iff, Table.keys, List.map_eq_nil_iff]

/-- **A request goes by what has been registered** if its children are those of the registry. -/
theorem sendsChildren (h : as.Records registered) {sent : Document}
    (hsent : sent.get? "aggs" = Aggregation.children? as.entries) :
    sent.SendsChildren registered := by
  rw [children?_eq] at hsent
  constructor
  · -- children are sent if there are any, and there are some if any have been registered
    rw [Table.contains, hsent, ne_eq, ← isEmpty_iff h]
    cases as.isEmpty <;> simp
  · intro value hvalue
    -- the member is there, so the registry is not empty
    rw [hsent] at hvalue
    obtain ⟨-, rfl⟩ : as.isEmpty = false ∧ Json.object as.render = value := by
      simpa using hvalue
    refine ⟨as.render, rfl, ?_, fun name a hlast => ?_⟩
    · rw [render_eq_mapValues, Table.keys_mapValues, h.keys_eq]
    · -- under each of them is the object of the child that is registered last
      rw [render_eq_mapValues, Table.get?_mapValues, (h.get?_eq_some_iff name a).mpr hlast]
      rfl

/-- **What is decoded goes by what has been registered** if the children of the registry have
decoded it. -/
theorem readsChildren (h : as.Records registered) {formatter : Formatter} {members : Document}
    {results : Table Decoded}
    (hresults : Aggregation.decodeChildren formatter as.entries members = .ok results.entries) :
    results.ReadsChildren formatter registered members := by
  constructor
  · -- the results have the names of the registry that the entry has
    have hnames := Aggregation.names_of_decodeChildren hresults
    rw [← h.keys_eq]
    exact hnames
  · intro name a value hlast hvalue
    -- both the name and its part of the entry are found, so the result is as well
    have hfound := Aggregation.lookup_of_decodeChildren hresults name
    have hpart : Aggregation.registeredPart? as.entries members name = some (a, value) := by
      have hget : as.entries.lookup name = some a := (h.get?_eq_some_iff name a).mpr hlast
      rw [Aggregation.registeredPart?, hget, hvalue]
      rfl
    rw [hpart] at hfound
    obtain ⟨result, hresult, hdecoded⟩ := Related.exists_of_some hfound
    exact ⟨result, hdecoded, hresult⟩

end Aggregations

/-! ### The registry of a node -/

/-- The child that a change registers. -/
def Change.child? : Change → Option (String × Aggregation)
  | .child name a => some (name, a)
  | _ => none

theorem Change.child?_eq_some_iff {c : Change} {child : String × Aggregation} :
    c.child? = some child ↔ c = .child child.1 child.2 := by
  cases c <;> simp [child?, Prod.ext_iff, eq_comm]

namespace Aggregation

/-- Groupings and filters take children, metrics do not. -/
def TakesChildren : Aggregation → Prop
  | grouping _ _ => True
  | filter _ _ => True
  | metric _ => False

variable {a a' : Aggregation} {c : Change}

/-- **A change registers the child that it has**, and nothing else changes the registry. -/
theorem children_of_change (h : a.TakesChildren) (hc : a.change c = .ok a') :
    a'.TakesChildren ∧ a'.children = a.children.insertAll c.child?.toList := by
  cases a with
  | grouping g children =>
    cases c
    case child name b =>
      obtain ⟨children', hregister, rfl⟩ := Outcome.map_eq_ok_iff.mp hc
      obtain ⟨-, rfl⟩ := Aggregations.register_eq_ok_iff.mp hregister
      exact ⟨trivial, rfl⟩
    -- the parameters are beside the children
    all_goals
      obtain ⟨g', -, rfl⟩ := Outcome.map_eq_ok_iff.mp hc
      exact ⟨trivial, rfl⟩
  | filter query children =>
    cases c
    case child name b =>
      obtain ⟨children', hregister, rfl⟩ := Outcome.map_eq_ok_iff.mp hc
      obtain ⟨-, rfl⟩ := Aggregations.register_eq_ok_iff.mp hregister
      exact ⟨trivial, rfl⟩
    -- a filter has no parameters, so any other change leaves it as it is
    all_goals
      obtain rfl := Except.ok.inj hc
      exact ⟨trivial, rfl⟩
  | metric m => exact h.elim

/-- A child is registered exactly if its name is allowed. -/
theorem exists_change_child_iff (h : a.TakesChildren) {name : String} {b : Aggregation} :
    (∃ a', a.change (.child name b) = .ok a') ↔ Aggregations.Allowed name := by
  -- the registry decides alone, in a node of any sort
  have hregister : ∀ (as : Aggregations) (whole : Aggregations → Aggregation),
      (∃ a', (Aggregations.register as name b).map whole = .ok a') ↔
        Aggregations.Allowed name := by
    intro as whole
    simp [Outcome.map_eq_ok_iff, Aggregations.register_eq_ok_iff]
  cases a with
  | grouping g children => exact hregister children (grouping g)
  | filter query children => exact hregister children (filter query)
  | metric m => exact h.elim

/-- The registry of a node has been filled by the children among some changes. -/
def HasRegistered (done : List Change) (a : Aggregation) : Prop :=
  a.TakesChildren ∧ a.children.Records (done.filterMap Change.child?)

/-- **An accepted change keeps the invariant.** -/
theorem HasRegistered.change {done : List Change} (h : a.HasRegistered done)
    (hc : a.change c = .ok a') : a'.HasRegistered (done ++ [c]) := by
  obtain ⟨htakes, hchildren⟩ := h
  obtain ⟨htakes', hchildren'⟩ := children_of_change htakes hc
  have hone : [c].filterMap Change.child? = c.child?.toList := by
    cases hchild : c.child? <;> simp [hchild]
  refine ⟨htakes', ?_⟩
  -- the children among the changes up to this one are those before and perhaps one more
  rw [hchildren', List.filterMap_append, hone]
  exact hchildren.insertAll c.child?.toList

/-- Of a session the children with allowed names are accepted, whatever else there is in it. -/
theorem accepted_children (h : a.TakesChildren) (changes : List Change) :
    (Call.accepted call changes a).filterMap Change.child? =
      (changes.filterMap Change.child?).filter fun c => Aggregations.Allowed c.1 := by
  -- the induction is for every node that takes children, as an accepted call leaves another one
  induction changes generalizing a with
  | nil => rfl
  | cons c rest ih =>
    unfold Call.accepted
    cases hc : a.change c with
    | ok a' =>
      -- an accepted change is of a child with an allowed name, or of a parameter
      obtain ⟨hok, hafter⟩ := (call_performs c).of_ok hc
      have hrest := ih (children_of_change h hc).1
      rw [hok, hafter]
      cases hchild : c.child? with
      | none =>
        rw [List.filterMap_cons_none hchild, List.filterMap_cons_none hchild, hrest]
      | some child =>
        obtain rfl := Change.child?_eq_some_iff.mp hchild
        have hname : Aggregations.Allowed child.1 := (exists_change_child_iff h).mp ⟨a', hc⟩
        rw [List.filterMap_cons_some hchild, List.filterMap_cons_some hchild, hrest,
          List.filter_cons_of_pos (by simpa using hname)]
    | error e =>
      -- a refused one leaves the node as it was, and counts for neither side
      obtain ⟨herror, hafter⟩ := (call_performs c).of_error hc
      have hrest := ih h
      rw [herror, hafter]
      cases hchild : c.child? with
      | none => rw [List.filterMap_cons_none hchild, hrest]
      | some child =>
        -- a child is refused for its name only
        obtain rfl := Change.child?_eq_some_iff.mp hchild
        have hname : ¬ Aggregations.Allowed child.1 := fun hname => by
          obtain ⟨a', ha'⟩ := (exists_change_child_iff h).mpr hname
          cases hc.symm.trans ha'
        rw [List.filterMap_cons_some hchild, hrest, List.filter_cons_of_neg (by simpa using hname)]

/-- A node sends its children under one key, if it has any. -/
theorem get?_aggs_render (a : Aggregation) :
    a.render.get? "aggs" = children? a.children.entries := by
  have hdistinct : a.word ≠ "aggs" := word_ne_aggs a
  rw [render_eq, Document.get?_ofOptional (by simpa using hdistinct), List.lookup_cons,
    beq_false_of_ne hdistinct.symm]
  rfl

/-- **A node goes by the children it holds**, in its request and in all that it decodes. -/
theorem keepsRegistry {registered : List (String × Aggregation)}
    (h : a.children.Records registered) : a.KeepsRegistry registered where
  children := h
  sent := Aggregations.sendsChildren h (get?_aggs_render a)
  read formatter raw r hr := by
    -- each bucket has been decoded by the children of the registry
    refine (bucketList_of_decodePart (decodePart_of_decode hr)).imp ?_
    rintro entry b ⟨members, rfl, hresults⟩
    exact ⟨members, rfl, Aggregations.readsChildren h hresults⟩

/-- **After a session a node goes by the children that it has accepted**, in what it holds, in what
it sends and in what it decodes. -/
theorem keepsRegistry_session (h : a.TakesChildren) (hempty : a.children = .empty)
    (changes : List Change) :
    (Call.afterAll (changes.map call) a).KeepsRegistry
      ((Call.accepted call changes a).filterMap Change.child?) := by
  -- a node without children has registered nothing
  have hstart : a.HasRegistered [] := ⟨h, hempty ▸ Table.records_empty⟩
  obtain ⟨-, hchildren⟩ := Call.Performs.after_session (P := HasRegistered) call_performs
    (fun _ _ _ _ hbefore hc => hbefore.change hc) changes hstart
  exact keepsRegistry hchildren

end Aggregation

end SearchIndex
