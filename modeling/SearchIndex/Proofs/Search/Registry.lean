import SearchIndex.Proofs.Aggregation.Registry
import SearchIndex.Proofs.Search.Acceptance
import SearchIndex.Proofs.Search.Alike

/-!
# The registry of a search

A search has a registry of aggregations as a node has one of children, and requests and responses
go by it in the same way (`Search.KeepsRegistry`). It is filled differently. A node refuses a call
and goes on as it was, but a search is handed over with every call and is lost with the first one
that is refused. So a search that there is has accepted all calls
(`Search.aggregateAll_eq_ok_iff`).

`Search.registry_shared` puts nodes and searches side by side: whatever the calls, what is sent and
what is read goes by the accepted ones alone, with names in the order of their first call and
under each name what its last call has registered.
-/

namespace SearchIndex.Search

variable {s s' : Search} {calls : List (String × Aggregation)} {e : Error}

/-- A search holds what has been registered, and both its request and all that it decodes go by
that. A response may have no aggregations at all. -/
structure KeepsRegistry (s : Search) (registered : List (String × Aggregation)) : Prop where
  aggregations : s.aggregations.Records registered
  sent : s.render.SendsChildren registered
  read : ∀ formatter raw r, s.decode formatter raw = .ok r →
    (raw.member? "aggregations" = none ∧ r.aggregations = .empty) ∨
      ∃ members, raw.member? "aggregations" = some (.object members) ∧
        r.aggregations.ReadsChildren formatter registered members

/-! ### Filling the registry -/

/-- An allowed call is made, and the rest on what it leaves. -/
theorem aggregateAll_cons_of_allowed {c : String × Aggregation} (h : Aggregations.Allowed c.1)
    (s : Search) (rest : List (String × Aggregation)) : s.aggregateAll (c :: rest) =
      { s with aggregations := s.aggregations.insert c.1 c.2 }.aggregateAll rest := by
  have hregister : Aggregations.register s.aggregations c.1 c.2 =
      .ok (s.aggregations.insert c.1 c.2) := Aggregations.register_eq_ok_iff.mpr ⟨h, rfl⟩
  rw [aggregateAll, List.foldlM_cons, aggregate, hregister]
  rfl

/-- Any other call is the last one. -/
theorem aggregateAll_cons_of_not_allowed {c : String × Aggregation}
    (h : ¬ Aggregations.Allowed c.1) (s : Search) (rest : List (String × Aggregation)) :
    s.aggregateAll (c :: rest) = .error (.validation (.reservedName c.1)) := by
  rw [aggregateAll, List.foldlM_cons, aggregate, Aggregations.register_of_not_allowed h]
  rfl

/-- **A search is there exactly if all its calls are allowed**, and then it holds what they have
written, beside all that it has been. -/
theorem aggregateAll_eq_ok_iff : s.aggregateAll calls = .ok s' ↔
    (∀ c ∈ calls, Aggregations.Allowed c.1) ∧
      s' = { s with aggregations := s.aggregations.insertAll calls } := by
  -- each call is made on the search that those before it have left
  induction calls generalizing s with
  | nil =>
    have hnone : s.aggregateAll [] = .ok s := rfl
    rw [hnone]
    simp [Table.insertAll, eq_comm]
  | cons c rest ih =>
    by_cases hname : Aggregations.Allowed c.1
    · rw [aggregateAll_cons_of_allowed hname, ih, List.forall_mem_cons, and_iff_right hname]
      rfl
    · rw [aggregateAll_cons_of_not_allowed hname]
      simp [hname]

/-- **A search is lost with the first name that is not allowed.** -/
theorem exists_of_aggregateAll_eq_error (h : s.aggregateAll calls = .error e) :
    ∃ before c after, calls = before ++ c :: after ∧
      (∀ other ∈ before, Aggregations.Allowed other.1) ∧ ¬ Aggregations.Allowed c.1 ∧
      e = .validation (.reservedName c.1) := by
  induction calls generalizing s with
  | nil => cases h
  | cons c rest ih =>
    by_cases hname : Aggregations.Allowed c.1
    · rw [aggregateAll_cons_of_allowed hname] at h
      obtain ⟨before, refused, after, rfl, hbefore, hrefused⟩ := ih h
      exact ⟨c :: before, refused, after, rfl, List.forall_mem_cons.mpr ⟨hname, hbefore⟩, hrefused⟩
    · rw [aggregateAll_cons_of_not_allowed hname] at h
      exact ⟨[], c, rest, rfl, fun other hother => absurd hother List.not_mem_nil, hname,
        (Except.error.inj h).symm⟩

/-! ### Requests and responses -/

theorem get?_aggs_render (s : Search) :
    s.render.get? "aggs" = Aggregation.children? s.aggregations.entries := by
  rw [render_eq, Document.get?_ofOptional (by simp)]
  rfl

theorem keepsRegistry {registered : List (String × Aggregation)}
    (h : s.aggregations.Records registered) : s.KeepsRegistry registered where
  aggregations := h
  sent := Aggregations.sendsChildren h (get?_aggs_render s)
  read formatter raw r hr := by
    -- the hits are read first and have no part in it
    rw [decode_eq] at hr
    obtain ⟨reported, -, hr⟩ := Outcome.bind_eq_ok_iff.mp hr
    obtain ⟨hits, -, hr⟩ := Outcome.bind_eq_ok_iff.mp hr
    obtain ⟨results, hresults, rfl⟩ := Outcome.map_eq_ok_iff.mp hr
    -- there are no aggregations, no object of them, or one that is decoded
    rcases aggregations_cases raw with hnone | ⟨value, hvalue, hscalar⟩ | ⟨members, hmembers⟩
    · rw [hnone] at hresults
      exact Or.inl ⟨hnone, (Except.ok.inj hresults).symm⟩
    · rw [decodeAggregations_of_scalar hvalue hscalar] at hresults
      cases hresults
    · rw [hmembers] at hresults
      obtain ⟨entries, hentries, rfl⟩ := Outcome.map_eq_ok_iff.mp hresults
      exact Or.inr ⟨members, hmembers, Aggregations.readsChildren h hentries⟩

/-- **One registry for requests and responses.** A node that takes children accepts those with
allowed names, whatever else is called on it, and goes by them from then on; a search goes by all
its calls, or is lost with the first name that is not allowed. To go by some calls is to send and
to read what they have registered: the names in the order of their first call, each with the
object of its last, and of every entry the results of those names that it has, in the same
order, each decoded by the last one registered. -/
theorem registry_shared :
    (∀ (a : Aggregation) (changes : List Change), a.TakesChildren → a.children = .empty →
      let accepted := (Call.accepted Aggregation.call changes a).filterMap Change.child?
      accepted =
          (changes.filterMap Change.child?).filter (fun c => Aggregations.Allowed c.1) ∧
        (Call.afterAll (changes.map Aggregation.call) a).KeepsRegistry accepted) ∧
    ∀ (s : Search) (earlier calls : List (String × Aggregation)), s.aggregations.Records earlier →
      ((∃ s', s.aggregateAll calls = .ok s') ↔ ∀ c ∈ calls, Aggregations.Allowed c.1) ∧
      (∀ s', s.aggregateAll calls = .ok s' →
        s' = { s with aggregations := s'.aggregations } ∧ s'.KeepsRegistry (earlier ++ calls)) ∧
      ∀ e, s.aggregateAll calls = .error e → ∃ before c after,
        calls = before ++ c :: after ∧ (∀ other ∈ before, Aggregations.Allowed other.1) ∧
        ¬ Aggregations.Allowed c.1 ∧ e = .validation (.reservedName c.1) := by
  refine ⟨fun a changes htakes hempty => ⟨?_, ?_⟩, fun s earlier calls hearlier => ⟨?_, ?_, ?_⟩⟩
  · -- which calls are accepted
    exact Aggregation.accepted_children htakes changes
  · -- what the node goes by after them
    exact Aggregation.keepsRegistry_session htakes hempty changes
  · simp [aggregateAll_eq_ok_iff]
  · intro s' hs'
    -- a search that is there has accepted all of its calls
    obtain ⟨-, rfl⟩ := aggregateAll_eq_ok_iff.mp hs'
    exact ⟨rfl, keepsRegistry (hearlier.insertAll calls)⟩
  · intro e he
    exact exists_of_aggregateAll_eq_error he

/-- Children of a grouping, one of them registered twice and two refused. -/
def salesChanges : List Change :=
  [.child "total" (.metric ⟨.avg, "price"⟩), .child "key" (.metric ⟨.sum, "price"⟩),
    .child "best" (.metric ⟨.max, "price"⟩), .size (some 0), .child "" (.metric ⟨.min, "price"⟩),
    .child "total" (.metric ⟨.sum, "price"⟩)]

/-- Those that are accepted. -/
def salesCalls : List (String × Aggregation) :=
  [("total", .metric ⟨.avg, "price"⟩), ("best", .metric ⟨.max, "price"⟩),
    ("total", .metric ⟨.sum, "price"⟩)]

/-- What has been registered twice is the sum, at the place of the mean, in the request and in
every bucket. A search holds the same after these calls, and is lost with the others. -/
theorem sales_registry_shared :
    let node := Call.afterAll (salesChanges.map Aggregation.call) (.terms "tag")
    let raw := Json.ofMembers [("buckets", .array [.ofMembers [("key", .string "rust"),
      ("best", .ofMembers [("value", .ofNat 9)]), ("other", .null), ("total", .ofNat 12)]])]
    let s := { empty with aggregations := .ofList (salesCalls.take 1) }
    node.children.keys = ["total", "best"] ∧ node.render.contains "aggs" = true ∧
    (∃ r b, node.decode .passthrough raw = .ok r ∧ r.bucketList = [b] ∧
      b.children.keys = ["total", "best"] ∧
      b.children.get? "total" = some (.value (.ofNat 12))) ∧
    (∃ s', s.aggregateAll (salesCalls.drop 1) = .ok s' ∧
      s'.aggregations.keys = ["total", "best"] ∧
      s'.aggregations.get? "total" = some (.metric ⟨.sum, "price"⟩)) ∧
    ∃ e name, s.aggregateAll (salesChanges.filterMap Change.child?) = .error e ∧
      ¬ Aggregations.Allowed name ∧ e = .validation (.reservedName name) := by
  intro node raw s
  obtain ⟨hnodes, hsearches⟩ := registry_shared
  obtain ⟨haccepted, hnode⟩ := hnodes (.terms "tag") salesChanges trivial rfl
  have hcalls : (Call.accepted Aggregation.call salesChanges (.terms "tag")).filterMap
      Change.child? = salesCalls := haccepted
  rw [hcalls] at hnode
  have hlast : Table.IsLast salesCalls "total" (.metric ⟨.sum, "price"⟩) :=
    ⟨[_, _], [], rfl, List.not_mem_nil⟩
  have hearlier : s.aggregations.Records (salesCalls.take 1) := Table.records_ofList _
  refine ⟨?_, ?_, ?_, ?_, ?_⟩
  · exact hnode.children.keys_eq
  · exact hnode.sent.contains_iff.mpr (List.cons_ne_nil _ _)
  · -- the response has one entry, so there is one bucket
    obtain ⟨r, hr⟩ : ∃ r, node.decode .passthrough raw = .ok r := ⟨_, rfl⟩
    have hread := hnode.read .passthrough raw r hr
    obtain ⟨b, buckets, ⟨members, hmembers, hchildren⟩, hrest, hbuckets⟩ :=
      List.forall₂_cons_left_iff.mp hread
    obtain rfl := List.forall₂_nil_left_iff.mp hrest
    obtain rfl := Json.object.inj hmembers
    obtain ⟨result, hresult, hfound⟩ := hchildren.decoded "total" _ (.ofNat 12) hlast rfl
    obtain rfl := Except.ok.inj hresult
    exact ⟨r, b, hr, hbuckets, hchildren.keys_eq, hfound⟩
  · obtain ⟨hcan, hkept, -⟩ := hsearches s _ (salesCalls.drop 1) hearlier
    obtain ⟨s', hs'⟩ := hcan.mpr (by decide)
    obtain ⟨-, hkeeps⟩ := hkept s' hs'
    exact ⟨s', hs', hkeeps.aggregations.keys_eq,
      (hkeeps.aggregations.get?_eq_some_iff "total" _).mpr hlast⟩
  · obtain ⟨-, -, hlost⟩ := hsearches s _ (salesChanges.filterMap Change.child?) hearlier
    obtain ⟨before, c, after, -, -, hname, he⟩ := hlost _ rfl
    exact ⟨_, c.1, rfl, hname, he⟩

end SearchIndex.Search
