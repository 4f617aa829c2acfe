import SearchIndex.Proofs.Aggregation.Alike
import SearchIndex.Proofs.Aggregation.Session
import SearchIndex.Proofs.Number.Value

/-!
# Ranges that are sent

Ranges are added to an aggregation one by one, some calls are refused, and in the end the
accepted ones are sent. The engine wants a range with a bound, and numbers for its bounds
(`BoundedRange`). The check of a call does not look for that: it compares the bounds that are
there, and what is no number lies neither above nor below anything, so that it passes
(`RangeEntry.WellFormed`). But it has no place in a document and is sent as null.

`Aggregation.ranges_sent` says what becomes of every session: the ranges that are sent are those
of the accepted calls, in order (`RangeEntry.SentAs`), and one of them is what the engine wants
exactly if its bounds are finite. `Aggregation.not_forall_boundedRange` is a session in which
this fails. The invariant is `Aggregation.HoldsRanges`, which an accepted change keeps
(`Aggregation.HoldsRanges.change`).
-/

namespace SearchIndex

/-! ### Ranges, as they are added and as they are sent -/

/-- A range as the engine wants it: one of its bounds is a number, none is null, and if there are
two, the first is not greater than the second. -/
structure BoundedRange (sent : Json) : Prop where
  bound : ∃ n, sent.member? "from" = some (.number n) ∨ sent.member? "to" = some (.number n)
  notNull : sent.member? "from" ≠ some .null ∧ sent.member? "to" ≠ some .null
  ordered : ∀ v w, sent.member? "from" = some v → sent.member? "to" = some w →
    ∃ m n, v = .number m ∧ w = .number n ∧ m.value ≤ n.value

/-- The bounds that a range has are finite numbers. -/
def RangeEntry.IsFinite (entry : RangeEntry) : Prop := ∀ q ∈ entry.quantities, q.IsFinite

/-- A range is sent with the key and the bounds it has, of which there is one at least; of two
numbers the first is not greater than the second. -/
structure RangeEntry.SentAs (entry : RangeEntry) (sent : Json) : Prop where
  key : sent.member? "key" = entry.key.map .string
  lower : sent.member? "from" = entry.lower.map .ofQuantity
  upper : sent.member? "to" = entry.upper.map .ofQuantity
  bound : (sent.member? "from").isSome ∨ (sent.member? "to").isSome
  ordered : ∀ m n, sent.member? "from" = some (.number m) → sent.member? "to" = some (.number n) →
    m.value ≤ n.value

/-- The range that a change adds. -/
def Change.range? : Change → Option RangeEntry
  | .range entry => some entry
  | _ => none

/-- The list of ranges in the object of a request. -/
def Aggregation.sentRanges? (a : Aggregation) : Option (List Json) :=
  ((a.render.get? "range").bind (fun parameters => parameters.member? "ranges")).bind Json.items?

/-! ### One range -/

/-- A quantity that is sent as a number is finite. -/
theorem Json.ofQuantity_eq_number_iff {q : Quantity} {n : Number} :
    Json.ofQuantity q = .number n ↔ ∃ x, q = .finite x ∧ n = .real x := by
  cases q <;> simp [Json.ofQuantity, eq_comm]

theorem Json.ofQuantity_eq_null_iff {q : Quantity} : Json.ofQuantity q = .null ↔ ¬ q.IsFinite := by
  cases q <;> simp [Json.ofQuantity, Quantity.IsFinite, Quantity.finite?]

/-- A finite quantity is sent as a number. -/
theorem Quantity.IsFinite.exists_number {q : Quantity} (h : q.IsFinite) :
    ∃ n, Json.ofQuantity q = .number n := by
  obtain ⟨x, hx⟩ := Option.isSome_iff_exists.mp h
  cases q with
  | finite y => exact ⟨.real y, rfl⟩
  | infinite negative => cases hx
  | notANumber => cases hx

namespace RangeEntry

variable {entry : RangeEntry} {sent : Json}

/-- A quantity of a range is one of its bounds. -/
theorem mem_quantities_iff {q : Quantity} :
    q ∈ entry.quantities ↔ entry.lower = some q ∨ entry.upper = some q := by
  unfold quantities
  rw [List.mem_append, Option.mem_toList, Option.mem_toList]

/-- The key and the bounds stand in the object under their names. -/
theorem member?_render (entry : RangeEntry) :
    entry.render.member? "key" = entry.key.map .string ∧
      entry.render.member? "from" = entry.lower.map .ofQuantity ∧
      entry.render.member? "to" = entry.upper.map .ofQuantity := by
  have hdistinct : ["key", "from", "to"].Nodup := by decide
  unfold render
  refine ⟨?_, ?_, ?_⟩
  -- each of the names is found in the list, and the names are distinct
  all_goals
    rw [Json.member?_object, Document.get?_ofOptional]
    · rfl
    · exact hdistinct

/-- **A range that passes the check is sent with its bounds**, and these are in order. -/
theorem WellFormed.sentAs (h : entry.WellFormed) : entry.SentAs entry.render := by
  obtain ⟨hkey, hlower, hupper⟩ := entry.member?_render
  refine ⟨hkey, hlower, hupper, ?_, fun m n hm hn => ?_⟩
  · -- the check has looked for a bound
    rw [hlower, hupper, Option.isSome_map, Option.isSome_map]
    exact h.1
  · -- two numbers come from two finite bounds, which the check has compared
    rw [hlower] at hm
    rw [hupper] at hn
    obtain ⟨lower, hl, hm⟩ := Option.map_eq_some_iff.mp hm
    obtain ⟨upper, hu, hn⟩ := Option.map_eq_some_iff.mp hn
    obtain ⟨x, rfl, rfl⟩ := Json.ofQuantity_eq_number_iff.mp hm
    obtain ⟨y, rfl, rfl⟩ := Json.ofQuantity_eq_number_iff.mp hn
    have habove := h.2 _ _ hl hu
    show x.value ≤ y.value
    by_contra hlt
    rw [(Quantity.above_finite x y).mpr (not_le.mp hlt)] at habove
    cases habove

/-- **A range that is sent is what the engine wants exactly if its bounds are finite.** -/
theorem SentAs.boundedRange_iff (h : entry.SentAs sent) : BoundedRange sent ↔ entry.IsFinite := by
  constructor
  · intro hbounded q hq
    -- a bound that is not finite is null
    by_contra hfinite
    have hnull := Json.ofQuantity_eq_null_iff.mpr hfinite
    -- the bound is the lower or the upper one
    rcases mem_quantities_iff.mp hq with hq | hq
    · refine hbounded.notNull.1 ?_
      rw [h.lower, hq, Option.map_some, hnull]
    · refine hbounded.notNull.2 ?_
      rw [h.upper, hq, Option.map_some, hnull]
  · intro hfinite
    -- what is there is the number of a finite bound
    have hfrom : ∀ v, sent.member? "from" = some v → ∃ n, v = .number n := fun v hv => by
      rw [h.lower] at hv
      obtain ⟨q, hq, rfl⟩ := Option.map_eq_some_iff.mp hv
      exact (hfinite q (mem_quantities_iff.mpr (Or.inl hq))).exists_number
    have hto : ∀ v, sent.member? "to" = some v → ∃ n, v = .number n := fun v hv => by
      rw [h.upper] at hv
      obtain ⟨q, hq, rfl⟩ := Option.map_eq_some_iff.mp hv
      exact (hfinite q (mem_quantities_iff.mpr (Or.inr hq))).exists_number
    refine ⟨?_, ⟨fun hnull => ?_, fun hnull => ?_⟩, fun v w hv hw => ?_⟩
    · -- there is a bound, and it is a number
      rcases h.bound with hsome | hsome
      · obtain ⟨v, hv⟩ := Option.isSome_iff_exists.mp hsome
        obtain ⟨n, rfl⟩ := hfrom v hv
        exact ⟨n, Or.inl hv⟩
      · obtain ⟨v, hv⟩ := Option.isSome_iff_exists.mp hsome
        obtain ⟨n, rfl⟩ := hto v hv
        exact ⟨n, Or.inr hv⟩
    · -- a number is not null
      obtain ⟨n, hn⟩ := hfrom _ hnull
      cases hn
    · obtain ⟨n, hn⟩ := hto _ hnull
      cases hn
    · -- both bounds are numbers, and the check has compared them
      obtain ⟨m, rfl⟩ := hfrom v hv
      obtain ⟨n, rfl⟩ := hto w hw
      exact ⟨m, n, rfl, rfl, h.ordered m n hv hw⟩

end RangeEntry

/-- **A range is added exactly if it passes the check**, behind those that are there. -/
theorem Ranges.add_eq_ok_iff {g g' : Ranges} {entry : RangeEntry} :
    g.add entry = .ok g' ↔
      entry.WellFormed ∧ g' = { g with entries := g.entries ++ [entry] } := by
  have hadded : Except.ok { g with entries := g.entries ++ [entry] } = (.ok g' : Except Error _) ↔
      g' = { g with entries := g.entries ++ [entry] } :=
    ⟨fun h => (Except.ok.inj h).symm, fun h => congrArg Except.ok h.symm⟩
  obtain ⟨key, lower, upper⟩ := entry
  unfold add RangeEntry.WellFormed
  -- the four cases of bounds, of which the check refuses two
  cases lower with
  | none =>
    cases upper with
    | none => simp
    | some upper => simpa using hadded
  | some lower =>
    cases upper with
    | none => simpa using hadded
    | some upper =>
      cases habove : lower.above upper with
      | true => simp [habove]
      | false => simpa [habove] using hadded

/-! ### A whole session -/

namespace Aggregation

variable {field : String} {done : List Change} {a a' : Aggregation}

/-- The aggregation groups a field by the ranges that some changes have added, all of which have
passed the check. -/
def HoldsRanges (field : String) (done : List Change) (a : Aggregation) : Prop :=
  (∃ children, a = grouping (.ranges ⟨field, done.filterMap Change.range?⟩) children) ∧
    ∀ entry ∈ done.filterMap Change.range?, entry.WellFormed

/-- **An accepted change keeps the invariant.** A range goes to the end of the list, and nothing
else touches it. -/
theorem HoldsRanges.change {c : Change} (h : a.HoldsRanges field done)
    (hc : a.change c = .ok a') : a'.HoldsRanges field (done ++ [c]) := by
  obtain ⟨⟨children, rfl⟩, hbefore⟩ := h
  have hother : c.range? = none →
      (done ++ [c]).filterMap Change.range? = done.filterMap Change.range? := fun hnone => by
    rw [List.filterMap_append, List.filterMap_cons_none hnone, List.filterMap_nil,
      List.append_nil]
  unfold HoldsRanges
  cases c
  case range entry =>
    obtain ⟨g, hg, rfl⟩ := Outcome.map_eq_ok_iff.mp hc
    obtain ⟨g, hadd, rfl⟩ := Outcome.map_eq_ok_iff.mp hg
    obtain ⟨hentry, rfl⟩ := Ranges.add_eq_ok_iff.mp hadd
    -- the new range comes last, and has passed the check
    rw [List.filterMap_append]
    refine ⟨⟨children, rfl⟩, fun e he => ?_⟩
    rcases List.mem_append.mp he with he | he
    · exact hbefore e he
    · exact List.mem_singleton.mp he ▸ hentry
  -- a child stands beside the ranges
  case child name b =>
    obtain ⟨children', -, rfl⟩ := Outcome.map_eq_ok_iff.mp hc
    rw [hother rfl]
    exact ⟨⟨children', rfl⟩, hbefore⟩
  -- the other parameters belong to other groupings
  all_goals
    obtain rfl := Except.ok.inj hc
    rw [hother rfl]
    exact ⟨⟨children, rfl⟩, hbefore⟩

/-- **After a session the invariant holds**, of the changes that have been accepted. -/
theorem holdsRanges_session (field : String) (changes : List Change) :
    (Call.afterAll (changes.map call) (ranges field)).HoldsRanges field
      (Call.accepted call changes (ranges field)) := by
  have hstart : (ranges field).HoldsRanges field [] :=
    ⟨⟨.empty, rfl⟩, fun entry h => absurd h List.not_mem_nil⟩
  exact Call.Performs.after_session (P := HoldsRanges field) call_performs
    (fun _ _ _ _ h hc => h.change hc) changes hstart

/-- The ranges stand in the object of the request, whatever children stand behind them. -/
theorem sentRanges?_grouping (g : Ranges) (children : Aggregations) :
    (grouping (.ranges g) children).sentRanges? = some (g.entries.map RangeEntry.render) := by
  have hrange : (grouping (.ranges g) children).render.get? "range" =
      some (.object (Grouping.ranges g).parameters) :=
    get?_word_render (grouping (.ranges g) children)
  unfold sentRanges?
  rw [hrange]
  rfl

/-- **What a session of calls sends.** The ranges in the request are those of the accepted calls,
in order, each with its key and its bounds, in order if they are numbers. A range is as the engine
wants it exactly if its bounds are finite: an infinite bound, and one that is no number, passes
the check of the call and is sent as null. -/
theorem ranges_sent (field : String) (changes : List Change) :
    let node := Call.afterAll (changes.map call) (ranges field)
    let accepted := (Call.accepted call changes (ranges field)).filterMap Change.range?
    node.sentRanges? = some (accepted.map RangeEntry.render) ∧
      (∀ entry ∈ accepted, entry.SentAs entry.render ∧
        (BoundedRange entry.render ↔ entry.IsFinite)) ∧
      ∀ entry, (call (.range entry)).outcome node = .ok () ↔ entry.WellFormed := by
  intro node accepted
  obtain ⟨⟨children, hnode⟩, hwell⟩ : node.HoldsRanges field _ := holdsRanges_session field changes
  refine ⟨?_, fun entry hentry => ?_, fun entry => ?_⟩
  · -- all ranges are sent, and the list of them has been filled by the session
    rw [hnode, sentRanges?_grouping]
  · -- a range in the list has passed the check, so it is sent with its bounds
    have hsent := (hwell entry hentry).sentAs
    exact ⟨hsent, hsent.boundedRange_iff⟩
  · -- one more call goes by the same check, whatever the session before has been
    rw [hnode, (call_performs (.range entry)).outcome_eq_ok_iff]
    constructor
    · rintro ⟨a, ha⟩
      obtain ⟨g, hg, -⟩ := Outcome.map_eq_ok_iff.mp ha
      obtain ⟨g, hadd, -⟩ := Outcome.map_eq_ok_iff.mp hg
      exact (Ranges.add_eq_ok_iff.mp hadd).1
    · intro hentry
      exact ⟨_, Outcome.map_eq_ok_iff.mpr ⟨_, Outcome.map_eq_ok_iff.mpr
        ⟨_, Ranges.add_eq_ok_iff.mpr ⟨hentry, rfl⟩, rfl⟩, rfl⟩⟩

/-- Of three ranges for prices one has its bounds in the wrong order and is refused; the others
are sent, and the one that is open to infinity with a null in it. -/
theorem prices_sent :
    let fifty : Quantity := .finite ⟨false, 0x4049000000000000, by decide⟩
    let changes : List Change := [.range ⟨some "cheap", none, some fifty⟩,
      .range ⟨none, some (.infinite false), some fifty⟩, .child "n" (.metric ⟨.avg, "price"⟩),
      .range ⟨none, some fifty, some (.infinite false)⟩]
    let node := Call.afterAll (changes.map call) (ranges "price")
    node.sentRanges? = some [.ofMembers [("key", .string "cheap"), ("to", .ofQuantity fifty)],
        .ofMembers [("from", .ofQuantity fifty), ("to", .null)]] ∧
      BoundedRange (.ofMembers [("key", .string "cheap"), ("to", .ofQuantity fifty)]) ∧
      ¬ BoundedRange (.ofMembers [("from", .ofQuantity fifty), ("to", .null)]) := by
  intro fifty changes node
  obtain ⟨hsent, hentries, -⟩ := ranges_sent "price" changes
  have haccepted : (Call.accepted call changes (ranges "price")).filterMap Change.range? =
      [⟨some "cheap", none, some fifty⟩, ⟨none, some fifty, some (.infinite false)⟩] := rfl
  rw [haccepted] at hsent hentries
  have hcheap := (hentries _ List.mem_cons_self).2
  have hopen := (hentries _ (List.mem_cons_of_mem _ List.mem_cons_self)).2
  -- the first range is bounded by a number, the second by a null
  refine ⟨hsent, hcheap.mpr ?_, fun h => ?_⟩
  · unfold RangeEntry.IsFinite
    decide
  · have hinfinite := hopen.mp h (.infinite false) (by decide)
    cases hinfinite

/-- A range whose only bound is no number is accepted, and sent without any. -/
theorem not_forall_boundedRange :
    ¬∀ (field : String) (changes : List Change) (sent : List Json),
      (Call.afterAll (changes.map call) (ranges field)).sentRanges? = some sent →
        ∀ range ∈ sent, BoundedRange range := by
  intro h
  have hnull := h "price" [.range ⟨none, some .notANumber, none⟩] [.ofMembers [("from", .null)]] rfl
    _ List.mem_cons_self
  exact hnull.notNull.1 rfl

end Aggregation

end SearchIndex
