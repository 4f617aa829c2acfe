import SearchIndex.Proofs.Aggregation.Conformance
import SearchIndex.Proofs.Search.Response
import Mathlib

/-!
# Which responses a search can read

Some of what a response may lack is made up for: there may be no list of hits, no total and no
aggregations. Other things are asked for, an object of hits, an identifier of each hit, and a
part for each aggregation that its node can decode. This module draws the line between the two.

* `Search.HasHits` and `Search.HasAggregations` say what is asked for;
* `Search.Fails` lists the ways to go wrong in the order in which they count: a hit at fault is
  reported before an aggregation at fault, and of several hits or aggregations the first is;
* `Hit.Mirrors` and `SearchResult.Mirrors` say what a result keeps of its response.

The main result, `Search.decode_acceptance`, is that these descriptions are exact. Each step of
the decoder is described on its own first (`Search.decodeHit_eq_error_iff`,
`Search.exists_of_decodeAggregations_eq_error`), and `Search.decode_eq` puts the steps in a row.
-/

namespace SearchIndex

/-! ### What is asked for, and what is kept -/

/-- A hit says of the members of its element what they say: who it is, by a text as it stands or
by the text of a number, its index and its score if there are any, and its source or null. The
text of an integer is one that the integer is read back from. -/
structure Hit.Mirrors (hit : Hit) (members : Document) : Prop where
  id : members.get? "_id" = some (.string hit.id) ∨
    ∃ n, members.get? "_id" = some (.number n) ∧ hit.id = Json.numberText n
  integer : ∀ n : Int, members.get? "_id" = some (.number (.int n)) → hit.id.toInt? = some n
  index : ∀ text, hit.index = some text ↔ members.get? "_index" = some (.string text)
  score : ∀ x, hit.score = some x ↔
    ∃ n, members.get? "_score" = some (.number n) ∧ n.toReal? = some x
  source : hit.source = (members.get? "_source").getD .null

namespace Search

/-- An element of the list of hits can be read: it is an object that says who it is, by a text
or by a number. -/
def IsHit (element : Json) : Prop :=
  ∃ members value, element = .object members ∧ members.get? "_id" = some value ∧
    ((∃ text, value = .string text) ∨ ∃ n, value = .number n)

/-- What is reported of an element that cannot be read. -/
def hitFault (element : Json) : DecodeFault :=
  match element with
  | .object _ => .hitWithoutId
  | _ => .hitNotAnObject

/-- There is an object of hits, and all that it lists can be read. -/
def HasHits (raw : Json) : Prop :=
  ∃ reported, raw.member? "hits" = some (.object reported) ∧
    ∀ element ∈ listedHits reported, IsHit element

/-- The part of a response that an aggregation is looked for in has none that it cannot decode.
It may have none at all, or one that is no object and needs no decoding. -/
def Decodes (formatter : Formatter) (members : Document) (c : String × Aggregation) : Prop :=
  ∀ payload, members.get? c.1 = some (.object payload) →
    ∃ r, c.2.decode formatter (.object payload) = .ok r

/-- There are no aggregations, or an object of them that all registered ones can decode. -/
def HasAggregations (s : Search) (formatter : Formatter) (raw : Json) : Prop :=
  raw.member? "aggregations" = none ∨
    ∃ members, raw.member? "aggregations" = some (.object members) ∧
      ∀ c ∈ s.aggregations.entries, Decodes formatter members c

/-- The error of a response that cannot be read. -/
inductive Fails (s : Search) (formatter : Formatter) (raw : Json) : Error → Prop where
  | withoutHits (none : ∀ reported, raw.member? "hits" ≠ some (.object reported)) :
      Fails s formatter raw (.decode .withoutHits)
  /-- The first hit at fault counts, whatever the aggregations are. -/
  | hit {reported : Document} {before after : List Json} {element : Json}
      (hits : raw.member? "hits" = some (.object reported))
      (listed : listedHits reported = before ++ element :: after)
      (first : ∀ other ∈ before, IsHit other) (fault : ¬ IsHit element) :
      Fails s formatter raw (.decode (hitFault element))
  | aggregationsNotAnObject {value : Json} (hits : HasHits raw)
      (reported : raw.member? "aggregations" = some value) (none : value.members? = none) :
      Fails s formatter raw (.decode .aggregationsNotAnObject)
  /-- The first aggregation at fault counts, in the order of registration. -/
  | aggregation {members payload : Document} {before after : List (String × Aggregation)}
      {c : String × Aggregation} {e : Error} (hits : HasHits raw)
      (reported : raw.member? "aggregations" = some (.object members))
      (registered : s.aggregations.entries = before ++ c :: after)
      (first : ∀ other ∈ before, Decodes formatter members other)
      (present : members.get? c.1 = some (.object payload))
      (fails : c.2.decode formatter (.object payload) = .error e) : Fails s formatter raw e

/-- The number of hits that an object of hits reports, as a bare count or as the value of an
object. -/
inductive Reports (reported : Document) (n : Nat) : Prop where
  | count (total : reported.get? "total" = some (.ofNat n)) : Reports reported n
  | value {members : Document} (total : reported.get? "total" = some (.object members))
      (value : members.get? "value" = some (.ofNat n)) : Reports reported n

end Search

/-- A result keeps of a response to a search its hits, one for one and in order, their reported
number or zero, and of the registered aggregations those that the response has, in the order of
registration. -/
structure SearchResult.Mirrors (s : Search) (raw : Json) (r : SearchResult) : Prop where
  reported : ∃ reported, raw.member? "hits" = some (.object reported) ∧
    List.Forall₂ (fun element hit => ∃ members, element = .object members ∧ hit.Mirrors members)
      (Search.listedHits reported) r.hits ∧
    (∀ n, Search.Reports reported n → r.total = n) ∧
    ((∀ n, ¬ Search.Reports reported n) → r.total = 0)
  names : r.aggregations.keys = s.aggregations.keys.filter (fun name =>
    ((raw.member? "aggregations").bind (fun value => value.member? name)).isSome)

namespace Search

variable {s : Search} {formatter : Formatter} {raw element : Json} {reported members : Document}
  {hit : Hit} {e : Error}

/-! ### One hit -/

/-- An integer is read back from the text that is written for it. -/
theorem toInt?_numberText (n : Int) : (Json.numberText (.int n)).toInt? = some n := by
  have hrepr : Json.numberText (.int n) = n.repr := by cases n <;> rfl
  rw [hrepr, Int.toInt?_repr]

/-- Texts stand for themselves, and numbers for their texts. -/
theorem hitId?_eq_some_iff {value : Json} {id : String} :
    hitId? value = some id ↔
      value = .string id ∨ ∃ n, value = .number n ∧ id = Json.numberText n := by
  cases value <;> simp [hitId?, eq_comm]

theorem isHit_object_iff :
    IsHit (.object members) ↔ ∃ id, (members.get? "_id").bind hitId? = some id := by
  simp only [Option.bind_eq_some_iff, hitId?_eq_some_iff]
  constructor
  · rintro ⟨members', value, heq, hvalue, hid⟩
    obtain rfl : members = members' := Json.object.inj heq
    rcases hid with ⟨text, rfl⟩ | ⟨n, rfl⟩
    · exact ⟨text, _, hvalue, Or.inl rfl⟩
    · exact ⟨Json.numberText n, _, hvalue, Or.inr ⟨n, rfl, rfl⟩⟩
  · rintro ⟨id, value, hvalue, rfl | ⟨n, rfl, -⟩⟩
    · exact ⟨members, _, rfl, hvalue, Or.inl ⟨id, rfl⟩⟩
    · exact ⟨members, _, rfl, hvalue, Or.inr ⟨n, rfl⟩⟩

theorem not_isHit_of_scalar (h : element.members? = none) : ¬ IsHit element := by
  rintro ⟨members, -, rfl, -⟩
  cases h

/-- **A hit is refused exactly if it cannot be read**, and then for the fault that it has. -/
theorem decodeHit_eq_error_iff :
    decodeHit element = .error e ↔ ¬ IsHit element ∧ e = .decode (hitFault element) := by
  unfold decodeHit
  cases hm : element.members? with
  | none =>
    -- what is no object has no members
    have hfault : hitFault element = .hitNotAnObject := by
      cases element <;> first | rfl | cases hm
    rw [hfault]
    simp [not_isHit_of_scalar hm, eq_comm]
  | some members =>
    obtain rfl := Json.members?_eq_some_iff.mp hm
    dsimp only
    rw [isHit_object_iff]
    cases (members.get? "_id").bind hitId? with
    | none =>
      -- an object without an identifier, or with one of another sort
      simp [hitFault, eq_comm]
    | some id => simp

/-- An element is read exactly if it is a hit. -/
theorem exists_decodeHit_iff : (∃ hit, decodeHit element = .ok hit) ↔ IsHit element := by
  constructor
  · rintro ⟨hit, hhit⟩
    -- otherwise it would have been refused
    by_contra hfault
    cases hhit.symm.trans (decodeHit_eq_error_iff.mpr ⟨hfault, rfl⟩)
  · intro h
    cases hr : decodeHit element with
    | ok hit => exact ⟨hit, rfl⟩
    | error e => exact absurd h (decodeHit_eq_error_iff.mp hr).1

/-- **A hit keeps what its element says.** -/
theorem mirrors_of_decodeHit (h : decodeHit element = .ok hit) :
    ∃ members, element = .object members ∧ hit.Mirrors members := by
  unfold decodeHit at h
  cases hm : element.members? with
  | none => rw [hm] at h; cases h
  | some members =>
    rw [hm] at h
    refine ⟨members, Json.members?_eq_some_iff.mp hm, ?_⟩
    dsimp only at h
    cases hid : (members.get? "_id").bind hitId? with
    | none => rw [hid] at h; cases h
    | some id =>
      rw [hid] at h
      obtain rfl := Except.ok.inj h
      refine ⟨?_, fun n hn => ?_, fun text => ?_, fun x => ?_, rfl⟩
      · -- the identifier, in the form that it has
        obtain ⟨value, hvalue, hid⟩ := Option.bind_eq_some_iff.mp hid
        rcases hitId?_eq_some_iff.mp hid with rfl | ⟨n, rfl, hn⟩
        · exact Or.inl hvalue
        · exact Or.inr ⟨n, hvalue, hn⟩
      · -- an integer is the second kind of identifier, and its text is read back
        rw [hn] at hid
        obtain rfl : Json.numberText (.int n) = id := Option.some.inj hid
        exact toInt?_numberText n
      · -- the index, which is left out unless it is a text
        show (members.get? "_index").bind Json.string? = some text ↔ _
        rw [Option.bind_eq_some_iff]
        simp only [Json.string?_eq_some_iff, exists_eq_right]
      · -- the score, as far as it is a finite number
        show (members.get? "_score").bind Json.real? = some x ↔ _
        rw [Option.bind_eq_some_iff]
        constructor
        · rintro ⟨value, hvalue, hreal⟩
          cases value with
          | number n => exact ⟨n, hvalue, hreal⟩
          | _ => cases hreal
        · rintro ⟨n, hn, hreal⟩
          exact ⟨.number n, hn, hreal⟩

/-! ### The number of hits -/

theorem total_of_object : total (some (.object members)) =
    ((members.get? "value").bind Json.nat?).getD 0 := rfl

theorem total_of_scalar {value : Json} (h : value.members? = none) :
    total (some value) = value.nat?.getD 0 := by
  cases value <;> first | rfl | cases h

theorem total_of_reports {n : Nat} (h : Reports reported n) :
    total (reported.get? "total") = n := by
  cases h with
  | count htotal => rw [htotal]; rfl
  | value htotal hvalue =>
    rw [htotal, total_of_object, hvalue]
    rfl

theorem total_of_not_reports (h : ∀ n, ¬ Reports reported n) :
    total (reported.get? "total") = 0 := by
  cases htotal : reported.get? "total" with
  | none => rfl
  | some value =>
    cases hm : value.members? with
    | none =>
      -- the value is no count either
      have hcount : value.nat? = none := by
        refine Option.eq_none_iff_forall_ne_some.mpr fun n hn => h n (.count ?_)
        rw [htotal, Json.nat?_eq_some_iff.mp hn]
      rw [total_of_scalar hm, hcount]
      rfl
    | some members =>
      obtain rfl := Json.members?_eq_some_iff.mp hm
      -- nor does the object have a count under the word for it
      have hvalue : (members.get? "value").bind Json.nat? = none := by
        refine Option.eq_none_iff_forall_ne_some.mpr fun n hn => ?_
        obtain ⟨value, hvalue, hn⟩ := Option.bind_eq_some_iff.mp hn
        exact h n (.value htotal (hvalue.trans (congrArg some (Json.nat?_eq_some_iff.mp hn))))
      rw [total_of_object, hvalue]
      rfl

/-! ### The aggregations -/

/-- A part fails as its payload does, and only an object has a payload. -/
theorem decodePart_eq_error_iff {a : Aggregation} {value : Json} :
    a.decodePart formatter value = .error e ↔
      ∃ payload, value = .object payload ∧ a.decode formatter (.object payload) = .error e := by
  cases value <;> simp [Aggregation.decodePart]

/-- A registered aggregation fails as the payload in its part does. -/
theorem decodeChild_eq_error_iff {c : String × Aggregation} :
    Aggregation.decodeChild formatter members c = .error e ↔
      ∃ payload, members.get? c.1 = some (.object payload) ∧
        c.2.decode formatter (.object payload) = .error e := by
  cases hvalue : members.get? c.1 with
  | none => simp [Aggregation.decodeChild_of_absent hvalue]
  | some value =>
    rw [Aggregation.decodeChild_of_present hvalue, ← Outcome.error?_eq_some_iff,
      Outcome.error?_map, Outcome.error?_eq_some_iff, decodePart_eq_error_iff]
    simp

theorem exists_decodeChild_iff {c : String × Aggregation} :
    (∃ result, Aggregation.decodeChild formatter members c = .ok result) ↔
      Decodes formatter members c := by
  constructor
  · rintro ⟨result, hresult⟩ payload hpayload
    cases hr : c.2.decode formatter (.object payload) with
    | ok r => exact ⟨r, rfl⟩
    | error e => cases hresult.symm.trans (decodeChild_eq_error_iff.mpr ⟨payload, hpayload, hr⟩)
  · intro h
    cases hr : Aggregation.decodeChild formatter members c with
    | ok result => exact ⟨result, rfl⟩
    | error e =>
      obtain ⟨payload, hpayload, hfail⟩ := decodeChild_eq_error_iff.mp hr
      obtain ⟨r, hok⟩ := h payload hpayload
      cases hfail.symm.trans hok

/-- The aggregations of an object are read one after the other. -/
theorem decodeAggregations_of_object (h : raw.member? "aggregations" = some (.object members)) :
    s.decodeAggregations formatter (raw.member? "aggregations") =
      (s.aggregations.entries.mapM (Aggregation.decodeChild formatter members)).map
        (fun results => ⟨results.filterMap id⟩) := by
  rw [h]
  show (Aggregation.decodeChildren formatter s.aggregations.entries members).map Table.mk = _
  rw [Aggregation.decodeChildren_eq_mapM]
  cases s.aggregations.entries.mapM (Aggregation.decodeChild formatter members) <;> rfl

/-- Aggregations that are no object are refused as they are. -/
theorem decodeAggregations_of_scalar {value : Json}
    (h : raw.member? "aggregations" = some value) (hscalar : value.members? = none) :
    s.decodeAggregations formatter (raw.member? "aggregations") =
      .error (.decode .aggregationsNotAnObject) := by
  rw [h]
  cases value <;> first | rfl | cases hscalar

/-- The parts of a response that decide how its aggregations are read: there are none, they are
no object, or they are one. -/
theorem aggregations_cases (raw : Json) :
    raw.member? "aggregations" = none ∨
      (∃ value, raw.member? "aggregations" = some value ∧ value.members? = none) ∨
      ∃ members, raw.member? "aggregations" = some (.object members) := by
  cases raw.member? "aggregations" with
  | none => exact Or.inl rfl
  | some value =>
    cases hm : value.members? with
    | none => exact Or.inr (Or.inl ⟨value, rfl, hm⟩)
    | some members =>
      exact Or.inr (Or.inr ⟨members, congrArg some (Json.members?_eq_some_iff.mp hm)⟩)

theorem exists_decodeAggregations_iff :
    (∃ results, s.decodeAggregations formatter (raw.member? "aggregations") = .ok results) ↔
      s.HasAggregations formatter raw := by
  unfold HasAggregations
  -- by what there is of aggregations
  rcases aggregations_cases raw with hnone | ⟨value, hvalue, hscalar⟩ | ⟨members, hmembers⟩
  · rw [hnone]
    exact ⟨fun _ => Or.inl rfl, fun _ => ⟨.empty, rfl⟩⟩
  · rw [decodeAggregations_of_scalar hvalue hscalar]
    constructor
    · rintro ⟨results, hresults⟩
      cases hresults
    · rintro (hnone | ⟨members, hmembers, -⟩)
      · cases hvalue.symm.trans hnone
      · cases hvalue.symm.trans hmembers
        cases hscalar
  · rw [decodeAggregations_of_object hmembers, hmembers]
    simp only [Outcome.map_eq_ok_iff, reduceCtorEq, false_or, Option.some.injEq,
      Json.object.injEq, exists_eq_left', ← exists_decodeChild_iff,
      ← Outcome.exists_mapM_eq_ok_iff]
    exact ⟨fun ⟨_, results, hresults, _⟩ => ⟨results, hresults⟩,
      fun ⟨results, hresults⟩ => ⟨_, results, hresults, rfl⟩⟩

/-- **Aggregations are refused** if they are no object, or else for the first one that cannot be
decoded. -/
theorem exists_of_decodeAggregations_eq_error
    (h : s.decodeAggregations formatter (raw.member? "aggregations") = .error e) :
    (∃ value, raw.member? "aggregations" = some value ∧ value.members? = none ∧
      e = .decode .aggregationsNotAnObject) ∨
    ∃ members before c after payload, raw.member? "aggregations" = some (.object members) ∧
      s.aggregations.entries = before ++ c :: after ∧
      (∀ other ∈ before, Decodes formatter members other) ∧
      members.get? c.1 = some (.object payload) ∧
      c.2.decode formatter (.object payload) = .error e := by
  rcases aggregations_cases raw with hnone | ⟨value, hvalue, hscalar⟩ | ⟨members, hmembers⟩
  · rw [hnone] at h
    cases h
  · rw [decodeAggregations_of_scalar hvalue hscalar] at h
    exact Or.inl ⟨value, hvalue, hscalar, (Except.error.inj h).symm⟩
  · rw [decodeAggregations_of_object hmembers, ← Outcome.error?_eq_some_iff, Outcome.error?_map,
      Outcome.error?_eq_some_iff] at h
    obtain ⟨before, c, after, hentries, hbefore, hfail⟩ := Outcome.mapM_eq_error_iff.mp h
    obtain ⟨payload, hpayload, hfail⟩ := decodeChild_eq_error_iff.mp hfail
    exact Or.inr ⟨members, before, c, after, payload, hmembers, hentries,
      fun other hother => exists_decodeChild_iff.mp (hbefore other hother), hpayload, hfail⟩

/-- What an aggregation reports is an error of decoding. -/
theorem exists_of_decode_eq_error {a : Aggregation} {value : Json}
    (h : a.decode formatter value = .error e) : ∃ fault, e = .decode fault := by
  have hreports := Aggregation.reportsFirst_decode formatter a value
  rw [h] at hreports
  obtain ⟨-, fault, -, he⟩ := hreports
  exact ⟨fault, he⟩

/-- The names of the results are the registered names that the response has. -/
theorem names_of_decodeAggregations {results : Table Decoded}
    (h : s.decodeAggregations formatter (raw.member? "aggregations") = .ok results) :
    results.keys = s.aggregations.keys.filter (fun name =>
      ((raw.member? "aggregations").bind (fun value => value.member? name)).isSome) := by
  rcases aggregations_cases raw with hnone | ⟨value, hvalue, hscalar⟩ | ⟨members, hmembers⟩
  · rw [hnone] at h ⊢
    obtain rfl := Except.ok.inj h
    exact (List.filter_eq_nil_iff.mpr fun _ _ => Bool.false_ne_true).symm
  · rw [decodeAggregations_of_scalar hvalue hscalar] at h
    cases h
  · rw [hmembers] at h ⊢
    obtain ⟨entries, hentries, rfl⟩ := Outcome.map_eq_ok_iff.mp h
    exact Aggregation.names_of_decodeChildren hentries

/-! ### The whole response -/

theorem decode_of_hits (h : raw.member? "hits" = some (.object reported)) :
    s.decode formatter raw = ((listedHits reported).mapM decodeHit).bind (fun hits =>
      (s.decodeAggregations formatter (raw.member? "aggregations")).map
        (SearchResult.ofReported reported hits)) := by
  rw [decode_eq, h]
  rfl

/-- All hits of a response that has hits are read. -/
theorem decode_of_hasHits (s : Search) (formatter : Formatter) (h : HasHits raw) : ∃ reported hits,
    raw.member? "hits" = some (.object reported) ∧
    (listedHits reported).mapM decodeHit = .ok hits ∧
    s.decode formatter raw = (s.decodeAggregations formatter (raw.member? "aggregations")).map
      (SearchResult.ofReported reported hits) := by
  obtain ⟨reported, hreported, hlisted⟩ := h
  -- each of the hits is read, so all of them are
  obtain ⟨hits, hhits⟩ := Outcome.exists_mapM_eq_ok_iff.mpr fun element helement =>
    exists_decodeHit_iff.mpr (hlisted element helement)
  refine ⟨reported, hits, hreported, hhits, ?_⟩
  rw [decode_of_hits hreported, hhits]
  rfl

/-- A response that can be read is read. -/
theorem exists_decode_eq_ok (hits : HasHits raw) (aggregations : s.HasAggregations formatter raw) :
    ∃ r, s.decode formatter raw = .ok r := by
  obtain ⟨results, hresults⟩ := exists_decodeAggregations_iff.mpr aggregations
  obtain ⟨reported, hits, -, -, hdecode⟩ := decode_of_hasHits s formatter hits
  rw [hdecode, hresults]
  exact ⟨_, rfl⟩

/-- What a response that has been read had, and what is kept of it. -/
theorem of_decode_eq_ok {r : SearchResult} (h : s.decode formatter raw = .ok r) :
    HasHits raw ∧ s.HasAggregations formatter raw ∧ r.Mirrors s raw := by
  rw [decode_eq, Outcome.bind_eq_ok_iff] at h
  obtain ⟨reported, hreported, h⟩ := h
  obtain ⟨hits, hhits, h⟩ := Outcome.bind_eq_ok_iff.mp h
  obtain ⟨results, hresults, rfl⟩ := Outcome.map_eq_ok_iff.mp h
  have hobject : raw.member? "hits" = some (.object reported) := by
    obtain ⟨value, hvalue, hmembers⟩ := Option.bind_eq_some_iff.mp
      (Outcome.require_eq_ok_iff.mp hreported)
    rw [hvalue, Json.members?_eq_some_iff.mp hmembers]
  refine ⟨⟨reported, hobject, fun element helement => ?_⟩,
    exists_decodeAggregations_iff.mp ⟨results, hresults⟩,
    ⟨reported, hobject, ?_, fun n => total_of_reports, total_of_not_reports⟩,
    names_of_decodeAggregations hresults⟩
  · -- a hit that has been read is one that can be
    exact exists_decodeHit_iff.mp (Outcome.exists_mapM_eq_ok_iff.mp ⟨hits, hhits⟩ element helement)
  · -- hits and elements stand to each other one by one
    exact (Outcome.mapM_eq_ok_iff.mp hhits).imp fun element hit => mirrors_of_decodeHit

/-- A response that cannot be read has one of the faults, and no other. -/
theorem decode_eq_error_iff :
    s.decode formatter raw = .error e ↔ s.Fails formatter raw e := by
  constructor
  · intro h
    cases hreported : (raw.member? "hits").bind Json.members? with
    | none =>
      rw [decode_eq, hreported] at h
      obtain rfl := Except.error.inj h
      refine .withoutHits fun reported hobject => ?_
      rw [hobject] at hreported
      cases hreported
    | some reported =>
      obtain ⟨value, hvalue, hmembers⟩ := Option.bind_eq_some_iff.mp hreported
      obtain rfl := Json.members?_eq_some_iff.mp hmembers
      rw [decode_of_hits hvalue] at h
      cases hhits : (listedHits reported).mapM decodeHit with
      | error e' =>
        -- the aggregations have not been looked at
        rw [hhits] at h
        obtain rfl := Except.error.inj h
        obtain ⟨before, element, after, hlisted, hbefore, hfail⟩ :=
          Outcome.mapM_eq_error_iff.mp hhits
        obtain ⟨hfault, rfl⟩ := decodeHit_eq_error_iff.mp hfail
        exact .hit hvalue hlisted (fun other hother => exists_decodeHit_iff.mp
          (hbefore other hother)) hfault
      | ok hits =>
        have hall : HasHits raw := ⟨reported, hvalue, fun element helement =>
          exists_decodeHit_iff.mp (Outcome.exists_mapM_eq_ok_iff.mp ⟨hits, hhits⟩ element helement)⟩
        -- the hits are read, so that the error is one of the aggregations
        rw [hhits, ← Outcome.error?_eq_some_iff] at h
        have herror := Outcome.error?_eq_some_iff.mp ((Outcome.error?_map _ _).symm.trans h)
        rcases exists_of_decodeAggregations_eq_error herror with
          ⟨value, hvalue, hscalar, rfl⟩ |
          ⟨members, before, c, after, payload, hmembers, hentries, hbefore, hpayload, hfail⟩
        · exact .aggregationsNotAnObject hall hvalue hscalar
        · exact .aggregation hall hmembers hentries hbefore hpayload hfail
  · intro h
    -- each fault is met by the decoder, since what comes before it goes well
    cases h with
    | withoutHits hnone =>
      have hreported : (raw.member? "hits").bind Json.members? = none := by
        refine Option.eq_none_iff_forall_ne_some.mpr fun reported hreported => ?_
        obtain ⟨value, hvalue, hmembers⟩ := Option.bind_eq_some_iff.mp hreported
        exact hnone reported (hvalue.trans (congrArg some (Json.members?_eq_some_iff.mp hmembers)))
      rw [decode_eq, hreported]
      rfl
    | hit hits listed first fault =>
      -- the hits before the first at fault are read, and that one is not
      have hfails := Outcome.mapM_eq_error_iff.mpr ⟨_, _, _, listed, fun other hother =>
        exists_decodeHit_iff.mpr (first other hother), decodeHit_eq_error_iff.mpr ⟨fault, rfl⟩⟩
      rw [decode_of_hits hits, hfails]
      rfl
    | aggregationsNotAnObject hits found hscalar =>
      obtain ⟨reported, hits, -, -, hdecode⟩ := decode_of_hasHits s formatter hits
      rw [hdecode, decodeAggregations_of_scalar found hscalar]
      rfl
    | aggregation hits found registered first present fails =>
      -- the same for the aggregations, once all hits have been read
      have hfails := Outcome.mapM_eq_error_iff.mpr ⟨_, _, _, registered, fun other hother =>
        exists_decodeChild_iff.mpr (first other hother),
        decodeChild_eq_error_iff.mpr ⟨_, present, fails⟩⟩
      obtain ⟨reported, hits, -, -, hdecode⟩ := decode_of_hasHits s formatter hits
      rw [hdecode, decodeAggregations_of_object found, hfails]
      rfl

/-- **What a search reads, and what it reports otherwise.** A response is read exactly if it has
an object of hits, all of which say who they are, and aggregations, if any, that the registered
ones can decode. A response that is not read has one error, that of the first hit at fault or,
only if there is none, that of the first aggregation at fault, and always one of decoding. A
result has one hit for every element, in order, the reported number of hits, and the registered
aggregations that the response has, in the order of registration. -/
theorem decode_acceptance (s : Search) (formatter : Formatter) (raw : Json) :
    ((∃ r, s.decode formatter raw = .ok r) ↔ HasHits raw ∧ s.HasAggregations formatter raw) ∧
    (∀ e, s.decode formatter raw = .error e ↔ s.Fails formatter raw e) ∧
    (∀ e, s.decode formatter raw = .error e → ∃ fault, e = .decode fault) ∧
    ∀ r, s.decode formatter raw = .ok r → r.Mirrors s raw := by
  refine ⟨⟨?_, ?_⟩, fun e => decode_eq_error_iff, fun e he => ?_, fun r hr => ?_⟩
  · rintro ⟨r, hr⟩
    obtain ⟨hits, aggregations, -⟩ := of_decode_eq_ok hr
    exact ⟨hits, aggregations⟩
  · rintro ⟨hits, aggregations⟩
    exact exists_decode_eq_ok hits aggregations
  · cases decode_eq_error_iff.mp he with
    | withoutHits => exact ⟨_, rfl⟩
    | hit => exact ⟨_, rfl⟩
    | aggregationsNotAnObject => exact ⟨_, rfl⟩
    | aggregation _ _ _ _ _ fails =>
      -- what an aggregation reports is passed on as it is
      exact exists_of_decode_eq_error fails
  · exact (of_decode_eq_ok hr).2.2

/-- The second hit is at fault, and so are the aggregations, which are not looked at any more. -/
example :
    let hits : Json := .array [.ofMembers [("_id", .ofNat 1)], .ofMembers [("_index", .string "a")]]
    empty.decode .passthrough (.ofMembers [("hits", .ofMembers [("hits", hits)]),
      ("aggregations", .null)]) = .error (.decode .hitWithoutId) := rfl

end Search

end SearchIndex
