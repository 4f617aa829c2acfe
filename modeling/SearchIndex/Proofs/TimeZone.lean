import SearchIndex.Proofs.Aggregation.Alike
import SearchIndex.Proofs.Text.Padded
import SearchIndex.TimeZone.Record

/-!
# The offset that is sent

A date histogram and a range query send a time zone as the text of its offset, a sign with two
digits for the hours and two for the minutes. Whoever reads the text back
(`TimeZone.readOffset?`) learns the sign and the whole minutes of the offset and nothing else:
the text has no place for seconds, which offsets by local mean time have and an explicit offset
may have.

`TimeZone.zone_sent` puts this together for all zones whose offset is less than a day. Every zone
that can be made is one of these (`TimeZone.Made.inRange`), whatever database the names are looked
up in, as long as no zone of it is ever a day away from universal time
(`ZoneDatabase.InRange`). The recorded database is such a one
(`ZoneDatabase.recorded_inRange`), and `TimeZone.not_forall_offset_read` shows some of its zones
whose seconds get lost.
-/

namespace SearchIndex

/-- What the request for an aggregation says of a time zone. -/
def Aggregation.sentZone? (a : Aggregation) : Option Json :=
  (a.render.get? "date_histogram").bind (fun parameters => parameters.member? "time_zone")

/-- What the request for a query says of a time zone, in the range of a field. -/
def Query.sentZone? (q : Query) (field : String) : Option Json :=
  ((q.render.get? "range").bind (fun fields => fields.member? field)).bind
    (fun parameters => parameters.member? "time_zone")

/-- A date histogram sends its zone, whatever children it has. -/
theorem Aggregation.sentZone?_dateHistogram (g : DateHistogram) (children : Aggregations) :
    (grouping (.dateHistogram g) children).sentZone? =
      g.zone.map (fun z => .string z.offsetText) := by
  have hparameters : (grouping (.dateHistogram g) children).render.get? "date_histogram" =
      some (.object (Grouping.dateHistogram g).parameters) :=
    get?_word_render (grouping (.dateHistogram g) children)
  -- the names of the parameters are distinct, so the zone is not hidden by another one
  have hdistinct : ["field", "interval", "time_zone", "min_doc_count"].Nodup := by decide
  unfold sentZone?
  rw [hparameters, Option.bind_some, Json.member?_object]
  show (Document.ofOptional _).get? "time_zone" = _
  rw [Document.get?_ofOptional]
  · rfl
  · exact hdistinct

/-- A range query sends its zone, whatever bounds it has. -/
theorem Query.sentZone?_range (field : String) (bounds : Bounds) (zone : Option TimeZone) :
    (range field bounds zone).sentZone? field = zone.map (fun z => .string z.offsetText) := by
  have hself (key : String) (value : Json) : (wrap key value).get? key = some value :=
    List.lookup_cons_self
  have hdistinct : ["gte", "gt", "lte", "lt", "time_zone"].Nodup := by decide
  unfold sentZone? render onField
  -- down to the parameters of the range, which are looked at as above
  rw [hself, Option.bind_some, Json.member?_object, hself, Option.bind_some, Json.member?_object,
    Document.get?_ofOptional]
  · rfl
  · exact hdistinct

namespace TimeZone

/-! ### Writing and reading an offset -/

/-- The minutes of an offset. The seconds of a minute that is not full do not count. -/
def wholeMinutes (seconds : Int) : Int := seconds.tdiv 60

/-- The offset, in seconds, that a sign with hours and minutes writes. -/
def readOffset? (text : String) : Option Int := do
  let (sign, rest) ← Text.sign? text.toList
  let (minutes, rest) ← Text.readClock? rest
  if rest = [] then some (sign * minutes * 60) else none

variable {a b seconds : Int}

/-- The absolute minutes are those of the absolute seconds. -/
theorem natAbs_wholeMinutes (seconds : Int) :
    (wholeMinutes seconds).natAbs = seconds.natAbs / 60 :=
  Int.natAbs_tdiv seconds 60

/-- The minutes have the sign of the offset, unless there is no full one. -/
theorem signFactor_mul_wholeMinutes (seconds : Int) :
    Text.signFactor seconds * (wholeMinutes seconds).natAbs = wholeMinutes seconds := by
  have hnonneg : 0 ≤ seconds → 0 ≤ wholeMinutes seconds := fun h => Int.tdiv_nonneg h (by decide)
  have hnonpos : 0 ≤ -seconds → 0 ≤ -wholeMinutes seconds := fun h => by
    have hneg : wholeMinutes (-seconds) = -wholeMinutes seconds := Int.neg_tdiv seconds 60
    rw [← hneg]
    exact Int.tdiv_nonneg h (by decide)
  unfold Text.signFactor
  -- the sign belongs to the seconds, and there may be no minute to carry it
  split <;> omega

/-- The text consists of the sign and the whole minutes. -/
theorem toList_textOfOffset (seconds : Int) :
    (textOfOffset seconds).toList =
      Text.signOf seconds :: Text.clock (wholeMinutes seconds).natAbs := by
  -- the writer divides the seconds, and not the minutes, into hours and minutes
  have hhours : seconds.natAbs / 60 / 60 = seconds.natAbs / 3600 := Nat.div_div_eq_div_mul ..
  have hminutes : seconds.natAbs / 60 % 60 = seconds.natAbs % 3600 / 60 := by omega
  -- what is left of the seconds is written nowhere
  unfold textOfOffset Text.clock Text.signOf
  rw [natAbs_wholeMinutes, hhours, hminutes]
  split <;> simp [String.toList_append]

/-- **Reading a written offset gives its whole minutes.** -/
theorem readOffset?_textOfOffset (h : seconds.natAbs < 86400) :
    readOffset? (textOfOffset seconds) = some (wholeMinutes seconds * 60) := by
  -- the clock has two digits for the hours, which the offset does not exceed
  have hclock : Text.readClock? (Text.clock (wholeMinutes seconds).natAbs) =
      some ((wholeMinutes seconds).natAbs, []) := by
    have hday : (wholeMinutes seconds).natAbs < 1440 := by
      rw [natAbs_wholeMinutes]
      omega
    have hread := Text.readClock?_clock hday []
    rwa [List.append_nil] at hread
  unfold readOffset?
  rw [toList_textOfOffset]
  simp only [Option.bind_eq_bind, Option.bind_some, Text.sign?_signOf, hclock]
  rw [if_pos trivial, signFactor_mul_wholeMinutes]

/-- **Two offsets have one text exactly if they have one sign and the same whole minutes.** -/
theorem textOfOffset_eq_iff (ha : a.natAbs < 86400) (hb : b.natAbs < 86400) :
    textOfOffset a = textOfOffset b ↔ (a < 0 ↔ b < 0) ∧ wholeMinutes a = wholeMinutes b := by
  constructor
  · intro h
    have hlist : Text.signOf a :: Text.clock (wholeMinutes a).natAbs =
        Text.signOf b :: Text.clock (wholeMinutes b).natAbs := by
      rw [← toList_textOfOffset, ← toList_textOfOffset, h]
    -- reading gives the minutes, but not the sign where there is no full one
    have hread : some (wholeMinutes a * 60) = some (wholeMinutes b * 60) := by
      rw [← readOffset?_textOfOffset ha, ← readOffset?_textOfOffset hb, h]
    refine ⟨Text.signOf_eq_signOf_iff.mp (List.cons.inj hlist).1, ?_⟩
    have hsixty := Option.some.inj hread
    omega
  · -- one sign and one clock make one text
    rintro ⟨hsign, hminutes⟩
    refine String.toList_injective ?_
    rw [toList_textOfOffset, toList_textOfOffset, Text.signOf_eq_signOf_iff.mpr hsign, hminutes]

/-- Nothing is left out of an offset of whole minutes. -/
theorem wholeMinutes_mul (h : 60 ∣ seconds) : wholeMinutes seconds * 60 = seconds :=
  Int.tdiv_mul_cancel h

/-- Two offsets of whole minutes have one text exactly if they are one offset. -/
theorem textOfOffset_eq_iff_of_dvd (ha : a.natAbs < 86400) (hb : b.natAbs < 86400)
    (hda : 60 ∣ a) (hdb : 60 ∣ b) : textOfOffset a = textOfOffset b ↔ a = b := by
  constructor
  · intro h
    have hminutes := ((textOfOffset_eq_iff ha hb).mp h).2
    rw [← wholeMinutes_mul hda, ← wholeMinutes_mul hdb, hminutes]
  · intro h
    rw [h]

/-! ### Zones -/

/-- The offset is less than a day. -/
def InRange (z : TimeZone) : Prop := z.offset.natAbs < 86400

/-- A zone as it can be made where names are looked up in a database. -/
inductive Made (zones : ZoneDatabase) : TimeZone → Prop
  | utc : Made zones utc
  | ofOffset {seconds : Int} (h : seconds.natAbs < 86400) : Made zones (ofOffset seconds)
  | ofNameAt {name : String} {instant : Int} {z : TimeZone}
      (h : ofNameAt zones name instant = .ok z) : Made zones z

/-- A zone that has been found has the offset that the database gives for some name. -/
theorem exists_of_ofNameAt {zones : ZoneDatabase} {name : String} {instant : Int} {z : TimeZone}
    (h : ofNameAt zones name instant = .ok z) :
    ∃ offsetAt, zones.offsetAt? z.name = some offsetAt ∧ z.offset = offsetAt instant := by
  unfold ofNameAt at h
  dsimp only at h
  split at h
  · -- an offset is no name
    cases h
  · split at h
    · -- the database does not know the name
      cases h
    · rename_i offsetAt hfound
      cases h
      exact ⟨offsetAt, hfound, rfl⟩

/-- **The offset of every zone is less than a day**, if that holds of the database. -/
theorem Made.inRange {zones : ZoneDatabase} {z : TimeZone} (h : z.Made zones)
    (hzones : zones.InRange) : z.InRange := by
  cases h with
  | utc =>
    exact (by decide : (0 : Int).natAbs < 86400)
  | ofOffset h =>
    exact h
  | @ofNameAt name instant _ h =>
    -- the database is trusted with the offsets of its names, at every instant
    obtain ⟨offsetAt, hfound, hoffset⟩ := exists_of_ofNameAt h
    show z.offset.natAbs < 86400
    rw [hoffset]
    exact hzones z.name offsetAt hfound instant

/-- **What is sent of a time zone.** A date histogram and a range query send the text of its
offset. The text says the sign of the offset and its whole minutes, which is all of it unless the
offset has seconds. Two zones are sent as the same text exactly if their offsets have one sign and
the same whole minutes, and zones made from offsets of whole minutes are equal exactly if their
names are. -/
theorem zone_sent {z w : TimeZone} (hz : z.InRange) (hw : w.InRange) :
    (∀ g children, g.zone = some z →
      (Aggregation.grouping (.dateHistogram g) children).sentZone? =
        some (.string z.offsetText)) ∧
    (∀ field bounds,
      (Query.range field bounds (some z)).sentZone? field = some (.string z.offsetText)) ∧
    readOffset? z.offsetText = some (wholeMinutes z.offset * 60) ∧
    (z.offsetText.toList.head? = some '-' ↔ z.offset < 0) ∧
    (60 ∣ z.offset → readOffset? z.offsetText = some z.offset) ∧
    (z.offsetText = w.offsetText ↔
      (z.offset < 0 ↔ w.offset < 0) ∧ wholeMinutes z.offset = wholeMinutes w.offset) ∧
    (60 ∣ z.offset → 60 ∣ w.offset →
      (z.offsetText = w.offsetText ↔ z.offset = w.offset) ∧
      (ofOffset z.offset = ofOffset w.offset ↔
        (ofOffset z.offset).name = (ofOffset w.offset).name)) := by
  have hread : readOffset? z.offsetText = some (wholeMinutes z.offset * 60) :=
    readOffset?_textOfOffset hz
  refine ⟨fun g children hg => ?_, fun field bounds => ?_, hread, ?_, fun hdz => ?_,
    textOfOffset_eq_iff hz hw, fun hdz hdw => ?_⟩
  · -- a date histogram sends it among its own parameters
    rw [Aggregation.sentZone?_dateHistogram, hg, Option.map_some]
  · -- a query sends it among the bounds of the field
    rw [Query.sentZone?_range, Option.map_some]
  · -- the sign stands at the front of the text
    rw [offsetText, toList_textOfOffset, List.head?_cons, Option.some_inj,
      Text.signOf_eq_minus_iff]
  · -- nothing is lost of whole minutes
    rw [hread, wholeMinutes_mul hdz]
  · -- such zones are told apart by their texts, and are named by them
    have htext := textOfOffset_eq_iff_of_dvd hz hw hdz hdw
    refine ⟨htext, fun h => congrArg name h, fun h => ?_⟩
    rw [htext.mp h]

end TimeZone

/-! ### The recorded database -/

/-- The offset at an instant is one of the record, or zero for want of one. -/
theorem ZoneRecord.offsetAt_mem (record : ZoneRecord) (instant : Int) :
    record.offsetAt instant ∈ 0 :: record.offsets := by
  unfold offsetAt
  dsimp only
  -- it does not matter which change was the last
  generalize record.allChanges.foldl (fun p c => if c.1 ≤ instant then c.2 else p) 0 = place
  rw [List.getD_eq_getElem?_getD]
  cases hplace : record.offsets[place]? with
  | none => exact List.mem_cons_self
  | some offset => exact List.mem_cons_of_mem _ (List.mem_of_getElem? hplace)

/-- The hours that a name writes are at most fourteen, in either direction. -/
theorem ZoneRecord.etcHours?_le {cs : List Char} {hours : Int} (h : etcHours? cs = some hours) :
    hours.natAbs ≤ 14 := by
  unfold etcHours? at h
  split at h
  · cases h
    decide
  · cases h
    decide
  · split at h
    · cases h
    · dsimp only at h
      split at h
      · cases h
      · rename_i n hfind
        have hn := List.mem_range.mp (List.mem_of_find?_eq_some hfind)
        -- a minus may stand before fourteen hours, and a plus before twelve
        split at h
        · cases h
          omega
        · split at h
          · cases h
            omega
          · cases h

/-- No recorded zone has ever been a day away from universal time. -/
theorem ZoneRecord.offsets_ofName? {name : String} {record : ZoneRecord}
    (h : ofName? name = some record) :
    ∀ offset ∈ record.offsets, offset.natAbs < 86400 := by
  have hplaces : ∀ place ∈ places,
      ∀ offset ∈ place.2.offsets, offset.natAbs < 86400 := by decide
  unfold ofName? at h
  split at h
  · -- universal time has a record of its own
    cases h
    decide
  · split at h
    · -- a name with hours in it
      obtain ⟨hours, hhours, rfl⟩ := Option.map_eq_some_iff.mp h
      have hle := etcHours?_le hhours
      intro offset hoffset
      obtain rfl := List.mem_singleton.mp hoffset
      omega
    · -- all others are listed
      obtain ⟨before, after, hsplit, -⟩ := List.lookup_eq_some_iff.mp h
      have hmem : (name, record) ∈ places := by
        rw [hsplit]
        exact List.mem_append_right _ List.mem_cons_self
      exact hplaces _ hmem

/-- **The recorded database has no offset of a day or more.** -/
theorem ZoneDatabase.recorded_inRange : recorded.InRange := by
  intro name offsetAt h instant
  obtain ⟨record, hrecord, rfl⟩ := Option.map_eq_some_iff.mp h
  -- an offset that is not recorded is zero
  rcases List.mem_cons.mp (record.offsetAt_mem instant) with hzero | hmem
  · rw [hzero]
    decide
  · exact ZoneRecord.offsets_ofName? hrecord _ hmem

namespace TimeZone

/-- New York went by local mean time until 1883. -/
theorem ofNameAt_newYork_1874 :
    ofNameAt .recorded "America/New_York" (-3000000000) = .ok ⟨"America/New_York", -17762⟩ := by
  have hoffset : ZoneRecord.newYork.offsetAt (-3000000000) = -17762 := by decide +kernel
  rw [← hoffset]
  rfl

/-- The New York of 1874 is sent without its two seconds, as a zone of its whole minutes is. -/
theorem newYork_sent :
    ∃ newYork, ofNameAt .recorded "America/New_York" (-3000000000) = .ok newYork ∧
      newYork.offset = -17762 ∧
      (Query.range "created_at" .none (some newYork)).sentZone? "created_at" =
        some (.string newYork.offsetText) ∧
      readOffset? newYork.offsetText = some (-17760) ∧
      newYork.offsetText = (ofOffset (-17760)).offsetText ∧
      readOffset? (ofOffset (-17760)).offsetText = some (-17760) := by
  refine ⟨_, ofNameAt_newYork_1874, rfl, ?_⟩
  have hrecorded := ZoneDatabase.recorded_inRange
  have hnewYork := (Made.ofNameAt ofNameAt_newYork_1874).inRange hrecorded
  have hminutes := (Made.ofOffset (by decide : (-17760 : Int).natAbs < 86400)).inRange hrecorded
  obtain ⟨-, hquery, hread, -, -, htext, -⟩ := zone_sent hnewYork hminutes
  obtain ⟨-, -, -, -, hwhole, -⟩ := zone_sent hminutes hnewYork
  exact ⟨hquery _ _, hread, htext.mpr (by decide), hwhole (by decide)⟩

/-- The seconds of an offset are not sent: neither is the offset always read back, nor do all
zones with one text have one offset, nor are all zones equal that are made from offsets and have
one name. -/
theorem not_forall_offset_read :
    (¬∀ z, Made .recorded z → readOffset? z.offsetText = some z.offset) ∧
    (¬∀ z w, Made .recorded z → Made .recorded w →
      (z.offsetText = w.offsetText ↔ z.offset = w.offset)) ∧
    ¬∀ a b : Int, a.natAbs < 86400 → b.natAbs < 86400 →
      (ofOffset a = ofOffset b ↔ (ofOffset a).name = (ofOffset b).name) := by
  refine ⟨fun h => ?_, fun h => ?_, fun h => ?_⟩
  · -- New York in 1874 is read back without its two seconds
    have hread := h _ (Made.ofNameAt ofNameAt_newYork_1874)
    rw [offsetText, readOffset?_textOfOffset (by decide)] at hread
    revert hread
    decide
  · -- half a minute is sent as no minute at all
    have hequal := (h utc (ofOffset 30) Made.utc (Made.ofOffset (by decide))).mp (by decide)
    revert hequal
    decide
  · -- and is named as no minute at all
    have hequal := (h 0 30 (by decide) (by decide)).mpr (by decide)
    revert hequal
    decide

end TimeZone

end SearchIndex
