import SearchIndex.Definition.Session
import SearchIndex.Proofs.Call
import SearchIndex.Proofs.Definition.Frozen
import Mathlib.Data.List.Induction

/-!
# Targets throughout a session

However a session on a draft goes, with lists of targets accepted and refused in between, the
draft shows one list and nothing of any other: targets, mode and main target are those of the
list that was accepted last (`Definition.BackedBy`). A list is accepted exactly if it is not
empty, all of it is indexable, and all of it has one mode (`Target.Uniform`); otherwise the
assignment fails and leaves the draft alone. `Draft.session_targets` puts this together.

Targets and mode are written one after the other and could get out of step. They do not,
because both are written behind the only check (`Draft.assignTargets_performs`). The invariant
of a session is `Draft.Holds`: what the draft holds has passed the check as a whole.
-/

namespace SearchIndex

namespace Target

variable {targets : List Target}

/-- Targets that can back one definition: there is one, all are indexable, and all have one
mode. -/
def Uniform (targets : List Target) : Prop :=
  targets ≠ [] ∧ (∀ t ∈ targets, t.indexable.isSome) ∧
    ∀ t ∈ targets, ∀ u ∈ targets, t.mode? = u.mode?

instance (targets : List Target) : Decidable (Uniform targets) :=
  inferInstanceAs (Decidable (_ ∧ _ ∧ _))

/-- The check passes for uniform targets and no others. -/
theorem exists_commonMode_eq_ok_iff :
    (∃ mode, commonMode targets = .ok mode) ↔ Uniform targets := by
  simp only [commonMode_eq_ok_iff]
  constructor
  · -- one mode for all of them is the mode of each
    rintro ⟨mode, hne, hall⟩
    have hmode : ∀ t ∈ targets, t.mode? = some mode := by
      intro t ht
      obtain ⟨i, hi, rfl⟩ := hall t ht
      rw [mode?, hi, Option.map_some]
    refine ⟨hne, fun t ht => ?_, fun t ht u hu => (hmode t ht).trans (hmode u hu).symm⟩
    obtain ⟨i, hi, -⟩ := hall t ht
    rw [hi]
    rfl
  · rintro ⟨hne, hindexable, hsame⟩
    -- the mode is that of the first target
    obtain ⟨first, rest, rfl⟩ := List.exists_cons_of_ne_nil hne
    obtain ⟨j, hj⟩ := Option.isSome_iff_exists.mp (hindexable first List.mem_cons_self)
    refine ⟨j.mode, hne, fun t ht => ?_⟩
    obtain ⟨i, hi⟩ := Option.isSome_iff_exists.mp (hindexable t ht)
    have hmodes := hsame t ht first List.mem_cons_self
    rw [mode?, mode?, hi, hj] at hmodes
    exact ⟨i, hi, Option.some.inj hmodes⟩

/-- A target that does not fit in with the first is refused as a configuration. -/
theorem exists_of_checkRest_eq_error {first : String} {mode : Mode} {e : Error}
    (h : checkRest first mode targets = .error e) : ∃ fault, e = .configuration fault := by
  induction targets with
  | nil => cases h
  | cons t rest ih =>
    rw [checkRest] at h
    split at h
    · -- the target is not indexable
      exact ⟨_, (Except.error.inj h).symm⟩
    · split at h
      · exact ih h
      · -- the target has another mode
        exact ⟨_, (Except.error.inj h).symm⟩

/-- Whatever is wrong with a list of targets, it is the configuration that is refused. -/
theorem exists_of_commonMode_eq_error {e : Error} (h : commonMode targets = .error e) :
    ∃ fault, e = .configuration fault := by
  cases targets with
  | nil =>
    -- no targets at all
    exact ⟨_, (Except.error.inj h).symm⟩
  | cons t rest =>
    rw [commonMode] at h
    split at h
    · exact ⟨_, (Except.error.inj h).symm⟩
    · exact exists_of_checkRest_eq_error h

end Target

/-- What a definition shows of its targets if the list `accepted`, or none, has been the last
to be accepted. -/
structure Definition.BackedBy (d : Definition) (accepted : Option (List Target)) : Prop where
  targets : d.targets = accepted.getD []
  mode_eq_none_iff : d.mode = none ↔ d.targets = []
  indexable : ∀ t ∈ d.targets, ∃ i, t.indexable = some i ∧ d.mode = some i.mode
  mainTarget_eq_ok_iff : ∀ t, d.mainTarget = .ok t ↔ ∃ rest, accepted = some (t :: rest)
  mainTarget_eq_error_iff : ∀ e,
    d.mainTarget = .error e ↔ accepted = none ∧ e = .configuration .withoutTargets

namespace Draft

variable {d : Draft} {targets : List Target} {accepted : Option (List Target)}

/-! ### One assignment -/

/-- Targets and mode are both written behind the check. -/
theorem assignTargets_performs (targets : List Target) :
    (assignTargets targets).Performs (fun d => d.setTargets targets) := by
  intro d
  dsimp only
  rw [assignTargets, setTargets]
  cases Target.commonMode targets <;> rfl

/-- An assignment is accepted exactly if the list can back a definition. -/
theorem assignTargets_eq_ok_iff :
    (assignTargets targets).outcome d = .ok () ↔ Target.Uniform targets := by
  rw [(assignTargets_performs targets).outcome_eq_ok_iff, ← Target.exists_commonMode_eq_ok_iff]
  simp only [setTargets_eq_ok_iff]
  constructor
  · -- from the accepted assignment to the check, and back
    rintro ⟨-, mode, hmode, -⟩
    exact ⟨mode, hmode⟩
  · rintro ⟨mode, hmode⟩
    exact ⟨_, mode, hmode, rfl⟩

/-- An assignment that is refused is refused as a configuration. -/
theorem exists_of_assignTargets_eq_error {e : Error}
    (h : (assignTargets targets).outcome d = .error e) : ∃ fault, e = .configuration fault := by
  rw [(assignTargets_performs targets).outcome_eq_error_iff, setTargets] at h
  cases hmode : Target.commonMode targets with
  | ok mode =>
    -- the check has found a mode, so the assignment has succeeded
    rw [hmode] at h
    cases h
  | error e' =>
    rw [hmode] at h
    obtain rfl := Except.error.inj h
    exact Target.exists_of_commonMode_eq_error hmode

/-! ### A whole session -/

/-- The list that an operation assigns, if it can be accepted. -/
def Operation.accepted? : Operation → Option (List Target)
  | .setTargets targets => if Target.Uniform targets then some targets else none
  | _ => none

/-- The last list that is accepted in a session. -/
def lastAccepted (operations : List Operation) : Option (List Target) :=
  (operations.filterMap Operation.accepted?).getLast?

/-- The last list of a longer session is the one just assigned, or else the last before it. -/
theorem lastAccepted_append_singleton (operations : List Operation) (op : Operation) :
    lastAccepted (operations ++ [op]) = op.accepted?.or (lastAccepted operations) := by
  rw [lastAccepted, List.filterMap_append, List.getLast?_append]
  cases h : op.accepted? <;> simp [h, lastAccepted]

/-- The draft holds the targets of a list that has passed the check, with the mode that the
check has found, or neither targets nor a mode. -/
def Holds (d : Draft) : Option (List Target) → Prop
  | none => d.contents.targets = [] ∧ d.contents.mode = none
  | some targets => ∃ mode, Target.commonMode targets = .ok mode ∧
      d.contents.targets = targets ∧ d.contents.mode = some mode

/-- What one operation makes of a draft that holds some list. -/
theorem Holds.after_call (h : d.Holds accepted) (op : Operation) :
    (op.call.after d).Holds (op.accepted?.or accepted) := by
  cases op with
  | setTargets targets =>
    have hperforms := assignTargets_performs targets
    rw [Operation.call, Operation.accepted?]
    split
    · next hu =>
      -- the list takes the place of the one before
      obtain ⟨mode, hmode⟩ := Target.exists_commonMode_eq_ok_iff.mpr hu
      have hset : d.setTargets targets = .ok _ := setTargets_eq_ok_iff.mpr ⟨mode, hmode, rfl⟩
      rw [(hperforms.of_ok hset).2]
      exact ⟨mode, hmode, rfl, rfl⟩
    · next hu =>
      -- the assignment fails, so it changes nothing
      cases hout : (assignTargets targets).outcome d with
      | ok u => exact absurd (assignTargets_eq_ok_iff.mp hout) hu
      | error e =>
        rw [hperforms.after_of_error hout]
        exact h
  | register f =>
    -- the other operations do not touch targets and mode
    exact h
  | changeOptions change => exact h

/-- **The invariant of a session.** -/
theorem holds_ofSession (operations : List Operation) :
    (ofSession operations).Holds (lastAccepted operations) := by
  induction operations using List.reverseRecOn with
  | nil => exact ⟨rfl, rfl⟩
  | append_singleton operations op ih =>
    have hstep : ofSession (operations ++ [op]) = op.call.after (ofSession operations) := by
      simp [ofSession, Call.afterAll]
    -- the last operation is made on a draft that holds what the session before has left
    rw [hstep, lastAccepted_append_singleton]
    exact ih.after_call op

/-- What a draft holds it shows. -/
theorem Holds.backedBy (h : d.Holds accepted) : d.contents.BackedBy accepted := by
  cases accepted with
  | none =>
    -- no list has been accepted: there is neither a target nor a mode to show
    obtain ⟨htargets, hmode⟩ := h
    refine ⟨htargets, by simp [htargets, hmode], by simp [htargets], fun t => ?_, fun e => ?_⟩
    · simp [Definition.mainTarget, htargets]
    · simp [Definition.mainTarget, htargets, eq_comm]
  | some targets =>
    -- the list has passed the check, and its first target is the main one
    obtain ⟨mode, hcommon, htargets, hmode⟩ := h
    obtain ⟨hne, hall⟩ := Target.commonMode_eq_ok_iff.mp hcommon
    refine ⟨htargets, by simp [htargets, hmode, hne], fun t ht => ?_, fun t => ?_, fun e => ?_⟩
    · obtain ⟨i, hi, rfl⟩ := hall t (htargets ▸ ht)
      exact ⟨i, hi, hmode⟩
    · rw [Definition.mainTarget, htargets]
      cases targets with
      | nil => exact absurd rfl hne
      | cons first rest => simp
    · rw [Definition.mainTarget, htargets]
      cases targets with
      | nil => exact absurd rfl hne
      | cons first rest => simp

/-- **The targets of a session.** After any operations the draft, and the definition it hands
out, show exactly the list that was accepted last. Whether a list is accepted depends on the
list alone; one that is not fails and changes nothing in the draft. -/
theorem session_targets (operations : List Operation) :
    (ofSession operations).contents.BackedBy (lastAccepted operations) ∧
    (ofSession operations).freeze.BackedBy (lastAccepted operations) ∧
    ∀ targets : List Target,
      ((assignTargets targets).outcome (ofSession operations) = .ok () ↔
        Target.Uniform targets) ∧
      ∀ e, (assignTargets targets).outcome (ofSession operations) = .error e →
        (∃ fault, e = .configuration fault) ∧
        (assignTargets targets).after (ofSession operations) = ofSession operations := by
  have hbacked := (holds_ofSession operations).backedBy
  refine ⟨hbacked, hbacked, fun targets => ⟨assignTargets_eq_ok_iff, fun e he => ?_⟩⟩
  exact ⟨exists_of_assignTargets_eq_error he, (assignTargets_performs targets).after_of_error he⟩

/-- A list with a target that is not indexable, and one of mixed modes, leave the first one. -/
example :
    let d := ofSession [.setTargets [.ofTable "Book" .index .empty, .ofTable "Essay" .index .empty],
      .setTargets [.plain "Plain"], .register (.typed "title" "text"),
      .setTargets [.ofTable "Book" .index .empty, .ofTable "Note" .storage .empty]]
    d.freeze.targets.map Target.name = ["Book", "Essay"] ∧ d.freeze.mode = some .index :=
  ⟨rfl, rfl⟩

end Draft

end SearchIndex
