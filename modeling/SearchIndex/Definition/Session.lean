import SearchIndex.Call
import SearchIndex.Definition.Draft

/-!
# Sessions on a draft

A draft is put together by calls in place: targets are assigned, fields registered and custom
options changed, in any order and as often as one likes. Only an assignment of targets can
fail, and the session then goes on with the draft that it has left.
-/

namespace SearchIndex

namespace Draft

/-- Assigns the targets and the mode they share. -/
def assignTargets (targets : List Target) : Call Draft Unit := do
  let mode ← Target.commonMode targets
  modify fun d => ⟨{ d.contents with targets := targets }⟩
  modify fun d => ⟨{ d.contents with mode := some mode }⟩

/-- What can be done to a draft. -/
inductive Operation where
  | setTargets (targets : List Target)
  | register (f : Field)
  | changeOptions (change : Options → Options)

/-- The call that an operation is made by. -/
def Operation.call : Operation → Call Draft Unit
  | .setTargets targets => assignTargets targets
  | .register f => modify fun d => d.register f
  | .changeOptions change => modify fun d => d.changeOptions change

/-- The draft that a session ends with. -/
def ofSession (operations : List Operation) : Draft :=
  Call.afterAll (operations.map Operation.call) .empty

end Draft

end SearchIndex
