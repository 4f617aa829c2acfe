import SearchIndex.Options
import SearchIndex.Table.Exchange

/-!
# Sessions on options

Settings are made, taken out and looked up one after the other. Each operation has an answer:
what has been under the key until then, whether there is anything, the settings in order, or
their number.
-/

namespace SearchIndex.Options

/-- Sets a value and hands out the one that it replaces. -/
def exchange (o : Options) (key : String) (value : Json) : Option Json × Options :=
  let (replaced, entries) := o.entries.exchange (canonicalKey key) value
  (replaced, ⟨entries⟩)

/-- Takes a setting out and hands out its value. -/
def take (o : Options) (key : String) : Option Json × Options :=
  let (taken, entries) := o.entries.take (canonicalKey key)
  (taken, ⟨entries⟩)

/-- What can be done with options. -/
inductive Operation where
  | insert (key : String) (value : Json)
  | remove (key : String)
  | get (key : String)
  | contains (key : String)
  | list
  | size

/-- What an operation answers. -/
inductive Answer where
  | value (found : Option Json)
  | presence (found : Bool)
  | settings (listed : List (String × Json))
  | count (number : Nat)

/-- The answer of an operation and the options after it. -/
def perform (o : Options) : Operation → Answer × Options
  | .insert key value => (o.exchange key value).map .value id
  | .remove key => (o.take key).map .value id
  | .get key => (.value (o.get? key), o)
  | .contains key => (.presence (o.contains key), o)
  | .list => (.settings o.toList, o)
  | .size => (.count o.size, o)

/-- The options after a list of operations. -/
def after (o : Options) (operations : List Operation) : Options :=
  operations.foldl (fun o op => (o.perform op).2) o

/-- The answers of a list of operations. -/
def answers : Options → List Operation → List Answer
  | _, [] => []
  | o, op :: rest => (o.perform op).1 :: answers (o.perform op).2 rest

/-- Setting hands out what a look-up would have found. -/
theorem perform_insert (o : Options) (key : String) (value : Json) :
    o.perform (.insert key value) = (.value (o.get? key), o.insert key value) := by
  rw [perform, exchange, Table.exchange_eq]
  rfl

/-- Taking out hands out what a look-up would have found. -/
theorem perform_remove (o : Options) (key : String) :
    o.perform (.remove key) = (.value (o.get? key), o.erase key) := by
  rw [perform, take, Table.take_eq]
  rfl

end SearchIndex.Options
