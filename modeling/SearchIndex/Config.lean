import SearchIndex.Error
import SearchIndex.Files
import SearchIndex.Toml.Reader

/-!
# Settings

What the command line is told by a TOML file: how to log, whether fields infer their
options unless they say otherwise, and where the schemas are. Every setting has a default,
and settings that are not known are ignored.

The settings of a section are the entries of a table. They may also be the items of an
array, in the order of the section's keys; a date holds none.
-/

namespace SearchIndex

/-- How much is logged, and whether as JSON lines. -/
structure Logging where
  level : String
  json : Bool
deriving DecidableEq

/-- The settings of the command line. -/
structure Config where
  logging : Logging
  /-- Whether fields that do not say so infer their options. -/
  infers : Bool
  /-- The directory of the schemas. -/
  schemas : String
deriving DecidableEq

/-- The settings where none is given. -/
def Config.initial : Config := ⟨⟨"info", false⟩, true, "./schemas"⟩

namespace Toml.Value

/-- The text, if the value is one. -/
def string? : Value → Option String
  | .string s => some s
  | _ => none

/-- The truth value, if the value is one. -/
def bool? : Value → Option Bool
  | .bool b => some b
  | _ => none

/-- The settings of a section with the given keys. -/
def section? (keys : List String) : Value → Option (Table Value)
  | .table _ members => some members
  | .array items => some ⟨keys.zip items⟩
  | .tables earlier last =>
    some ⟨keys.zip ((earlier ++ [last]).map (Value.table .header))⟩
  | .moment => some .empty
  | _ => none

end Toml.Value

open Toml (Value)

namespace Config

/-- A setting as `read` reads it, or its default where it is not given. -/
def setting? {α : Type} (key : String) (absent : α) (read : Value → Option α)
    (settings : Table Value) : Option α :=
  match settings.get? key with
  | none => some absent
  | some v => read v

/-- Reads the section on logging. -/
def logging? (v : Value) : Option Logging := do
  let settings ← v.section? ["level", "json"]
  let level ← setting? "level" initial.logging.level Value.string? settings
  let json ← setting? "json" initial.logging.json Value.bool? settings
  return ⟨level, json⟩

/-- Reads the section on mappings. -/
def infers? (v : Value) : Option Bool :=
  (v.section? ["inference_enabled"]).bind
    (setting? "inference_enabled" initial.infers Value.bool?)

/-- Reads all settings. -/
def ofTable? (settings : Table Value) : Option Config := do
  let logging ← setting? "logging" initial.logging logging? settings
  let infers ← setting? "mapping" initial.infers infers? settings
  let schemas ← setting? "schemas_dir" initial.schemas Value.string? settings
  return ⟨logging, infers, schemas⟩

/-- Reads the text of a file of settings. What is wrong with a text that is refused is
reported in the words of the reader of TOML. -/
def read (report : String → String) (text : String) : Except Error Config :=
  match (Toml.read? text).bind ofTable? with
  | some config => .ok config
  | none => .error (.toml (report text))

variable {m : Type → Type} [Monad m]

/-- Loads the settings of a file. -/
def load (files : Files m) (report : String → String) (path : String) :
    m (Except Error Config) := do
  match ← files.text path with
  | .ok text => return read report text
  | .error reported => return .error (.io reported)

/-- Loads the settings of a file if there is one. -/
def loadOrInitial (files : Files m) (report : String → String) (path : String) :
    m (Except Error Config) := do
  if ← files.isPresent path then load files report path else return .ok initial

end Config

end SearchIndex
