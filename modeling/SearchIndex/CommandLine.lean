import SearchIndex.CommandLine.Arguments
import SearchIndex.Config
import SearchIndex.Definition.Mapping
import SearchIndex.Schema.Directory

/-!
# The command line

Three commands work on schema files: `mapping` writes the mapping document of a schema,
`fields` lists the paths of its fields, and `lint` loads all schemas of a directory and
checks that the mapping of each can be resolved. Settings are loaded first, from the file
that an option, the environment or the default names; there need not be one.

A run gives the text to write, or a failure with its exit code.
-/

namespace SearchIndex.CommandLine

/-- What to do. -/
inductive Command where
  | mapping (schema : String) (pretty : Bool)
  | fields (schema : String)
  /-- Without a directory, that of the settings is meant. -/
  | lint (directory : Option String)
deriving DecidableEq

/-- A command, and the file of settings if one is given. -/
structure Invocation where
  config : Option String
  command : Command
deriving DecidableEq

/-- Why a run gives no text. -/
inductive Failure where
  /-- The arguments are not those of a command. -/
  | usage
  | error (e : Error)
  /-- Some of the schemas of a directory have no mapping. -/
  | unresolved (count total : Nat)

/-- The exit code of a failure. -/
def Failure.exitCode : Failure → Nat
  | usage => 2
  | error _ => 1
  | unresolved _ _ => 1

/-- The text of a failure. -/
def Failure.message : Failure → String
  | usage =>
    "usage: [-c FILE] (mapping -s FILE [--pretty] | fields -s FILE | lint [-d DIR])"
  | error e => e.message
  | unresolved count total =>
    toString count ++ " of " ++ toString total ++ " schemas failed to render"

/-! ### Arguments -/

/-- The option that names the file of settings. -/
def configFlag : Flag := ⟨"config", some 'c', true⟩

/-- The option that names a schema file. -/
def schemaFlag : Flag := ⟨"schema", some 's', true⟩

/-- The option that asks for a mapping on several lines. -/
def prettyFlag : Flag := ⟨"pretty", none, false⟩

/-- The option that names a directory of schemas. -/
def directoryFlag : Flag := ⟨"dir", some 'd', true⟩

namespace Settings

/-- The value of an option, if it is given one. -/
def value? (settings : Settings) (flag : Flag) : Option String :=
  (settings.get? flag.long).join

end Settings

/-- The command of a list of arguments. -/
def Command.ofArguments? : List String → Option Command
  | "mapping" :: args => do
    let settings ← Arguments.options? [schemaFlag, prettyFlag] args
    let schema ← Settings.value? settings schemaFlag
    return .mapping schema (settings.contains prettyFlag.long)
  | "fields" :: args => do
    let settings ← Arguments.options? [schemaFlag] args
    let schema ← Settings.value? settings schemaFlag
    return .fields schema
  | "lint" :: args => do
    let settings ← Arguments.options? [directoryFlag] args
    return .lint (Settings.value? settings directoryFlag)
  | _ => none

/-- The invocation of a list of arguments. -/
def Invocation.ofArguments? (args : List String) : Option Invocation := do
  let (settings, rest) ← Arguments.read? [configFlag] args
  let command ← Command.ofArguments? rest
  return ⟨Settings.value? settings configFlag, command⟩

/-- The file of settings: the one that is given, else the one that the environment names,
else the default. A name must not be empty. -/
def Invocation.configPath? (i : Invocation) (environment : Option String) : Option String :=
  ((i.config.or environment).or (some "elastic.toml")).filter (fun path => path != "")

/-! ### Commands -/

variable {m : Type → Type} [Monad m]

/-- The text of the mapping of a definition. -/
def mappingText (pretty : Bool) (d : Definition) : Except Error String :=
  d.mapping.map (fun mapping =>
    (if pretty then (Json.object mapping).pretty else (Json.object mapping).compact) ++ "\n")

/-- The text of the paths of the fields of a definition, one on each line. -/
def fieldsText (d : Definition) : String :=
  String.join (d.expandedNames.map (fun name => name ++ "\n"))

/-- Whether the mapping of a definition cannot be resolved. -/
def isUnresolved (d : Definition) : Bool :=
  match d.mapping with
  | .ok _ => false
  | .error _ => true

/-- What there is to say about the schemas of a directory. -/
def lintText (schemas : Table Schema) : Except Failure String :=
  let failed := (schemas.values.filter (fun s => isUnresolved s.definition)).length
  if failed = 0 then .ok (toString schemas.size ++ " schemas ok\n")
  else .error (.unresolved failed schemas.size)

/-- How schemas are loaded under settings, where `report` is what the reader of YAML says. -/
def loaderOf (report : String → String) (config : Config) : Schema.Loader :=
  ⟨config.infers, report⟩

/-- Runs a command under settings. -/
def Command.run (files : Files m) (report : String → String) (config : Config) :
    Command → m (Except Failure String)
  | .mapping path pretty => do
    let schema ← Schema.load files (loaderOf report config) path
    return (schema.bind (fun s => mappingText pretty s.definition)).mapError .error
  | .fields path => do
    let schema ← Schema.load files (loaderOf report config) path
    return (schema.map (fun s => fieldsText s.definition)).mapError .error
  | .lint directory => do
    let schemas ←
      Schema.loadAll files (loaderOf report config) (directory.getD config.schemas)
    return (schemas.mapError .error).bind lintText

/-- What the readers of documents report of texts that they refuse. -/
structure Reports where
  /-- The words of the reader of YAML for a text that is not a schema. -/
  schema : String → String
  /-- The words of the reader of TOML for a text that holds no settings. -/
  settings : String → String

/-- Runs what a list of arguments asks for. -/
def run (files : Files m) (reports : Reports) (environment : Option String)
    (args : List String) : m (Except Failure String) :=
  match Invocation.ofArguments? args with
  | none => return .error .usage
  | some invocation =>
    match invocation.configPath? environment with
    | none => return .error .usage
    | some path => do
      match ← Config.loadOrInitial files reports.settings path with
      | .ok config => invocation.command.run files reports.schema config
      | .error e => return .error (.error e)

end SearchIndex.CommandLine
