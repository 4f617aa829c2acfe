import SearchIndex.Files
import SearchIndex.Schema

/-!
# Directories of schemas

A directory of schemas holds one schema under each name whose extension is `yaml` or `yml`;
what it holds under other names does not matter. All of them are loaded together, and the
first that cannot be loaded is the failure of the whole. Schemas are told apart by
the names they declare; of several with one name, the last one loaded stays.
-/

namespace SearchIndex.Schema

variable {m : Type → Type} [Monad m]

/-- Loads the schema of a file. -/
def load (files : Files m) (loader : Loader) (path : String) : m (Except Error Schema) := do
  match ← files.text path with
  | .ok text => return read loader text
  | .error report => return .error (.io report)

/-- Whether a name in a directory is that of a schema. -/
def isFileName (name : String) : Bool :=
  Files.extension? name == some "yaml" || Files.extension? name == some "yml"

/-- Loads schema files one after the other, until one cannot be loaded. -/
def loadEach (files : Files m) (loader : Loader) (taken : Table Schema) :
    List String → m (Except Error (Table Schema))
  | [] => return .ok taken
  | path :: rest => do
    match ← load files loader path with
    | .ok schema => loadEach files loader (taken.insert schema.name schema) rest
    | .error e => return .error e

/-- Loads the schemas of a directory, by their names. -/
def loadAll (files : Files m) (loader : Loader) (directory : String) :
    m (Except Error (Table Schema)) := do
  if ← files.isPresent directory then
    match ← files.names directory with
    | .ok names =>
      loadEach files loader .empty ((names.filter isFileName).map (Files.within directory))
    | .error report => return .error (.io report)
  else return .error (.configuration (.missingDirectory directory))

end SearchIndex.Schema
