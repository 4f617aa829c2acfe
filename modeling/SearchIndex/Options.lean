import SearchIndex.Json
import SearchIndex.Text.Blank

/-!
# Custom options

Settings that a definition carries beside its fields. They are addressed by keys
whose spelling does not matter in three ways: blanks at either end, one colon in
front, and the case of ASCII letters. Every access goes through the canonical
spelling of the key (`Options.canonicalKey`), under which the entry is stored.

Options that are read from a document (`Options.ofJson?`) keep their keys as they
stand there.
-/

namespace SearchIndex

/-- A table of settings whose keys are written in their canonical spelling. -/
structure Options where
  entries : Table Json

namespace Options

/-- The canonical spelling of a key: without blanks at either end, then without
one colon in front, and with ASCII letters in lower case. -/
def canonicalKey (key : String) : String :=
  let trimmed := Text.trimBlanks key.toList
  let bare := match trimmed with
    | ':' :: rest => rest
    | cs => cs
  String.ofList (bare.map Char.toLower)

/-- No settings. -/
def empty : Options := ⟨.empty⟩

instance : Inhabited Options := ⟨empty⟩

/-- The value of a setting. -/
def get? (o : Options) (key : String) : Option Json := o.entries.get? (canonicalKey key)

/-- Whether a setting is present. -/
def contains (o : Options) (key : String) : Bool := o.entries.contains (canonicalKey key)

/-- Sets a value; a setting that is already present keeps its place. -/
def insert (o : Options) (key : String) (value : Json) : Options :=
  ⟨o.entries.insert (canonicalKey key) value⟩

/-- Takes a setting out; the others keep their order. -/
def erase (o : Options) (key : String) : Options := ⟨o.entries.erase (canonicalKey key)⟩

/-- Sets a list of values one after the other. -/
def insertAll (o : Options) (settings : List (String × Json)) : Options :=
  settings.foldl (fun o e => o.insert e.1 e.2) o

/-- The options that a list of settings builds. -/
def ofList (settings : List (String × Json)) : Options := empty.insertAll settings

/-- The settings with their canonical keys, in order of arrival. -/
def toList (o : Options) : List (String × Json) := o.entries.entries

/-- The number of settings. -/
def size (o : Options) : Nat := o.entries.size

/-- Whether there is no setting. -/
def isEmpty (o : Options) : Bool := o.entries.isEmpty

/-- Equality of options: the same settings with equal values, in whatever order. -/
def same (o o' : Options) : Bool := Document.same o.entries o'.entries

/-- The document form: the settings under the key `entries`. -/
def toJson (o : Options) : Json := .ofMembers [("entries", .object o.entries)]

/-- Reads the document form. Keys are taken as they are written, and members other
than `entries` are ignored. -/
def ofJson? (value : Json) : Option Options :=
  (value.member? "entries").bind Json.members? |>.map Options.mk

@[simp] theorem get?_empty (key : String) : empty.get? key = none := rfl

/-- The value set is found under every spelling of its key. -/
theorem get?_insert (o : Options) (key other : String) (value : Json) :
    (o.insert key value).get? other =
      if canonicalKey other = canonicalKey key then some value else o.get? other :=
  Table.get?_insert o.entries _ _ value

end Options

end SearchIndex
