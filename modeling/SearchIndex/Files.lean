import SearchIndex.Text.Split

/-!
# Files and directories

Schemas and settings are read through `Files`, which answers what the rest of the library
asks about a path: whether there is anything, which bytes a file holds, and which names a
directory lists. Where nothing can be read, the answer is what the system reports. The order
of the names in a directory is up to the directory. `FileTree.files` answers from a tree that
is held in memory.
-/

namespace SearchIndex

/-- Access to files and directories by their paths. -/
structure Files (m : Type → Type) where
  /-- Whether there is a file or a directory. -/
  isPresent : String → m Bool
  /-- The bytes of a file, or the report that it cannot be read. -/
  bytes : String → m (Except String ByteArray)
  /-- The names in a directory, or the report that it cannot be read. -/
  names : String → m (Except String (List String))

namespace Files

variable {m : Type → Type} [Monad m]

/-- The text that some bytes hold, or the report that they are no UTF-8. -/
def decode (bytes : ByteArray) : Except String String :=
  match String.fromUTF8? bytes with
  | some text => .ok text
  | none => .error "stream did not contain valid UTF-8"

/-- The text of a file. -/
def text (files : Files m) (path : String) : m (Except String String) := do
  return (← files.bytes path).bind decode

/-- The path of a name in a directory. -/
def within (directory name : String) : String := directory ++ "/" ++ name

/-- The extension of a file's name: what stands behind its last dot. A name with no dot,
or with none but in front, has no extension. -/
def extension? (name : String) : Option String :=
  let reversed := name.toList.reverse
  match reversed.dropWhile (fun c => c != '.') with
  | _ :: _ :: _ => some (String.ofList (reversed.takeWhile (fun c => c != '.')).reverse)
  | _ => none

end Files

/-- Files and directories in memory, each under the names that lead to it from the root. A
directory has no bytes, and the root need not be listed. Of several entries under the same
names the first one counts. -/
structure FileTree where
  entries : List (List String × Option ByteArray)

/-- A place that a path leads to: one below the root of a tree, by the names on the way to
it, or one of the directories around the root, in which nothing else is known. -/
inductive Place where
  | below (names : List String)
  | around

namespace FileTree

/-- The names on a path. A slash at its start, at its end or behind another one has an empty
name beside it. -/
def names (path : String) : List String := (Text.split '/' path.toList).map String.ofList

/-- The places that some names lead through one after the other, from a place on. -/
def placesFrom (place : List String) : List String → List (List String)
  | [] => []
  | name :: rest =>
    let next :=
      if name == "" || name == "." then place
      else if name == ".." then place.dropLast
      else place ++ [name]
    next :: placesFrom next rest

/-- Puts a file, or a directory, under a path. What was there is replaced, and the
directories that the path leads through are made. -/
def put (t : FileTree) (path : String) (bytes : Option ByteArray) : FileTree :=
  match (placesFrom [] (names path)).reverse with
  | [] => t
  | place :: through => ⟨(place, bytes) :: through.map (fun p => (p, none)) ++ t.entries⟩

/-- The tree with the given files, and the given directories, put under their paths one
after the other. -/
def ofPaths (paths : List (String × Option ByteArray)) : FileTree :=
  paths.foldl (fun t (path, bytes) => t.put path bytes) ⟨[]⟩

/-- The bytes of the file at a place. -/
def bytesAt? (t : FileTree) : Place → Option ByteArray
  | .below names => (t.entries.lookup names).join
  | .around => none

/-- Whether a directory is at a place. -/
def isDirectory (t : FileTree) : Place → Bool
  | .below names => names.isEmpty || (t.entries.lookup names).any Option.isNone
  | .around => true

/-- The names in the directory at a place. -/
def namesAt (t : FileTree) : Place → List String
  | .below names =>
    (t.entries.filterMap (fun e =>
      if names.isPrefixOf e.1 then e.1[names.length]? else none)).eraseDups
  | .around => []

/-- The report of a path that leads nowhere. -/
def missing : String := "No such file or directory (os error 2)"

/-- The report of a file where a directory is needed. -/
def notADirectory : String := "Not a directory (os error 20)"

/-- The report of a directory where a file is needed. -/
def isADirectory : String := "Is a directory (os error 21)"

/-- The place that a name leads to. Only a directory can be gone on from: a dot, or no name
at all, stays there, and two dots lead to the directory around it. -/
def step (t : FileTree) (place : Place) (name : String) : Except String Place :=
  if !t.isDirectory place then .error notADirectory
  else if name == "" || name == "." then .ok place
  else match place with
    | .around => if name == ".." then .ok .around else .error missing
    | .below names =>
      if name == ".." then .ok (if names.isEmpty then .around else .below names.dropLast)
      else
        let next := Place.below (names ++ [name])
        if (t.bytesAt? next).isSome || t.isDirectory next then .ok next else .error missing

/-- The place that a path leads to, name by name: from the root of the tree, or from the
outermost directory around it if the path starts with a slash. -/
def place (t : FileTree) (path : String) : Except String Place :=
  if path.isEmpty then .error missing
  else (names path).foldlM t.step (if path.startsWith "/" then .around else .below [])

/-- Access to a tree. -/
def files (t : FileTree) : Files Id where
  isPresent path := (t.place path).isOk
  bytes path := (t.place path).bind (fun place =>
    match t.bytesAt? place with
    | some bytes => .ok bytes
    | none => .error isADirectory)
  names path := (t.place path).bind (fun place =>
    if t.isDirectory place then .ok (t.namesAt place) else .error notADirectory)

end FileTree

end SearchIndex
