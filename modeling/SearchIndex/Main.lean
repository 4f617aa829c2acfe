import SearchIndex.CommandLine

/-!
# The program

Runs the command line on the files of the system.
-/

namespace SearchIndex

/-- Access to the files of the system. -/
def systemFiles : Files IO where
  isPresent path :=
    let entry : IO.FS.DirEntry := { root := path, fileName := "" }
    entry.root.pathExists
  bytes path := do
    try
      return .ok (← IO.FS.readBinFile path)
    catch e =>
      return .error (toString e)
  names path := do
    let entry : IO.FS.DirEntry := { root := path, fileName := "" }
    try
      return .ok ((← entry.root.readDir).toList.map (fun e => e.fileName))
    catch e =>
      return .error (toString e)

/-- What is said of texts that cannot be read. -/
def plainReports : CommandLine.Reports where
  schema _ := "not a schema"
  settings _ := "not a table of settings"

end SearchIndex

open SearchIndex in
/-- Writes the text of a run, or the text of its failure and exits with its code. -/
def main (args : List String) : IO UInt32 := do
  match ← CommandLine.run systemFiles plainReports (← IO.getEnv "ELASTIC_CONFIG") args with
  | .ok text =>
    IO.print text
    return 0
  | .error failure =>
    IO.eprintln failure.message
    return UInt32.ofNat failure.exitCode
