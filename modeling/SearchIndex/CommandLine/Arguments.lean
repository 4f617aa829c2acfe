import SearchIndex.Table

/-!
# Arguments of a command

An argument is an option with a long or a short name, possibly with a value attached to
it, a plain word, or two dashes, behind which nothing is an option any more.
`Arguments.read?` takes the options from the front of a list of arguments, up to the first
plain word. An option may be given once, and a value must not be empty.
-/

namespace SearchIndex.CommandLine

/-- An option that a command knows. -/
structure Flag where
  long : String
  short : Option Char
  takesValue : Bool

/-- What an argument is by its looks. -/
inductive Argument where
  | endOfOptions
  | long (name : String) (value : Option String)
  | short (letter : Char) (value : Option String)
  | word (text : String)
deriving DecidableEq

/-- What an argument is. A value is attached to a long name by an equals sign, and to a
short one with or without it. A single dash is a word. -/
def Argument.ofText (text : String) : Argument :=
  match text.toList with
  | ['-', '-'] => .endOfOptions
  | '-' :: '-' :: rest =>
    .long (String.ofList (rest.takeWhile (fun c => c != '=')))
      (match rest.dropWhile (fun c => c != '=') with
        | _ :: value => some (String.ofList value)
        | [] => none)
  | '-' :: letter :: rest =>
    .short letter
      (match rest with
        | '=' :: value => some (String.ofList value)
        | [] => none
        | value => some (String.ofList value))
  | _ => .word text

/-- The options given, by their long names, with their values. -/
abbrev Settings := Table (Option String)

namespace Arguments

/-- Takes up an option with its value; it must not have been given before. -/
def record? (taken : Settings) (flag : Flag) (value : Option String) : Option Settings :=
  if taken.contains flag.long || value == some "" then none
  else some (taken.insert flag.long value)

/-- The option that an argument gives, if it is known, and the value attached to it. -/
def flag? (known : List Flag) : Argument → Option (Flag × Option String)
  | .long name value => (known.find? (fun f => f.long == name)).map (fun f => (f, value))
  | .short letter value =>
    (known.find? (fun f => f.short == some letter)).map (fun f => (f, value))
  | _ => none

/-- The options at the front of a list of arguments, added to those taken, and the
arguments from the first word on. -/
def readFrom? (known : List Flag) (taken : Settings) :
    List String → Option (Settings × List String)
  | [] => some (taken, [])
  | arg :: rest =>
    match Argument.ofText arg with
    | .word _ => some (taken, arg :: rest)
    | .endOfOptions => if rest.isEmpty then some (taken, []) else none
    | a =>
      match flag? known a with
      | none => none
      | some (flag, some value) =>
        if flag.takesValue then
          (record? taken flag (some value)).bind (fun taken => readFrom? known taken rest)
        else none
      | some (flag, none) =>
        if flag.takesValue then
          match rest with
          | value :: rest =>
            if Argument.ofText value = .word value then
              (record? taken flag (some value)).bind (fun taken => readFrom? known taken rest)
            else none
          | [] => none
        else (record? taken flag none).bind (fun taken => readFrom? known taken rest)

/-- The options at the front of a list of arguments, and the arguments from the first word
on. Behind two dashes there must be nothing. -/
def read? (known : List Flag) (args : List String) : Option (Settings × List String) :=
  readFrom? known .empty args

/-- The options in a list of arguments that holds nothing else. -/
def options? (known : List Flag) (args : List String) : Option Settings :=
  (read? known args).bind (fun (settings, rest) => if rest.isEmpty then some settings else none)

end Arguments

end SearchIndex.CommandLine
