import PlcWorkbench.CommandLine.Argument
import PlcWorkbench.Path

/-!
# Requests

What a command line asks for. Options stand before or after the command's name, in any order with
its words; one that both parts may have counts as given after the name if it is given twice. In one
part each option is given once at most. A command line that asks for no command gets a notice
instead.
-/

namespace PlcWorkbench.CommandLine

/-- A command with its words. -/
inductive Command where
  /-- Merge the definitions of a directory. -/
  | merge (directory : Path)
  /-- Apply the patterns of a directory into a package. -/
  | patterns (directory : Path) (package : String)
  /-- Tell the scan modes of names. -/
  | scanModes (names : List String)
deriving DecidableEq, Repr

/-- What a command line asks for. -/
structure Request where
  command : Command
  /-- The configuration file. -/
  configFile : Option Path := none
  /-- Whether to report in JSON. -/
  json : Bool := false
deriving DecidableEq, Repr

/-- What a command line that asks for no command is answered with. -/
inductive Notice where
  | help
  | version
  /-- The arguments make no sense. -/
  | misuse
deriving DecidableEq, Repr

/-- What was given in one part of a command line. -/
structure Given where
  configFile : Option String := none
  json : Bool := false
  package : Option String := none
  words : List String := []

namespace Given

/-- Add an option that has no value. -/
def addFlag (g : Given) : Flag → Except Notice Given
  | .json => if g.json then .error .misuse else .ok { g with json := true }
  | .help => .error .help
  | .version => .error .version
  | _ => .error .misuse

/-- Add an option with its value. The name of a file is not empty. -/
def addValue (g : Given) (flag : Flag) (value : String) : Except Notice Given :=
  match flag with
  | .config =>
    if g.configFile.isSome ∨ value.isEmpty then .error .misuse
    else .ok { g with configFile := some value }
  | .package => if g.package.isSome then .error .misuse else .ok { g with package := some value }
  | _ => .error .misuse

/-- Add a word. Two commands take the name of a directory, which is not empty, and one takes any
number of words. -/
def addWord (g : Given) (scope : Scope) (word : String) : Except Notice Given :=
  let longer := { g with words := g.words ++ [word] }
  match scope with
  | .program => .error .misuse
  | .scanModes => .ok longer
  | _ => if g.words.isEmpty ∧ ¬word.isEmpty then .ok longer else .error .misuse

/-- Add an option without a value in its argument; `next` is what follows it. Gives what remains to
be read. -/
def addOption (g : Given) (flag : Flag) (next : List String) : Except Notice (Given × Bool) :=
  if flag.takesValue then
    match next.map Argument.ofText with
    | .word value :: _ => (g.addValue flag value).map (·, true)
    | _ => .error .misuse
  else (g.addFlag flag).map (·, false)

/-- Add an argument that is not a command's name; `next` is what follows it. Tells whether the next
argument was used up as well. -/
def add (g : Given) (scope : Scope) (argument : Argument) (next : List String) :
    Except Notice (Given × Bool) :=
  match argument with
  | .separator => .error .misuse
  | .word text => (g.addWord scope text).map (·, false)
  | .named name value =>
    match Flag.ofName? scope name, value with
    | none, _ => .error .misuse
    | some flag, some value => (g.addValue flag value).map (·, false)
    | some flag, none => g.addOption flag next
  | .lettered letter rest =>
    match Flag.ofLetter? scope letter with
    | none => .error .misuse
    | some flag =>
      if flag.takesValue ∧ ¬rest.isEmpty then
        let value := if rest.head? = some '=' then rest.drop 1 else rest
        (g.addValue flag (String.ofList value)).map (·, false)
      else g.addOption flag next

/-- Add arguments that are words whatever their form. -/
def addWords (g : Given) (scope : Scope) (words : List String) : Except Notice Given :=
  words.foldlM (fun g word => g.addWord scope word) g

end Given

/-- Whether an argument ends the part before a command's name. -/
def endsProgram (scope : Scope) (argument : String) : Bool :=
  scope = .program && (argument == "help" || (Scope.ofName? argument).isSome)

/-- Read one part of a command line. Gives what was given in it, and the arguments from a command's
name on. -/
def readPart (scope : Scope) : Given → List String → Except Notice (Given × List String)
  | g, [] => .ok (g, [])
  | g, argument :: rest =>
    if endsProgram scope argument then .ok (g, argument :: rest)
    else if Argument.ofText argument = .separator then (g.addWords scope rest).map (·, [])
    else
      match g.add scope (Argument.ofText argument) rest with
      | .error notice => .error notice
      | .ok (g, false) => readPart scope g rest
      | .ok (g, true) =>
        match rest with
        | _ :: rest => readPart scope g rest
        | [] => .error .misuse

/-- The command that a part after a command's name makes. The directory is the current one unless it
is given. -/
def Given.command (g : Given) : Scope → Except Notice Command
  | .program => .error .misuse
  | .merge => .ok (.merge ⟨g.words.headD "."⟩)
  | .patterns => .ok (.patterns ⟨g.words.headD "."⟩ (g.package.getD "Model"))
  | .scanModes => if g.words.isEmpty then .error .misuse else .ok (.scanModes g.words)

/-- The answer to asking for help about these words: there is help about the program and about each
command. -/
def helpAbout : List String → Notice
  | [] => .help
  | [name] => if endsProgram .program name then .help else .misuse
  | _ => .misuse

/-- Read a command line. -/
def Request.ofArguments (arguments : List String) : Except Notice Request := do
  let (outer, rest) ← readPart .program {} arguments
  match rest with
  | [] => .error .misuse
  | name :: rest =>
    match Scope.ofName? name with
    | none => .error (helpAbout rest)
    | some scope =>
      let (inner, _) ← readPart scope {} rest
      let command ← inner.command scope
      return {
        command
        configFile := (inner.configFile.or outer.configFile).map Path.mk
        json := inner.json || outer.json }

end PlcWorkbench.CommandLine
