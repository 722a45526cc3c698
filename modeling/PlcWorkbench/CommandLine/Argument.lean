/-!
# Arguments

What one argument of a command line is by its form, and the options that it may name. An option with
a value takes it from the rest of its argument, after an equals sign if its name is written out, or
from the next argument.
-/

namespace PlcWorkbench.CommandLine

/-- An argument by its form. -/
inductive Argument where
  /-- Two dashes: all that follows are words. -/
  | separator
  /-- An option by its name. -/
  | named (name : String) (value : Option String)
  /-- An option by its letter, with what follows the letter. -/
  | lettered (letter : Char) (rest : List Char)
  | word (text : String)
deriving DecidableEq, Repr

/-- Tell the form of an argument. A dash alone is a word. -/
def Argument.ofText (text : String) : Argument :=
  match text.toList with
  | ['-', '-'] => .separator
  | '-' :: '-' :: rest =>
    let name := rest.takeWhile (· != '=')
    match rest.drop name.length with
    | [] => .named (String.ofList name) none
    | _ :: value => .named (String.ofList name) (some (String.ofList value))
  | '-' :: letter :: rest => .lettered letter rest
  | _ => .word text

/-- The part of a command line: before a command's name, or after it. -/
inductive Scope where
  | program
  | merge
  | patterns
  | scanModes
deriving DecidableEq, Repr

/-- The name of the command that a scope belongs to. -/
def Scope.name? : Scope → Option String
  | .program => none
  | .merge => some "aoi"
  | .patterns => some "patterns"
  | .scanModes => some "scan-mode"

/-- The scope after a command's name. -/
def Scope.ofName? (name : String) : Option Scope :=
  [Scope.merge, .patterns, .scanModes].find? (·.name? == some name)

/-- An option. -/
inductive Flag where
  /-- The configuration file. -/
  | config
  /-- Report in JSON. -/
  | json
  /-- The package that patterns are applied into. -/
  | package
  | help
  | version
deriving DecidableEq, Repr

namespace Flag

/-- Every option. -/
def all : List Flag := [.config, .json, .package, .help, .version]

/-- The name of an option. -/
def name : Flag → String
  | .config => "config"
  | .json => "json"
  | .package => "package"
  | .help => "help"
  | .version => "version"

/-- The letter of an option. -/
def letter? : Flag → Option Char
  | .config => some 'c'
  | .json => none
  | .package => some 'p'
  | .help => some 'h'
  | .version => some 'V'

/-- Whether an option comes with a value. -/
def takesValue (flag : Flag) : Bool := flag = .config || flag = .package

/-- Whether an option may be given in a scope. -/
def isAllowed (scope : Scope) : Flag → Bool
  | .package => scope = .patterns
  | .version => scope = .program
  | _ => true

/-- The option of a scope with this name. -/
def ofName? (scope : Scope) (name : String) : Option Flag :=
  all.find? fun flag => flag.isAllowed scope && flag.name == name

/-- The option of a scope with this letter. -/
def ofLetter? (scope : Scope) (letter : Char) : Option Flag :=
  all.find? fun flag => flag.isAllowed scope && flag.letter? == some letter

end Flag

end PlcWorkbench.CommandLine
