import TaskRelay.Settings.Dotenv
import TaskRelay.Settings.Lookup

/-!
# Settings from the environment

The variables of the environment, to which a .env file may add those that are not set. The file is
read line by line: each definition takes effect at once, so that later lines see it. The first
malformed line ends the reading.
-/

namespace TaskRelay

/-- Variables or definitions, by name. -/
abbrev Environment := List (List Char × List Char)

namespace Environment

/--
Whether an environment can hold a variable: an equals sign ends the name, which is not empty, and a
zero character ends the whole.
-/
def settable (name value : List Char) : Bool :=
  !name.isEmpty && !name.contains '=' && !name.contains '\x00' && !value.contains '\x00'

def ofPairs? (pairs : List (List Char × List Char)) : Option Environment :=
  if pairs.all fun p => settable p.1 p.2 then some pairs else none

/--
The value of a variable. The environment holds each as the text `NAME=value`, in which a name is
found if an equals sign follows it: in `A=B=c` the name `A` finds `B=c`, and `A=B` finds `c`.
-/
def get? (env : Environment) (name : List Char) : Option (List Char) :=
  env.findSome? fun p => (name ++ ['=']).isPrefixOf? (p.1 ++ '=' :: p.2)

/-- The value of the first definition of a name. -/
def defined? (known : Environment) (name : List Char) : Option (List Char) := known.lookup name

/-- What a name stands for: a variable, or else what an earlier line defined, or else nothing. -/
def meaning (env known : Environment) (name : List Char) : List Char :=
  match env.get? name with
  | some v => v
  | none => (known.defined? name).getD []

/--
Adds the definitions of a file, of which `known` are the ones already read; none if one of them
cannot be set.
-/
def addLines? (env known : Environment) : Nat → List (List Char) → Option Environment
  | 0, _ => some env
  | fuel + 1, lines =>
    match Dotenv.nextLine [] .complete lines with
    | .done | .unfinished => some env
    | .line text rest =>
      match Dotenv.parseLine (env.meaning known) text with
      | .malformed => some env
      | .nothing => addLines? env known fuel rest
      | .definition name value =>
        if (env.get? name).isSome then addLines? env ((name, value) :: known) fuel rest
        else if settable name value then
          addLines? ((name, value) :: env) ((name, value) :: known) fuel rest
        else none

/-- The mark that a file may begin with. -/
def byteOrderMark : Char := '\ufeff'

def withoutMark : List Char → List Char
  | [] => []
  | c :: cs => if c == byteOrderMark then cs else c :: cs

/-- Adds the definitions of a .env file. -/
def addFile? (env : Environment) (text : List Char) : Option Environment :=
  let lines := Dotenv.fileLines (withoutMark text)
  addLines? env [] (lines.length + 1) lines

end Environment

namespace Settings

/-- The settings of an environment, as it stands. -/
def ofVariables (p : Processors) (env : Environment) : Except LoadError Settings :=
  ofLookup p fun name => (env.get? name.toList).map String.ofList

/-- The settings of an environment and of a .env file; none if the file cannot be added. -/
def ofEnvironment? (p : Processors) (env : Environment) (file : Option (List Char)) :
    Option (Except LoadError Settings) :=
  match file with
  | none => some (ofVariables p env)
  | some text => (env.addFile? text).map (ofVariables p)

end Settings

end TaskRelay
