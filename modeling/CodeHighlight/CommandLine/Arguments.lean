import CodeHighlight.CommandLine.Options

/-!
# Arguments

The words of a command line as options and operands. A word that starts with a dash gives an option
by its long name, with a value behind an equals sign, or several by their letters, the last of which
can have the rest of the word as its value. An option whose value is still missing takes the next
word, whatever it is. Two dashes alone end the options.

`Command.ofWords` reads a whole command line. Before the name of the command only the options of the
program count, behind it only those of the command.
-/

namespace CodeHighlight.CommandLine

/-- An option: its long name, its letter if it has one, and whether it takes a value. -/
structure OptionSpec where
  name : String
  letter : Option Char := none
  takesValue : Bool := true

/-- The options that are given, with their values, and the operands, in order. -/
structure Arguments where
  given : List (String × String) := []
  operands : List String := []

/-- What a word is: an operand, some options, or some options and one that takes the next word. -/
inductive Word where
  | operand
  | options (given : List (String × String))
  | awaiting (given : List (String × String)) (name : String)

namespace Word

/-- A word that names an option by its long name. -/
def ofLong? (specs : List OptionSpec) (body : List Char) : Option Word :=
  let name := String.ofList (body.takeWhile (· != '='))
  (specs.find? fun o => o.name == name).bind fun o =>
    match body.dropWhile (· != '='), o.takesValue with
    | _ :: value, true => some (.options [(name, String.ofList value)])
    | _ :: _, false => none
    | [], true => some (.awaiting [] name)
    | [], false => some (.options [(name, "")])

/-- Options in front of those of a word. -/
def cons (g : String × String) : Word → Word
  | .operand => .options [g]
  | .options given => .options (g :: given)
  | .awaiting given name => .awaiting (g :: given) name

/-- A word that names options by their letters. -/
def ofLetters? (specs : List OptionSpec) : List Char → Option Word
  | [] => some (.options [])
  | c :: rest =>
    (specs.find? fun o => o.letter == some c).bind fun o =>
      if o.takesValue then
        some (if rest.isEmpty then .awaiting [] o.name
          else .options [(o.name, String.ofList rest)])
      else (ofLetters? specs rest).map (cons (o.name, ""))

/-- A word by the options there are. -/
def ofString? (specs : List OptionSpec) (word : String) : Option Word :=
  match word.toList with
  | '-' :: '-' :: body => ofLong? specs body
  | '-' :: c :: rest => ofLetters? specs (c :: rest)
  | _ => some .operand

end Word

namespace Arguments

/-- Options in front of arguments. -/
def addGiven (given : List (String × String)) (a : Arguments) : Arguments :=
  { a with given := given ++ a.given }

/-- An operand in front of arguments. -/
def addOperand (word : String) (a : Arguments) : Arguments :=
  { a with operands := word :: a.operands }

/-- Read words. With `mixed`, options may follow operands; otherwise the first operand and all words
behind it are operands. -/
def ofWords? (specs : List OptionSpec) (mixed : Bool) : List String → Option Arguments
  | [] => some {}
  | word :: rest =>
    if word = "--" then some { operands := rest }
    else
      match Word.ofString? specs word with
      | none => none
      | some .operand =>
        if mixed then (ofWords? specs mixed rest).map (addOperand word)
        else some { operands := word :: rest }
      | some (.options given) => (ofWords? specs mixed rest).map (addGiven given)
      | some (.awaiting given name) =>
        match rest with
        | [] => none
        | value :: rest =>
          (ofWords? specs mixed rest).map (addGiven (given ++ [(name, value)]))

/-- The values of an option. -/
def values (a : Arguments) (name : String) : List String :=
  a.given.filterMap fun g => if g.1 == name then some g.2 else none

/-- The value of an option; the last one counts. -/
def value? (a : Arguments) (name : String) : Option String := (a.values name).getLast?

/-- How often an option is given. -/
def count (a : Arguments) (name : String) : Nat := (a.values name).length

/-- An option is given. -/
def has (a : Arguments) (name : String) : Bool := a.count name != 0

end Arguments

/-- What commands have in common: where the options of a run come from, and what is said. -/
structure Settings where
  config : Option String := none
  overrides : Overrides := {}
  verbosity : Nat := 0
  debug : Bool := false

/-- A command line. -/
inductive Command where
  | refused
  | help
  | version
  | render (input : String) (output : Option String) (reader : String) (settings : Settings)
  | languages (settings : Settings)

namespace Command

/-- The options of the program. -/
def ownSpecs : List OptionSpec :=
  [⟨"version", none, false⟩, ⟨"help", none, false⟩]

/-- The options of the table of languages. -/
def languagesSpecs : List OptionSpec :=
  [⟨"package", some 'p', true⟩, ⟨"config", none, true⟩, ⟨"precedence", none, true⟩,
    ⟨"verbose", some 'v', false⟩, ⟨"debug", none, false⟩, ⟨"help", none, false⟩]

/-- The options of the command that highlights a document. -/
def renderSpecs : List OptionSpec :=
  languagesSpecs ++
    [⟨"output", some 'o', true⟩, ⟨"whitelist", some 'w', true⟩, ⟨"class-style", none, true⟩,
      ⟨"parser", none, true⟩]

/-- The settings among arguments. -/
def settingsOf (a : Arguments) : Settings where
  config := a.value? "config"
  overrides :=
    { packages := a.values "package"
      whitelist := a.values "whitelist"
      precedence := a.value? "precedence"
      classStyle := a.value? "class-style" }
  verbosity := a.count "verbose"
  debug := a.has "debug"

/-- The command that highlights a document. -/
def ofRender (words : List String) : Command :=
  match Arguments.ofWords? renderSpecs true words with
  | none => .refused
  | some a =>
    if a.has "help" then .help
    else
      match a.operands with
      | [input] =>
        .render input (a.value? "output") ((a.value? "parser").getD "html.parser") (settingsOf a)
      | _ => .refused

/-- The command that shows the table of languages. -/
def ofLanguages (words : List String) : Command :=
  match Arguments.ofWords? languagesSpecs true words with
  | none => .refused
  | some a =>
    if a.has "help" then .help
    else if a.operands.isEmpty then .languages (settingsOf a)
    else .refused

/-- A command by its name. -/
def ofOperands : List String → Command
  | "render" :: words => ofRender words
  | "languages" :: words => ofLanguages words
  | _ => .refused

/-- Read a command line. -/
def ofWords (words : List String) : Command :=
  match Arguments.ofWords? ownSpecs false words with
  | none => .refused
  | some a =>
    match a.given with
    | [] => ofOperands a.operands
    | (name, _) :: _ => if name = "help" then .help else .version

end Command

end CodeHighlight.CommandLine
