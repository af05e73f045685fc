/-!
# Arguments of the command line

* `Command.ofArguments` is the command that the arguments ask for.

**Options.**  An option is written `--name value` or `--name=value`.  Its value is settled when the
next option or the end comes, so an option that is not known is reported before a missing value, and
a missing value before an option that is given twice.  Behind `--` there are no options.
-/

namespace EntityQuery

/-- A command, with the paths of the files that it reads. -/
inductive Command where
  /-- Says what is wrong with a model. -/
  | validate (model : String) (options : Option String)
  /-- Explains what is made of a query. -/
  | translate (model : String) (options : Option String)
  /-- Runs a query over documents. -/
  | run (model data : String) (options : Option String)
deriving DecidableEq, Repr

/-- Why arguments ask for no command. -/
inductive UsageError where
  | missingOption
  | unknownArgument
  | unknownCommand
  | missingValue
  | repeatedOption
  /-- An option without a value is given one. -/
  | unexpectedValue
  | help
  | version
  /-- There are no arguments. -/
  | noCommand
deriving DecidableEq, Repr

/-- The name of an error. -/
def UsageError.name : UsageError → String
  | .missingOption => "MissingRequiredArgument"
  | .unknownArgument => "UnknownArgument"
  | .unknownCommand => "InvalidSubcommand"
  | .missingValue => "InvalidValue"
  | .repeatedOption => "ArgumentConflict"
  | .unexpectedValue => "TooManyValues"
  | .help => "DisplayHelp"
  | .version => "DisplayVersion"
  | .noCommand => "DisplayHelpOnMissingArgumentOrSubcommand"

/-- An argument by its form. -/
inductive Argument where
  /-- Two hyphens, behind which there are no options. -/
  | stop
  | long (name : String) (value : Option String)
  | short (name : Char)
  | plain (text : String)
deriving DecidableEq, Repr

/-- The form of an argument. -/
def Argument.ofText (text : String) : Argument :=
  match text.toList with
  | ['-', '-'] => .stop
  | '-' :: '-' :: rest =>
    .long (.ofList (rest.takeWhile (· != '=')))
      (match rest.dropWhile (· != '=') with
        | _ :: value => some (.ofList value)
        | [] => none)
  | '-' :: name :: _ => .short name
  | _ => .plain text

/-- The names of the commands. -/
inductive CommandName where
  | validate
  | translate
  | run
deriving DecidableEq, Repr

namespace CommandName

/-- The text of a name. -/
def text : CommandName → String
  | .validate => "validate"
  | .translate => "translate"
  | .run => "run"

/-- The command of a name. -/
def ofText? (text : String) : Option CommandName :=
  [validate, translate, run].find? fun c => c.text == text

/-- The names of the options of a command. -/
def options : CommandName → List String
  | .run => ["model", "data", "options"]
  | _ => ["model", "options"]

/-- The names of the options without which there is no command. -/
def required : CommandName → List String
  | .run => ["model", "data"]
  | _ => ["model"]

end CommandName

/-- The options so far. -/
structure Given where
  /-- The options with their values. -/
  settled : List (String × String) := []
  /-- The option that has come last, and its value if that has come. -/
  pending : Option (String × Option String) := none
  /-- Whether two hyphens have come. -/
  stopped : Bool := false
deriving DecidableEq, Repr

namespace Given

/-- The value of an option. -/
def value? (g : Given) (name : String) : Option String :=
  (g.settled.find? fun e => e.1 == name).map Prod.snd

/-- Settles an option. -/
def add (g : Given) (name value : String) : Except UsageError Given :=
  if (g.value? name).isSome then .error .repeatedOption
  else if value.isEmpty then .error .missingValue
  else .ok { g with settled := g.settled ++ [(name, value)] }

/-- Settles the last option. -/
def settle (g : Given) : Except UsageError Given :=
  match g.pending with
  | none => .ok g
  | some (_, none) => .error .missingValue
  | some (name, some value) => Given.add { g with pending := none } name value

/-- Takes the next argument of a command as an option or a value. -/
def takeOption (c : CommandName) (g : Given) : Argument → Except UsageError Given
  | .stop => .ok { g with stopped := true }
  | .long name value =>
    if c.options.contains name then do
      let g ← g.settle
      match value with
      | some value => g.add name value
      | none => .ok { g with pending := some (name, none) }
    else if name == "help" then
      if value.isSome then .error .unexpectedValue
      else do
        let _ ← g.settle
        .error .help
    else .error .unknownArgument
  | .short name =>
    if name == 'h' then do
      let _ ← g.settle
      .error .help
    else .error .unknownArgument
  | .plain text =>
    match g.pending with
    | some (name, none) => .ok { g with pending := some (name, some text) }
    | _ => .error .unknownArgument

/-- Takes the next argument of a command. -/
def step (c : CommandName) (g : Given) (text : String) : Except UsageError Given :=
  if g.stopped then .error .unknownArgument else g.takeOption c (.ofText text)

/-- Takes the arguments of a command. -/
def read (c : CommandName) (texts : List String) : Except UsageError Given := do
  let g ← texts.foldlM (step c) {}
  g.settle

end Given

namespace Command

/-- The command of a name with the given options. -/
def ofGiven (c : CommandName) (g : Given) : Except UsageError Command :=
  match c, g.value? "model", g.value? "data" with
  | .validate, some model, _ => .ok (.validate model (g.value? "options"))
  | .translate, some model, _ => .ok (.translate model (g.value? "options"))
  | .run, some model, some data => .ok (.run model data (g.value? "options"))
  | _, _, _ => .error .missingOption

/-- Whether a text names a command, or the one that shows help. -/
def isName (text : String) : Bool := text == "help" || (CommandName.ofText? text).isSome

/-- Why the request for help on a command shows something. -/
def helpOn : List String → UsageError
  | [] => .help
  | [name] => if isName name then .help else .unknownCommand
  | _ => .unknownCommand

/-- Why arguments behind two hyphens ask for no command. -/
def behindStop : List String → UsageError
  | [] => .noCommand
  | text :: _ => if isName text then .unknownArgument else .unknownCommand

/-- The command that arguments ask for. -/
def ofArguments : List String → Except UsageError Command
  | [] => .error .noCommand
  | text :: texts =>
    match CommandName.ofText? text with
    | some c => do
      let g ← Given.read c texts
      ofGiven c g
    | none =>
      if text == "help" then .error (helpOn texts)
      else
        match Argument.ofText text with
        | .stop => .error (behindStop texts)
        | .long "help" none => .error .help
        | .long "version" none => .error .version
        | .long "help" (some _) => .error .unexpectedValue
        | .long "version" (some _) => .error .unexpectedValue
        | .short 'h' => .error .help
        | .short 'V' => .error .version
        | .plain _ => .error .unknownCommand
        | _ => .error .unknownArgument

end Command
end EntityQuery
