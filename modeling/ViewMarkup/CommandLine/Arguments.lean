import ViewMarkup.Text.Basic

namespace ViewMarkup.CommandLine

/-- What a compile run may be told. -/
structure CompileChoice where
  outputDirectory? : Option Text := none
  root? : Option Text := none
  suffix? : Option Text := none
  sidecar? : Option Bool := none
  isStrict : Bool := false
  deriving DecidableEq, Repr

/-- What the program is asked to do. -/
inductive Command where
  | compile (path : Text) (choice : CompileChoice)
  | check (path : Text)
  | record (path : Text)
  | outline (path : Text)
  | components (root : Text) (asJson : Bool)
  deriving DecidableEq, Repr

/-- The paths that a command looks at. -/
def Command.paths : Command → List Text
  | compile path choice => path :: choice.root?.toList
  | check path | record path | outline path | components path _ => [path]

/-- The commands by name. -/
inductive Verb where
  | compile
  | check
  | record
  | outline
  | components
  deriving DecidableEq, Repr

/-- The command with a name. -/
def Verb.ofName? (t : Text) : Option Verb :=
  [("compile".toList, compile), ("check".toList, check), ("ast".toList, record),
   ("symbols".toList, outline), ("components".toList, components)].lookup t

/-- Whether an option takes a value. -/
inductive Arity where
  | flag
  | value
  deriving DecidableEq, Repr

/-- The options of a command. -/
def Verb.options : Verb → List (Text × Arity)
  | compile =>
    [("--out-dir".toList, .value), ("--root".toList, .value), ("--ext".toList, .value),
     ("--sidecar".toList, .flag), ("--no-sidecar".toList, .flag), ("--strict".toList, .flag)]
  | components => [("--json".toList, .flag)]
  | _ => []

/-- An argument: a plain one, or an option with its value if it has one. -/
inductive Argument where
  | plain (t : Text)
  | flag (name : Text)
  | option (name value : Text)
  deriving DecidableEq, Repr

/-- Whether an argument is written as an option. A single dash is not. -/
def isOption : Text → Bool
  | '-' :: _ :: _ => true
  | _ => false

/-- The arguments of a command. Two dashes end the options; an option that is unknown, lacks its value or
has one that it does not take makes the arguments meaningless. -/
def arguments? (options : List (Text × Arity)) : List Text → Option (List Argument)
  | [] => some []
  | arg :: args =>
    if arg = ['-', '-'] then some (args.map .plain)
    else if isOption arg then
      match Text.cut '=' arg with
      | (name, given?) =>
        match options.lookup name, given? with
        | some .flag, none => (arguments? options args).map (.flag name :: ·)
        | some .value, some value => (arguments? options args).map (.option name value :: ·)
        | some .value, none =>
          match args with
          | [] => none
          | value :: args => (arguments? options args).map (.option name value :: ·)
        | some .flag, some _ => none
        | none, _ => none
    else (arguments? options args).map (.plain arg :: ·)

/-- The plain arguments. -/
def plainArguments (arguments : List Argument) : List Text :=
  arguments.filterMap fun argument =>
    match argument with
    | .plain t => some t
    | _ => none

/-- What an argument chooses for a compile run; of two choices the later counts. -/
def CompileChoice.take (choice : CompileChoice) : Argument → CompileChoice
  | .plain _ => choice
  | .option name value =>
    if name = "--out-dir".toList then { choice with outputDirectory? := some value }
    else if name = "--root".toList then { choice with root? := some value }
    else { choice with suffix? := some value }
  | .flag name =>
    if name = "--sidecar".toList then { choice with sidecar? := some true }
    else if name = "--no-sidecar".toList then { choice with sidecar? := some false }
    else { choice with isStrict := true }

/-- The command that arguments spell. Components are listed for the current directory unless a root is
given; every other command has one path. -/
def Command.ofArguments? (verb : Verb) (args : List Text) : Option Command :=
  match arguments? verb.options args with
  | none => none
  | some arguments =>
    match verb, plainArguments arguments with
    | .compile, [path] => some (.compile path (arguments.foldl CompileChoice.take {}))
    | .check, [path] => some (.check path)
    | .record, [path] => some (.record path)
    | .outline, [path] => some (.outline path)
    | .components, [] => some (.components ['.'] (arguments ≠ []))
    | .components, [root] => some (.components root (arguments ≠ [.plain root]))
    | _, _ => none

/-- The arguments from the name of the command on, and whether the options before it ask for a verbose
log. -/
def globalOptions? (verbose : Bool) : List Text → Option (Bool × List Text)
  | [] => none
  | arg :: args =>
    if arg = ['-', '-'] then some (verbose, args)
    else if arg = "--verbose".toList then globalOptions? true args
    else if isOption arg then
      if (arg.drop 1).all (· == 'v') then globalOptions? true args else none
    else some (verbose, arg :: args)

/-- The command of a whole line of arguments. -/
def Command.ofLine? (args : List Text) : Option Command :=
  match globalOptions? false args with
  | none | some (_, []) => none
  | some (_, name :: args) => (Verb.ofName? name).bind fun verb => Command.ofArguments? verb args

end ViewMarkup.CommandLine
