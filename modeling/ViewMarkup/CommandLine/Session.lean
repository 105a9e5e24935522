import ViewMarkup.CommandLine.Arguments
import ViewMarkup.Document.Record
import ViewMarkup.Outline
import ViewMarkup.Settings.Reader
import ViewMarkup.Workspace.Compile

namespace ViewMarkup.CommandLine

/-- What a run finds: the files, the environment, and the log as earlier runs left it. -/
structure Session where
  tree : Tree
  environment : Fields Text
  log : LogConfig

/-- An error that no command expects. -/
inductive Crash where
  | file (error : FileError)
  | configuration (error : ConfigurationError)
  | run (error : RunError)

/-- The message of an error. -/
def Crash.message : Crash → Text
  | file error => error.message
  | configuration error => error.message
  | run error => error.message

/-- How a run ends. -/
inductive Ending where
  /-- The arguments mean nothing. -/
  | usage
  /-- The run has an exit code and wrote to its two outputs. -/
  | finished (exit : Nat) (out err : Text)
  /-- An error that no command expects. -/
  | crashed (crash : Crash)

/-- A line of output. -/
def line (t : Text) : Text := t ++ "\n"

/-- The message of a command that gives up. -/
def complaint (message : Text) : Text := line ("Error: " ++ message)

/-- A diagnostic with its source on a line. -/
def diagnosticText (source : Path) (diagnostic : Diagnostic) : Text :=
  source.toText ++ ":" ++ Text.ofInt diagnostic.line ++ ":" ++
    Text.ofInt (diagnostic.range.start.character + 1) ++ ": " ++ diagnostic.severity.name ++ "[" ++
    diagnostic.code.name ++ "] " ++ diagnostic.message

/-- Whether a diagnostic is an error. -/
def isError (diagnostic : Diagnostic) : Bool :=
  diagnostic.severity == .error

mutual

/-- The lines of a symbol and of those below it. -/
def symbolLines (depth : Nat) : Symbol → Text
  | .mk name kind range _ children =>
    line (Text.times "  " depth ++ name ++ " (" ++ kind.name ++ ", line " ++
      Text.ofInt (range.start.line + 1) ++ ")") ++ forestLines (depth + 1) children

/-- The lines of symbols. -/
def forestLines (depth : Nat) : List Symbol → Text
  | [] => []
  | symbol :: symbols => symbolLines depth symbol ++ forestLines depth symbols

end

/-- The file with the configuration. -/
def configurationPath : Path := ⟨.here, ["config.yaml".toList]⟩

/-- Settings, or the ending of a run that gets none. -/
def Session.settings (session : Session) (overrides : Fields Yaml) : Except Ending Settings :=
  let giveUp (message : Text) : Except Ending Settings := .error (.finished 1 [] (complaint message))
  let load (config? : Option Text) : Except Ending Settings :=
    match Settings.load config? session.environment overrides with
    | .ok settings => .ok settings
    | .error error =>
      if error.isCrash then .error (.crashed (.configuration error)) else giveUp error.report
  if session.tree.contains configurationPath then
    match session.tree.readText configurationPath with
    | .ok t => load (some t)
    | .error (.file error) => .error (.crashed (.file error))
    | .error (.utf8 error) => giveUp error.message
  else load none

/-- The settings that a compile run overrides. -/
def CompileChoice.overrides (choice : CompileChoice) : Fields Yaml :=
  ((choice.outputDirectory?.map fun t => (SettingName.outputDirectory.name, Yaml.string t)).toList) ++
    ((choice.suffix?.map fun t => (SettingName.dialect.name, Yaml.string t)).toList) ++
    ((choice.sidecar?.map fun b => (SettingName.writesSidecar.name, Yaml.bool b)).toList)

/-- The lines about one outcome. -/
def outcomeLines (outcome : Outcome) : Text :=
  let status : Text :=
    if outcome.compilation.isFallback then "failed"
    else Text.ofNat outcome.diagnostics.length ++ " diagnostic(s)"
  line ("  " ++ outcome.source.toText ++ " -> " ++ outcome.output.toText ++ " (" ++ status ++ ")") ++
    outcome.diagnostics.flatMap fun diagnostic =>
      line ("    " ++ diagnosticText outcome.source diagnostic)

/-- Whether something went wrong with a source. -/
def hasError (outcome : Outcome) : Bool :=
  outcome.compilation.isFallback || outcome.diagnostics.any isError

/-- Compiles the sources at a path. -/
def compile (session : Session) (path : Text) (choice : CompileChoice) : Session × Ending :=
  match session.settings choice.overrides with
  | .error ending => (session, ending)
  | .ok settings =>
    let log := session.log.configure settings.logLevel.name false
    let session := { session with log }
    let source := Path.ofText path
    if !session.tree.contains source then
      (session, .finished 1 [] (complaint ("Path not found: " ++ source.toText)))
    else
      let outputDirectory := Path.ofText settings.outputDirectory
      let root? := (choice.root?.filter (· ≠ [])).map Path.ofText
      let run := session.tree.compile source settings outputDirectory root?
      let session := { session with tree := run.tree }
      let err := log.lines run.log
      match run.error?, run.outcomes with
      | some (.unreadable source error), _ =>
        (session, .finished 1 [] (err ++ complaint (RunError.unreadable source error).message))
      | some error, _ => (session, .crashed (.run error))
      | none, [] => (session, .finished 1 (line "No Lunor sources found.") err)
      | none, outcomes =>
        let out := outcomes.flatMap outcomeLines ++
          line ("Compiled " ++ Text.ofNat outcomes.length ++ " component(s) to " ++
            outputDirectory.toText ++ "/")
        (session, .finished (if choice.isStrict && outcomes.any hasError then 1 else 0) out err)

/-- Reports the diagnostics of the sources at a path. -/
def check (session : Session) (path : Text) : Session × Ending :=
  match session.settings [] with
  | .error ending => (session, ending)
  | .ok settings =>
    let log := session.log.configure settings.logLevel.name false
    let session := { session with log }
    match session.tree.check (Path.ofText path) settings.sourceSuffixes with
    | (records, .error error) =>
      (session, .finished 1 [] (log.lines records ++ complaint error.message))
    | (records, .ok results) =>
      let diagnostics := results.flatMap Prod.snd
      let out := (results.flatMap fun (source, diagnostics) =>
          diagnostics.flatMap fun diagnostic => line (diagnosticText source diagnostic)) ++
        line ("Checked " ++ Text.ofNat results.length ++ " file(s): " ++
          Text.ofNat diagnostics.length ++ " diagnostic(s)")
      (session, .finished (if diagnostics.any isError then 1 else 0) out (log.lines records))

/-- The ending of a command that cannot read its file. -/
def unreadable (path : Text) (error : ReadError) : Ending :=
  .finished 1 [] (complaint ("Cannot read " ++ path) ++ line ("  " ++ error.message))

/-- Prints the record of a document. -/
def record (session : Session) (path : Text) : Ending :=
  match session.tree.readDocument (Path.ofText path) with
  | .error error => unreadable path error
  | .ok (document, records) => .finished 0 (line document.record) (session.log.lines records)

/-- Prints the outline of a document. -/
def outline (session : Session) (path : Text) : Ending :=
  match session.tree.readText (Path.ofText path) with
  | .error error => unreadable path error
  | .ok t =>
    let (document, records) := Document.read t
    let err := session.log.lines records
    match Outline.ofDocument document (Text.lines t).length with
    | [] => .finished 1 (line "No component signature found.") err
    | symbols => .finished 0 (forestLines 0 symbols) err

/-- Lists the components of a directory. -/
def components (session : Session) (root : Text) (asJson : Bool) : Session × Ending :=
  match session.settings [] with
  | .error ending => (session, ending)
  | .ok settings =>
    let log := session.log.configure settings.logLevel.name false
    let session := { session with log }
    let (paths, records) := session.tree.components (Path.ofText root) settings.sourceSuffixes
    let err := log.lines records
    if asJson then
      (session, .finished 0 (line (Json.writeIndented .ascii 0 (paths.toJson .string))) err)
    else match paths with
      | [] => (session, .finished 1 (line "No components found.") err)
      | paths => (session, .finished 0 (paths.flatMap fun (tag, path) => line (tag ++ ": " ++ path)) err)

/-- Carries out a command. -/
def Session.perform (session : Session) : Command → Session × Ending
  | .compile path choice => compile session path choice
  | .check path => check session path
  | .record path => (session, record session path)
  | .outline path => (session, outline session path)
  | .components root asJson => components session root asJson

/-- Runs the program once. The options before the command take effect as soon as the command is known,
even if its own arguments mean nothing. -/
def Session.run (session : Session) (args : List Text) : Session × Ending :=
  match globalOptions? false args with
  | none | some (_, []) => (session, .usage)
  | some (verbose, name :: args) =>
    match Verb.ofName? name with
    | none => (session, .usage)
    | some verb =>
      let session := { session with log := session.log.configure LogLevel.warning.name verbose }
      match Command.ofArguments? verb args with
      | none => (session, .usage)
      | some command => session.perform command

end ViewMarkup.CommandLine
