import ViewMarkup.Compilation
import ViewMarkup.Sidecar
import ViewMarkup.Workspace.Source

namespace ViewMarkup

/-- What came of one source. -/
structure Outcome where
  source : Path
  output : Path
  sidecar? : Option Path
  diagnostics : List Diagnostic
  compilation : Compilation
  deriving Repr

/-- Why a run stops. -/
inductive RunError where
  | unreadable (source : Path) (error : ReadError)
  | output (error : SuffixError)
  | write (error : FileError)
  | generate (failure : React.Failure)
  deriving Repr

/-- The message of an error. -/
def RunError.message : RunError → Text
  | unreadable source error => "Failed to read " ++ source.toText ++ ": " ++ error.message
  | output error => error.message
  | write error => error.message
  | generate failure => failure.message

/-- A run that has ended: the tree it left, what came of the sources in order, its log, and why it stopped
if it did not reach the last source. -/
structure Run where
  tree : Tree
  outcomes : List Outcome
  log : List LogRecord
  error? : Option RunError

/-- What the sources of a run share. -/
structure Plan where
  settings : Settings
  root : Path
  outputDirectory : Path
  resolver : Resolver

namespace Plan

/-- Writes the output of a source, and its sidecar if one is wanted. -/
def writeOutput (plan : Plan) (tree : Tree) (source : Path) (document : Document)
    (compilation : Compilation) : Tree × Except RunError Outcome :=
  match source.output plan.root plan.outputDirectory plan.settings.dialect.suffix with
  | .error error => (tree, .error (.output error))
  | .ok output =>
    match tree.makeDirectories output.parent with
    | .error error => (tree, .error (.write error))
    | .ok tree =>
      match tree.write output (Utf8.encode compilation.code) with
      | .error error => (tree, .error (.write error))
      | .ok tree =>
        if plan.settings.writesSidecar then
          let sidecar := output.replaceSuffix ".json"
          match tree.write sidecar (Utf8.encode (Sidecar.write source.toText document)) with
          | .error error => (tree, .error (.write error))
          | .ok tree => (tree, .ok ⟨source, output, some sidecar, document.diagnostics, compilation⟩)
        else (tree, .ok ⟨source, output, none, document.diagnostics, compilation⟩)

/-- The last record of a source. -/
def outcomeRecord (outcome : Outcome) : LogRecord :=
  ⟨.info, .pipeline, "compiled " ++ outcome.source.toText ++ " -> " ++ outcome.output.toText ++ " (" ++
    Text.ofNat outcome.diagnostics.length ++ " diagnostic(s))"⟩

/-- Compiles one source. -/
def compileSource (plan : Plan) (tree : Tree) (source : Path) :
    Tree × List LogRecord × Except RunError Outcome :=
  match tree.readDocument source with
  | .error error => (tree, [], .error (.unreadable source error))
  | .ok (document, readLog) =>
    match Compilation.run document plan.resolver plan.settings.options with
    | .error failure => (tree, readLog, .error (.generate failure))
    | .ok (compilation, compileLog) =>
      match plan.writeOutput tree source document compilation with
      | (tree, .error error) => (tree, readLog ++ compileLog, .error error)
      | (tree, .ok outcome) => (tree, readLog ++ compileLog ++ [outcomeRecord outcome], .ok outcome)

/-- Compiles sources in order, up to the first that stops the run. -/
def compileSources (plan : Plan) : Tree → List Path → Run
  | tree, [] => ⟨tree, [], [], none⟩
  | tree, source :: sources =>
    match plan.compileSource tree source with
    | (tree, log, .error error) => ⟨tree, [], log, some error⟩
    | (tree, log, .ok outcome) =>
      let run := plan.compileSources tree sources
      { run with outcomes := outcome :: run.outcomes, log := log ++ run.log }

end Plan

namespace Tree

/-- The root of a run that names none: the path itself, or the directory of a file. -/
def defaultRoot (tree : Tree) (path : Path) : Path :=
  if tree.isDirectory path then path else path.parent

/-- Compiles the sources at a path. The resolver is made once, from the tree before the run. -/
def compile (tree : Tree) (path : Path) (settings : Settings) (outputDirectory : Path)
    (root? : Option Path) : Run :=
  let root := root?.getD (tree.defaultRoot path)
  match tree.sources path settings.sourceSuffixes with
  | [] => ⟨tree, [], [], none⟩
  | source :: sources =>
    let (resolver, log) := tree.resolver root settings.sourceSuffixes
    let run := Plan.compileSources ⟨settings, root, outputDirectory, resolver⟩ tree (source :: sources)
    { run with log := log ++ run.log }

/-- The diagnostics of sources, with the log, up to the first that cannot be read. -/
def checkSources (tree : Tree) :
    List Path → List LogRecord × Except RunError (List (Path × List Diagnostic))
  | [] => ([], .ok [])
  | source :: sources =>
    match tree.readDocument source with
    | .error error => ([], .error (.unreadable source error))
    | .ok (document, readLog) =>
      let (log, results) := tree.checkSources sources
      (readLog ++ log, results.map ((source, document.diagnostics) :: ·))

/-- The diagnostics of the sources at a path. -/
def check (tree : Tree) (path : Path) (suffixes : List Text) :
    List LogRecord × Except RunError (List (Path × List Diagnostic)) :=
  tree.checkSources (tree.sources path suffixes)

end Tree

end ViewMarkup
