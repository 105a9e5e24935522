import ViewMarkup.Document.Basic
import ViewMarkup.Resolver
import ViewMarkup.Text.Utf8
import ViewMarkup.Workspace.Tree

namespace ViewMarkup

/-- Why a text file cannot be read. -/
inductive ReadError where
  | file (error : FileError)
  | utf8 (error : Utf8Error)
  deriving DecidableEq, Repr

/-- The message of an error. -/
def ReadError.message : ReadError → Text
  | file error => error.message
  | utf8 error => error.message

namespace Tree

/-- The text of a file, every line end as one character. -/
def readText (tree : Tree) (path : Path) : Except ReadError Text :=
  match tree.read path with
  | .error error => .error (.file error)
  | .ok bytes => (Utf8.decodeLines bytes).mapError .utf8

/-- The first line of a file. -/
def readFirstLine (tree : Tree) (path : Path) : Except ReadError Text :=
  match tree.read path with
  | .error error => .error (.file error)
  | .ok bytes => (Utf8.firstLine bytes).mapError .utf8

/-- The document in a file, with the log of reading it. -/
def readDocument (tree : Tree) (path : Path) : Except ReadError (Document × List LogRecord) :=
  (tree.readText path).map Document.read

/-- The sources at a path: the file itself, or all files below a directory, in the order of their names
one by one. -/
def sources (tree : Tree) (path : Path) (suffixes : List Text) : List Path :=
  let found :=
    if tree.isFile path then [path]
    else match tree.locate path with
      | .error _ => []
      | .ok location =>
        ((tree.filesBelow location).mergeSort fun a b => !Location.comesBefore b a).map fun names =>
          path.join ⟨.here, names⟩
  found.filter fun source => suffixes.contains source.suffix

/-- The paths of components by name, while the sources of a directory are looked at. -/
structure Survey where
  paths : Fields Text
  log : List LogRecord

/-- Looks at the first line of one more source. The first source that declares a name keeps it. -/
def surveySource (tree : Tree) (root : Path) (survey : Survey) (source : Path) : Survey :=
  match tree.readFirstLine source with
  | .error error =>
    { survey with log := survey.log ++
      [⟨.debug, .components, "skipping unreadable " ++ source.toText ++ ": " ++ error.message⟩] }
  | .ok line =>
    match Signature.declaredName? line with
    | none => survey
    | some tag =>
      let path := (((source.relativeTo? root).getD source).replaceSuffix []).toText
      match survey.paths.lookup tag with
      | some kept =>
        { survey with log := survey.log ++
          [⟨.warning, .components, "component " ++ tag ++ " declared in both " ++ kept ++ " and " ++ path ++
            "; keeping " ++ kept⟩] }
      | none => { survey with paths := survey.paths ++ [(tag, path)] }

/-- The components that the sources of a directory declare: the path of each without its suffix, from the
directory. -/
def components (tree : Tree) (root : Path) (suffixes : List Text) : Fields Text × List LogRecord :=
  if tree.isDirectory root then
    let survey := (tree.sources root suffixes).foldl (tree.surveySource root) ⟨[], []⟩
    (survey.paths, survey.log ++
      [⟨.debug, .components, "discovered " ++ Text.ofNat survey.paths.length ++ " component(s) under " ++
        root.toText⟩])
  else ([], [])

/-- The resolver for the components of a directory. -/
def resolver (tree : Tree) (root : Path) (suffixes : List Text) : Resolver × List LogRecord :=
  let (paths, log) := tree.components root suffixes
  (⟨paths, routerTags⟩, log)

end Tree

end ViewMarkup
