import ViewMarkup.Text.Quoted

namespace ViewMarkup

/-- Where a path starts. Two slashes are kept apart from one. -/
inductive Anchor where
  | here
  | root
  | doubleRoot
  deriving DecidableEq, Repr

/-- The text of an anchor. -/
def Anchor.text : Anchor → Text
  | here => ""
  | root => "/"
  | doubleRoot => "//"

/-- A path: the names between its slashes. A name is neither empty nor a single dot; two dots are kept. -/
structure Path where
  anchor : Anchor
  names : List Text
  deriving DecidableEq, Repr

/-- Why a path has no counterpart with another suffix. -/
inductive SuffixError where
  | invalidSuffix (suffix : Text)
  | emptyName (path : Path)
  deriving DecidableEq, Repr

namespace Path

/-- The path that a text spells. -/
def ofText (t : Text) : Path where
  anchor := match t with
    | '/' :: '/' :: '/' :: _ => .root
    | '/' :: '/' :: _ => .doubleRoot
    | '/' :: _ => .root
    | _ => .here
  names := (Text.split '/' t).filter fun name => name != [] && name != ['.']

/-- The text of a path. -/
def toText (path : Path) : Text :=
  match path.anchor, path.names with
  | .here, [] => "."
  | anchor, names => anchor.text ++ Text.join "/" names

/-- The path with this text in messages. -/
def shown (path : Path) : Text :=
  "PosixPath(" ++ Text.quoted path.toText ++ ")"

/-- The last name, empty if there is none. -/
def name (path : Path) : Text :=
  path.names.getLast?.getD []

/-- The path without its last name. -/
def parent (path : Path) : Path :=
  { path with names := path.names.dropLast }

/-- A path below a path. A path that starts at the root replaces it. -/
def join (path other : Path) : Path :=
  match other.anchor with
  | .here => { path with names := path.names ++ other.names }
  | _ => other

/-- A name cut before its last dot. A name that starts or ends with that dot is not cut. -/
def splitName (name : Text) : Text × Text :=
  let behind := (name.reverse.takeWhile (· != '.')).reverse
  let stem := name.take (name.length - behind.length - 1)
  if behind = [] ∨ stem = [] then (name, []) else (stem, '.' :: behind)

/-- The suffix of the last name with its dot, empty if there is none. -/
def suffix (path : Path) : Text :=
  (splitName path.name).2

/-- Another suffix in place of the suffix of the last name. -/
def replaceSuffix (path : Path) (suffix : Text) : Path :=
  { path with names := path.names.dropLast ++ [(splitName path.name).1 ++ suffix] }

/-- Whether a text is a suffix: empty, or a dot and more, without a slash. -/
def isSuffix : Text → Bool
  | [] => true
  | '.' :: rest => rest != [] && !rest.contains '/'
  | _ => false

/-- The path with another suffix. -/
def withSuffix (path : Path) (suffix : Text) : Except SuffixError Path :=
  if !isSuffix suffix then .error (.invalidSuffix suffix)
  else if path.name = [] then .error (.emptyName path)
  else .ok (path.replaceSuffix suffix)

/-- The names that lead from one list of names to another below it. -/
def below? : (names ancestor : List Text) → Option (List Text)
  | names, [] => some names
  | [], _ :: _ => none
  | name :: names, other :: ancestor => if name = other then below? names ancestor else none

/-- The path from an ancestor to a path; both are taken as they are written. -/
def relativeTo? (path ancestor : Path) : Option Path :=
  if path.anchor = ancestor.anchor then (below? path.names ancestor.names).map (Path.mk .here) else none

/-- The path without names that are a single dot. A name can become one when its suffix is taken away. -/
def withoutDots (path : Path) : Path :=
  { path with names := path.names.filter (· != ['.']) }

/-- The place of the output for a source: where the source is below the root, or only its name if it is
not below the root, with another suffix. -/
def output (source root directory : Path) (suffix : Text) : Except SuffixError Path :=
  let relative := (source.relativeTo? root).getD ⟨.here, if source.name = [] then [] else [source.name]⟩
  (relative.withSuffix suffix).map fun named => directory.join named.withoutDots

end Path

/-- The message of an error. -/
def SuffixError.message : SuffixError → Text
  | invalidSuffix suffix => "Invalid suffix " ++ Text.quoted suffix
  | emptyName path => path.shown ++ " has an empty name"

end ViewMarkup
