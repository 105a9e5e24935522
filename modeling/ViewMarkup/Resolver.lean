import ViewMarkup.Fields
import ViewMarkup.Text.Case

namespace ViewMarkup

/-- The tags of the router, which come from its own module. -/
def routerTags : List Text :=
  ["BrowserRouter", "HashRouter", "Routes", "Route", "Link", "NavLink", "Navigate", "Outlet"].map
    String.toList

/-- Where tags are declared, and which tags are known without a declaration. -/
structure Resolver where
  paths : Fields Text
  wellKnown : List Text
  deriving DecidableEq, Repr

/-- A tag of plain markup, which is never imported: its first character is not upper case. -/
def isIntrinsic (tag : Text) : Bool :=
  !tag.head?.any isUpper

namespace Resolver

/-- No file declares a component. -/
def default : Resolver := ⟨[], routerTags⟩

/-- Whether a tag comes from the router. -/
def isWellKnown (resolver : Resolver) (tag : Text) : Bool :=
  resolver.wellKnown.contains tag

/-- The import path of a tag; a tag that no file declares is taken for the name of its file. -/
def importPath (resolver : Resolver) (tag : Text) : Text :=
  "./" ++ (resolver.paths.lookup tag).getD tag

end Resolver

end ViewMarkup
