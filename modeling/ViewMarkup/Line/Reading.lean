import ViewMarkup.Line.Declaration
import ViewMarkup.Line.Directive
import ViewMarkup.Line.Prose

namespace ViewMarkup

/-- Reads a line as the first kind that claims it. -/
def SourceLine.read? (line : SourceLine) : Option Reading :=
  line.comment? <|> line.declaration? <|> line.directive? <|> line.component? <|> line.prose?

end ViewMarkup
