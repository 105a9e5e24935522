import ViewMarkup.Text.Basic

namespace ViewMarkup

/-- A place between two characters. -/
structure Position where
  line : Int
  character : Int
  deriving DecidableEq, Repr

/-- The text between two places. -/
structure Range where
  start : Position
  stop : Position
  deriving DecidableEq, Repr

/-- A range of columns on one line. -/
def Range.onLine (line start stop : Int) : Range :=
  ⟨⟨line, start⟩, ⟨line, stop⟩⟩

/-- How serious a diagnostic is. -/
inductive Severity where
  | error
  | warning
  | information
  | hint
  deriving DecidableEq, Repr

namespace Severity

/-- The number of a severity in editor protocols. -/
def number : Severity → Nat
  | error => 1
  | warning => 2
  | information => 3
  | hint => 4

/-- The severity with a number. -/
def ofNumber? (n : Int) : Option Severity :=
  [error, warning, information, hint].find? fun severity => severity.number == n

/-- The name of a severity. -/
def name : Severity → Text
  | error => "error"
  | warning => "warning"
  | information => "information"
  | hint => "hint"

end Severity

/-- What kind of fault a diagnostic reports. -/
inductive DiagnosticCode where
  | emptyFile
  | invalidComponentSignature
  | invalidPropDefinition
  | invalidProperty
  | invalidDataValue
  | invalidStateValue
  | invalidDirective
  deriving DecidableEq, Repr

namespace DiagnosticCode

/-- Every code. -/
def all : List DiagnosticCode :=
  [emptyFile, invalidComponentSignature, invalidPropDefinition, invalidProperty, invalidDataValue,
   invalidStateValue, invalidDirective]

/-- The name of a code. -/
def name : DiagnosticCode → Text
  | emptyFile => "EmptyFile"
  | invalidComponentSignature => "InvalidComponentSignature"
  | invalidPropDefinition => "InvalidPropDefinition"
  | invalidProperty => "InvalidProperty"
  | invalidDataValue => "InvalidDataValue"
  | invalidStateValue => "InvalidStateValue"
  | invalidDirective => "InvalidDirective"

/-- The code with a name. -/
def ofName? (t : Text) : Option DiagnosticCode :=
  all.find? fun code => code.name == t

end DiagnosticCode

/-- A fault and the text that shows it. -/
structure Diagnostic where
  code : DiagnosticCode
  message : Text
  range : Range
  severity : Severity
  deriving DecidableEq, Repr

namespace Diagnostic

/-- An error in columns `start` to `stop` of a line. -/
def error (code : DiagnosticCode) (message : Text) (line start stop : Int) : Diagnostic :=
  ⟨code, message, Range.onLine line start stop, .error⟩

/-- The line for human readers, who count from one. -/
def line (diagnostic : Diagnostic) : Int :=
  diagnostic.range.start.line + 1

/-- The first diagnostic with a code. -/
def first? (code : DiagnosticCode) (diagnostics : List Diagnostic) : Option Diagnostic :=
  diagnostics.find? fun diagnostic => diagnostic.code == code

end Diagnostic

end ViewMarkup
