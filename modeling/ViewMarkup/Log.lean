import ViewMarkup.Text.Case

namespace ViewMarkup

/-- The parts of the program that write to the log. -/
inductive Logger where
  | lines
  | documents
  | components
  | pipeline
  deriving DecidableEq, Repr

/-- The name under which a part appears in the log. -/
def Logger.name : Logger → Text
  | lines => "lunor.core.classify.lines"
  | documents => "lunor.core.parse"
  | components => "lunor.core.resolve"
  | pipeline => "lunor.core.pipeline"

/-- The levels of the log. -/
inductive LogLevel where
  | unset
  | debug
  | info
  | warning
  | error
  | critical
  deriving DecidableEq, Repr

namespace LogLevel

/-- The number of a level; a record is shown if its number is not below the number of the log. -/
def number : LogLevel → Nat
  | unset => 0
  | debug => 10
  | info => 20
  | warning => 30
  | error => 40
  | critical => 50

/-- The name of a level in the log. -/
def name : LogLevel → Text
  | unset => "NOTSET"
  | debug => "DEBUG"
  | info => "INFO"
  | warning => "WARNING"
  | error => "ERROR"
  | critical => "CRITICAL"

/-- The levels by name, with two further names. -/
def names : List (Text × LogLevel) :=
  [unset, debug, info, warning, error, critical].map (fun level => (level.name, level)) ++
    [("WARN".toList, warning), ("FATAL".toList, critical)]

/-- The level with a name in any case; every other name means warnings. -/
def ofName (t : Text) : LogLevel :=
  (names.lookup (Text.upper t)).getD warning

end LogLevel

/-- One entry of the log. -/
structure LogRecord where
  level : LogLevel
  logger : Logger
  message : Text
  deriving DecidableEq, Repr

/-- The line that shows a record. -/
def LogRecord.line (record : LogRecord) : Text :=
  record.level.name ++ " " ++ record.logger.name ++ ": " ++ record.message ++ "\n"

/-- What the log shows. Once a verbose run was asked for, everything from the debug level on is shown
for good. -/
structure LogConfig where
  verbose : Bool
  level : LogLevel
  deriving DecidableEq, Repr

namespace LogConfig

/-- Before anything is configured, warnings are shown. -/
def initial : LogConfig := ⟨false, .warning⟩

/-- Sets the level by name, unless a verbose run is asked for now or was before. -/
def configure (config : LogConfig) (level : Text) (verbose : Bool) : LogConfig :=
  if config.verbose || verbose then ⟨true, .debug⟩ else ⟨false, .ofName level⟩

/-- The lines that show the records from the level on. -/
def lines (config : LogConfig) (records : List LogRecord) : Text :=
  (records.filter fun record => config.level.number ≤ record.level.number).flatMap LogRecord.line

end LogConfig

end ViewMarkup
