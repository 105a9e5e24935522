import ViewMarkup.Fields
import ViewMarkup.Log
import ViewMarkup.React.Module
import ViewMarkup.Yaml.Error

namespace ViewMarkup

/-- The dialect of the generated files. -/
inductive Dialect where
  | tsx
  | jsx
  deriving DecidableEq, Repr

/-- The suffix of the generated files. -/
def Dialect.suffix : Dialect → Text
  | tsx => ".tsx"
  | jsx => ".jsx"

/-- The dialect with a suffix. -/
def Dialect.ofSuffix? (t : Text) : Option Dialect :=
  [tsx, jsx].find? fun dialect => dialect.suffix == t

/-- The settings of a run. Every value of this type is valid. -/
structure Settings where
  outputDirectory : Text := "dist"
  dialect : Dialect := .tsx
  /-- The suffixes of the sources, each with its dot. -/
  sourceSuffixes : List Text := Document.suffixes
  indentWidth : Nat := 2
  runtimeModule : Text := "react"
  routerModule : Text := "react-router-dom"
  authToken : Text := React.defaultAuthToken
  writesSidecar : Bool := false
  logLevel : LogLevel := .warning
  indentWidth_pos : 0 < indentWidth := by decide
  deriving Repr

namespace Settings

/-- The settings of a run that sets nothing. -/
def default : Settings := {}

/-- What the settings say about generated code. -/
def options (settings : Settings) : React.Options where
  indentWidth := settings.indentWidth
  runtimeModule := settings.runtimeModule
  routerModule := settings.routerModule
  authToken := settings.authToken

end Settings

/-- The settings by name, in the order in which they are checked. -/
inductive SettingName where
  | outputDirectory
  | dialect
  | sourceSuffixes
  | indentWidth
  | runtimeModule
  | routerModule
  | authToken
  | writesSidecar
  | logLevel
  deriving DecidableEq, Repr

namespace SettingName

/-- All settings, in the order in which they are checked. -/
def all : List SettingName :=
  [outputDirectory, dialect, sourceSuffixes, indentWidth, runtimeModule, routerModule, authToken,
   writesSidecar, logLevel]

/-- The name of a setting in a configuration. -/
def name : SettingName → Text
  | outputDirectory => "output_dir"
  | dialect => "output_ext"
  | sourceSuffixes => "source_extensions"
  | indentWidth => "indent_width"
  | runtimeModule => "runtime_module"
  | routerModule => "router_module"
  | authToken => "auth_token_expression"
  | writesSidecar => "write_sidecar"
  | logLevel => "log_level"

/-- The environment variable that sets a setting. -/
def environmentVariable (setting : SettingName) : Text :=
  "LUNOR_" ++ Text.upper setting.name

end SettingName

/-- Why a value is refused for a setting. -/
inductive Refusal where
  | notText
  | notUnicode
  | pattern
  | notList
  | notNumber
  | unreadableNumber
  | numberTooLong
  | fraction
  | notFinite
  | tooSmall
  | notBoolean
  | unreadableBoolean
  deriving DecidableEq, Repr

/-- The name of a refusal in reports. -/
def Refusal.name : Refusal → Text
  | notText => "string_type"
  | notUnicode => "string_unicode"
  | pattern => "string_pattern_mismatch"
  | notList => "list_type"
  | notNumber => "int_type"
  | unreadableNumber => "int_parsing"
  | numberTooLong => "int_parsing_size"
  | fraction => "int_from_float"
  | notFinite => "finite_number"
  | tooSmall => "greater_than_equal"
  | notBoolean => "bool_type"
  | unreadableBoolean => "bool_parsing"

/-- A setting with a value that is refused. -/
structure Issue where
  setting : SettingName
  refusal : Refusal
  /-- The item that is refused, if the value is a list of which not all is refused. -/
  item? : Option Nat := none
  deriving DecidableEq, Repr

/-- Why a configuration gives no settings. -/
inductive ConfigurationError where
  /-- The text gives no YAML value. -/
  | yaml (error : YamlError)
  /-- The text is YAML but not a mapping; its type is given. -/
  | notMapping (type : Text)
  /-- A name is not a text. -/
  | nameNotText
  /-- A suffix is not a text; its type is given. -/
  | suffixNotText (type : Text)
  /-- A suffix is a text of octets. -/
  | suffixBinary
  /-- Values are refused, at least one. -/
  | refused (issues : List Issue)
  deriving DecidableEq, Repr

namespace ConfigurationError

/-- The message of an error. -/
def message : ConfigurationError → Text
  | yaml error => error.message
  | notMapping type => "Invalid config.yaml: expected a mapping, got " ++ type
  | nameNotText => "keywords must be strings"
  | suffixNotText type => "'" ++ type ++ "' object has no attribute 'startswith'"
  | suffixBinary => "startswith first arg must be bytes or a tuple of bytes, not str"
  | refused _ => "Invalid configuration"

/-- The message with all issues. -/
def report : ConfigurationError → Text
  | refused issues =>
    "Invalid configuration: " ++ Text.join ", " (issues.map fun issue =>
      issue.setting.name ++ " (" ++ issue.refusal.name ++ ")")
  | error => error.message

/-- Whether the error is one that a run does not expect and so does not report. -/
def isCrash : ConfigurationError → Bool
  | nameNotText | suffixNotText _ | suffixBinary => true
  | yaml error => error.isCrash
  | notMapping _ | refused _ => false

end ConfigurationError

end ViewMarkup
