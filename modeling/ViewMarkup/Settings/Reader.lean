import ViewMarkup.Settings.Value
import ViewMarkup.Yaml.Reader

namespace ViewMarkup.Settings

/-- The value of a setting: its default if nothing is given for it. -/
def pick {α : Type} (values : Fields Yaml) (setting : SettingName) (unset : α)
    (read : Yaml → Except Refusal α) : Except Issue α :=
  match values.lookup setting.name with
  | none => .ok unset
  | some value => (read value).mapError fun refusal => ⟨setting, refusal, none⟩

/-- The suffixes of the sources: the default if nothing is given for them. -/
def pickSuffixes (values : Fields Yaml) : Except ConfigurationError (Except (List Issue) (List Text)) :=
  match values.lookup SettingName.sourceSuffixes.name with
  | none => .ok (.ok default.sourceSuffixes)
  | some value => suffixes value

/-- The issue of a setting, if there is one. -/
def issue? {α : Type} : Except Issue α → List Issue
  | .error issue => [issue]
  | .ok _ => []

/-- The issues of the suffixes. -/
def suffixIssues : Except (List Issue) (List Text) → List Issue
  | .error issues => issues
  | .ok _ => []

/-- The settings that named values give. All issues are reported, in the order of the settings; a suffix
that is no text comes before them. Other names mean nothing. -/
def ofValues (values : Fields Yaml) : Except ConfigurationError Settings :=
  let outputDirectory := pick values .outputDirectory default.outputDirectory text
  let dialect := pick values .dialect default.dialect (choice Dialect.ofSuffix?)
  let indentWidth := pick values .indentWidth ⟨default.indentWidth, default.indentWidth_pos⟩ width
  let runtimeModule := pick values .runtimeModule default.runtimeModule text
  let routerModule := pick values .routerModule default.routerModule text
  let authToken := pick values .authToken default.authToken text
  let writesSidecar := pick values .writesSidecar default.writesSidecar boolean
  let logLevel := pick values .logLevel default.logLevel level
  match pickSuffixes values with
  | .error error => .error error
  | .ok sourceSuffixes =>
    match outputDirectory, dialect, sourceSuffixes, indentWidth, runtimeModule, routerModule, authToken,
      writesSidecar, logLevel with
    | .ok outputDirectory, .ok dialect, .ok sourceSuffixes, .ok indentWidth, .ok runtimeModule,
      .ok routerModule, .ok authToken, .ok writesSidecar, .ok logLevel =>
      .ok { outputDirectory, dialect, sourceSuffixes, runtimeModule, routerModule, authToken,
            writesSidecar, logLevel, indentWidth := indentWidth.1, indentWidth_pos := indentWidth.2 }
    | outputDirectory, dialect, sourceSuffixes, indentWidth, runtimeModule, routerModule, authToken,
      writesSidecar, logLevel =>
      .error (.refused (issue? outputDirectory ++ issue? dialect ++ suffixIssues sourceSuffixes ++
        issue? indentWidth ++ issue? runtimeModule ++ issue? routerModule ++ issue? authToken ++
        issue? writesSidecar ++ issue? logLevel))

/-- The named values of a mapping; of two entries with one name the last counts. The first part of the
result says whether all names are texts. -/
def namedValues (entries : List (Yaml × Yaml)) : Bool × Fields Yaml :=
  entries.foldl (fun (isNamed, values) (key, value) =>
    match key with
    | .string name => (isNamed, values.put name value)
    | _ => (false, values)) (true, [])

/-- The entries of a configuration text. A text that holds nothing has none. -/
def entriesOfText (t : Text) : Except ConfigurationError (List (Yaml × Yaml)) :=
  match Yaml.read t with
  | .error error => .error (.yaml error)
  | .ok (.mapping entries) => .ok entries
  | .ok value => if value.isVacant then .ok [] else .error (.notMapping value.typeName)

/-- The value that the environment gives to a setting, unless it is empty. -/
def environmentValue? (environment : Fields Text) (setting : SettingName) : Option Text :=
  (environment.lookup setting.environmentVariable).filter (· ≠ [])

/-- The settings of a run: the configuration text, over it the environment, over both the overrides that
are given. -/
def load (config? : Option Text) (environment : Fields Text) (overrides : Fields Yaml) :
    Except ConfigurationError Settings :=
  match entriesOfText (config?.getD []) with
  | .error error => .error error
  | .ok entries =>
    let (isNamed, configured) := namedValues entries
    let surrounding := SettingName.all.foldl (fun values setting =>
      match environmentValue? environment setting with
      | some value => values.put setting.name (.string value)
      | none => values) configured
    let values := overrides.foldl (fun values (name, value) =>
      match value with
      | .null => values
      | value => values.put name value) surrounding
    if isNamed then ofValues values else .error .nameNotText

end ViewMarkup.Settings
