import TemplateTypes.Files.Path
import TemplateTypes.Text.WholeNumber

namespace TemplateTypes

open Text

structure Settings where
  maxProjects : Int
  maxFilesPerProject : Int
  projectTtlSeconds : Int
  hoverTimeoutMs : Int
  serverCommand : Text
  useLanguageService : Bool
  scratchDir : Text
  logLevel : Text
  deriving DecidableEq, Repr

namespace Settings

def default : Settings where
  maxProjects := 5
  maxFilesPerProject := 100
  projectTtlSeconds := 300
  hoverTimeoutMs := 3000
  serverCommand := []
  useLanguageService := true
  scratchDir := ".bindinfer/tmp".toList
  logLevel := "INFO".toList

inductive Problem
  | maxProjects
  | maxFilesPerProject
  | projectTtlSeconds
  | hoverTimeoutMs
  | scratchDirEmpty
  | scratchDirAbsolute
  | logLevel
  deriving DecidableEq, Repr

def Problem.message : Problem → Text
  | .maxProjects => "max_cached_projects must be positive".toList
  | .maxFilesPerProject => "max_files_per_project must be positive".toList
  | .projectTtlSeconds => "project_ttl_seconds must be positive".toList
  | .hoverTimeoutMs => "hover_timeout_ms must be positive".toList
  | .scratchDirEmpty => "scratch_dir cannot be empty".toList
  | .scratchDirAbsolute => "scratch_dir must be relative to the workspace root".toList
  | .logLevel =>
    "log_level must be one of ['DEBUG', 'INFO', 'WARNING', 'ERROR', 'CRITICAL']".toList

def logLevels : List Text :=
  ["DEBUG", "INFO", "WARNING", "ERROR", "CRITICAL"].map String.toList

def problems (s : Settings) : List Problem :=
  (if s.maxProjects ≤ 0 then [.maxProjects] else []) ++
  (if s.maxFilesPerProject ≤ 0 then [.maxFilesPerProject] else []) ++
  (if s.projectTtlSeconds ≤ 0 then [.projectTtlSeconds] else []) ++
  (if s.hoverTimeoutMs ≤ 0 then [.hoverTimeoutMs] else []) ++
  (if s.scratchDir.isEmpty then [.scratchDirEmpty]
    else if startsWith s.scratchDir ['/'] then [.scratchDirAbsolute] else []) ++
  (if s.logLevel ∈ logLevels then [] else [.logLevel])

inductive SettingsError
  | invalid (problems : List Problem)
  | number (cause : NumberError)
  deriving DecidableEq, Repr

def SettingsError.message : SettingsError → Text
  | .invalid problems =>
    "Invalid configuration: ".toList ++ join ", ".toList (problems.map Problem.message)
  | .number cause => cause.message

def check (s : Settings) : Except SettingsError Settings :=
  if s.problems.isEmpty then .ok s else .error (.invalid s.problems)

def upper (t : Text) : Text :=
  t.map fun c => if c == 'ı' then 'I' else if c == 'ſ' then 'S' else c.toUpper

def wholeNumber (value : Option Text) (default : Int) : Except SettingsError Int :=
  match value with
  | none => .ok default
  | some t =>
    match WholeNumber.read t with
    | .ok n => .ok n
    | .error e => .error (.number e)

/-- Settings from environment variables; numbers are read before any rule is checked. -/
def ofEnvironment (env : Text → Option Text) : Except SettingsError Settings := do
  let maxProjects ←
    wholeNumber (env "BINDINFER_MAX_CACHED_PROJECTS".toList) default.maxProjects
  let maxFilesPerProject ←
    wholeNumber (env "BINDINFER_MAX_FILES_PER_PROJECT".toList) default.maxFilesPerProject
  let projectTtlSeconds ←
    wholeNumber (env "BINDINFER_PROJECT_TTL_SECONDS".toList) default.projectTtlSeconds
  let hoverTimeoutMs ←
    wholeNumber (env "BINDINFER_HOVER_TIMEOUT_MS".toList) default.hoverTimeoutMs
  let useService := (env "BINDINFER_USE_LANGUAGE_SERVICE".toList).getD "true".toList
  check {
    maxProjects, maxFilesPerProject, projectTtlSeconds, hoverTimeoutMs
    serverCommand := (env "BINDINFER_LANGUAGE_SERVER_COMMAND".toList).getD []
    useLanguageService := lower useService == "true".toList
    scratchDir := (env "BINDINFER_SCRATCH_DIR".toList).getD default.scratchDir
    logLevel := upper ((env "LOG_LEVEL".toList).getD default.logLevel) }

def current (held : Option Settings) (env : Text → Option Text) :
    Except SettingsError Settings :=
  match held with
  | some s => .ok s
  | none => ofEnvironment env

end Settings

end TemplateTypes
