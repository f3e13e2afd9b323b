import TemplateTypes.Json.Access
import TemplateTypes.Settings.Basic

namespace TemplateTypes.Settings

open Text

def toJson (s : Settings) : Json :=
  .object [("max_cached_projects", .int s.maxProjects),
    ("max_files_per_project", .int s.maxFilesPerProject),
    ("project_ttl_seconds", .int s.projectTtlSeconds),
    ("hover_timeout_ms", .int s.hoverTimeoutMs),
    ("language_server_command", .str s.serverCommand),
    ("use_language_service", .bool s.useLanguageService),
    ("scratch_dir", .str s.scratchDir),
    ("log_level", .str s.logLevel)]

/-- The settings that an object has, and the defaults for those that it has not. -/
def ofJson (j : Json) : Settings where
  maxProjects := j.wholeAt "max_cached_projects" default.maxProjects
  maxFilesPerProject := j.wholeAt "max_files_per_project" default.maxFilesPerProject
  projectTtlSeconds := j.wholeAt "project_ttl_seconds" default.projectTtlSeconds
  hoverTimeoutMs := j.wholeAt "hover_timeout_ms" default.hoverTimeoutMs
  serverCommand := j.textAtOr "language_server_command" default.serverCommand
  useLanguageService := j.truthAt "use_language_service" default.useLanguageService
  scratchDir := j.textAtOr "scratch_dir" default.scratchDir
  logLevel := j.textAtOr "log_level" default.logLevel

end TemplateTypes.Settings
