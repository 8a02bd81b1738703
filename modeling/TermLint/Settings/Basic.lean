/-
  TermLint.Settings.Basic

  What a user can set: where and how much is logged, the name under which the server
  presents itself, and the rules.  Everything may be left out; what is left out is
  as in a session for which nothing is set.
-/

import TermLint.Session
import TermLint.Settings.Template

namespace TermLint

open Lint (Linter ScanRule ActionRule)
open Lsp (ServerInfo)
open Shape (Fields)

namespace Settings

/-- What and where to log. -/
structure LogSettings where
  /-- Which lines are logged. -/
  level : Option String
  /-- A template for the file. -/
  file : Option String
  deriving DecidableEq, Repr

/-- The fields of `LogSettings` as data. -/
def LogSettings.fields : Fields [Option String, Option String] :=
  .cons (.optional "level" .string) (.cons (.optional "file" .string) .nil)

/-- `LogSettings` as data. -/
def LogSettings.shape : Shape LogSettings :=
  Shape.record "LogConfig" LogSettings.fields
    (fun log => (log.level, log.file, ())) fun (level, file, ()) => ⟨level, file⟩

/-- How the server presents itself. -/
structure ServerSettings where
  name : Option String
  version : Option String
  deriving DecidableEq, Repr

/-- The fields of `ServerSettings` as data. -/
def ServerSettings.fields : Fields [Option String, Option String] :=
  .cons (.optional "name" .string) (.cons (.optional "version" .string) .nil)

/-- `ServerSettings` as data. -/
def ServerSettings.shape : Shape ServerSettings :=
  Shape.record "ServerConfig" ServerSettings.fields
    (fun server => (server.name, server.version, ())) fun (name, version, ()) => ⟨name, version⟩

end Settings

/-- What a user has set. -/
structure Settings where
  log : Option Settings.LogSettings
  server : Option Settings.ServerSettings
  rules : Option (List ScanRule)
  action : Option ActionRule
  deriving DecidableEq, Repr

namespace Settings

/-- `Settings` as data. -/
def shape : Shape Settings :=
  Shape.record "QuillConfig"
    (.cons (.optional "log" LogSettings.shape) (.cons (.optional "server" ServerSettings.shape)
      (.cons (.optional "rules" ScanRule.shape.list)
        (.cons (.optional "code_action" ActionRule.shape) .nil))))
    (fun s => (s.log, s.server, s.rules, s.action, ()))
    fun (log, server, rules, action, ()) => ⟨log, server, rules, action⟩

/-- Nothing is set. -/
def none : Settings := ⟨.none, .none, .none, .none⟩

/-- Which lines are logged. -/
def logLevel (settings : Settings) : Option String :=
  settings.log.bind (·.level)

/-- The file to log to. -/
def logFile (settings : Settings) (environment : Environment) : Option String :=
  (settings.log.bind (·.file)).map (expand environment)

/-- The rules that apply. -/
def linter (settings : Settings) : Linter :=
  ⟨settings.rules.getD ScanRule.standard, settings.action.getD ActionRule.standard⟩

/-- The name and version under which the server presents itself. -/
def serverInfo (settings : Settings) : ServerInfo :=
  let standard := ServerInfo.standard
  { name := (settings.server.bind (·.name)).getD standard.name
    version := (settings.server.bind (·.version)) <|> standard.version }

/-- A session that begins with these settings. -/
def session (settings : Settings) : Session :=
  Session.start settings.linter settings.serverInfo

end Settings
end TermLint
