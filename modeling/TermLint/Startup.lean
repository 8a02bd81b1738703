/-
  TermLint.Startup

  The whole program: it loads the settings, opens a log, and serves the client on
  its standard input and output.  Settings that cannot be used and logs that cannot
  be opened do not stop it; a failure of the transport does.
-/

import TermLint.Files
import TermLint.Serve
import TermLint.Settings.Load
import TermLint.Settings.Place

namespace TermLint

open Settings (Environment Content)
open TermLint.Frame (Source Sink)

/-- What the program finds when it starts. -/
structure Host where
  /-- The home of the user. -/
  home : String
  /-- The working directory. -/
  working : List String
  environment : Environment
  /-- What stands where the settings are looked for. -/
  settings : Content
  files : Files

/-- Where to log, in the order in which it is tried. -/
def logFiles (settings : Settings) (environment : Environment) (home : String) : List String :=
  (settings.logFile environment).toList ++ Settings.standardLogs home

/-- What the program leaves behind. -/
structure Ended where
  code : UInt32
  output : String
  /-- What is written about a failure. -/
  complaint : String
  files : Files

/-- The numbered lines of the causes of a failure, from the number on. -/
def causeLines (number : Nat) : List String → String
  | [] => ""
  | cause :: rest =>
    "    " ++ toString number ++ ": " ++ cause ++ "\n" ++ causeLines (number + 1) rest

/-- What is written about the outcome of a service: nothing, unless it failed. -/
def Outcome.complaint (outcome : Outcome) : String :=
  match outcome.causes with
  | [] => ""
  | causes => "Error: serving stdio\n\nCaused by:\n" ++ causeLines 0 causes

/-- The exit code for an outcome. -/
def Outcome.code (outcome : Outcome) : UInt32 :=
  match outcome with
  | .inputClosed => 0
  | .exited => 0
  | .readFailed _ => 1
  | .writeFailed _ => 1

/-- Run the program on an input that ends. -/
def run (host : Host) (input : List UInt8) : Ended :=
  let settings := Settings.effective host.settings
  let (files, _) :=
    host.files.openFirst host.working (logFiles settings host.environment host.home)
  let report := serve settings.session ⟨input, .closed⟩ Sink.unbounded
  ⟨report.outcome.code, report.sink.text, report.outcome.complaint, files⟩

end TermLint
