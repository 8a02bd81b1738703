/-
  TermLint.Main

  The program on a real host.  Only reading and writing is done here: what is
  answered is decided by the session, and how the bytes are cut into frames by the
  source.
-/

import TermLint.Startup

namespace TermLint

open Settings (Environment Content)
open TermLint.Frame (Source Reading)

namespace Host

/-- What stands where the settings are looked for. -/
def readContent (path : String) : IO Content := do
  try
    let bytes ← IO.FS.readBinFile path
    return .file bytes.data.toList
  catch
    | .noFileOrDirectory .. => return .absent
    | _ => return .directory

/-- The values of the variables that the settings refer to. -/
def readEnvironment (settings : Settings) : IO Environment := do
  let names := ((settings.log.bind (·.file)).map Settings.referenced).getD []
  let values ← names.mapM fun name => return (name, ← IO.getEnv name)
  return fun name => (values.find? fun entry => entry.1 == name).bind (·.2)

/-- Open a file for appending, making its directory where it is missing. -/
def openLog? (path : String) : IO (Option IO.FS.Handle) := do
  let directory := Files.directoryOf path
  if !Files.isPath directory then return none
  try
    if directory != "" then IO.FS.createDirAll directory
    if !Files.isPath path then return none
    return some (← IO.FS.Handle.mk path .append)
  catch _ => return none

/-- Open the first log of several that can be opened. -/
def openFirstLog? : List String → IO (Option IO.FS.Handle)
  | [] => return none
  | path :: rest => do
    match ← openLog? path with
    | some log => return some log
    | none => openFirstLog? rest

/-- Append lines to the log, if there is one. -/
def record (log : Option IO.FS.Handle) (lines : List Log.Line) : IO Unit := do
  match log with
  | none => return
  | some log =>
    for line in lines do
      log.putStrLn line.render
    log.flush

/-- The reason that stands for bytes which have not come yet. -/
def pending : String := "pending"

/-- Serve a client whose bytes come one portion after another: a frame is answered as soon as its
last byte is there. -/
partial def pump (log : Option IO.FS.Handle) (session : Session) (bytes : List UInt8)
    (closed : Bool) : IO Outcome := do
  match (Source.mk bytes (if closed then .closed else .broken pending)).next with
  | (.ended, _) =>
    record log [⟨.info, "Client closed input"⟩]
    return .inputClosed
  | (.failed fault, _) =>
    if closed then return .readFailed fault
    let more ← (← IO.getStdin).read 65536
    if more.isEmpty then pump log session bytes true
    else pump log session (bytes ++ more.data.toList) false
  | (.malformed fault, rest) =>
    record log [⟨.warn, "Skipping malformed frame: " ++ fault.message⟩]
    pump log session rest.bytes closed
  | (.frame text, rest) =>
    let step := session.step text
    record log step.log
    if let some reply := step.reply then
      let output ← IO.getStdout
      try
        output.write reply.frame.toUTF8
        output.flush
      catch e => return .writeFailed (.host (toString e))
      record log [⟨.debug, "Sent the response"⟩]
    if step.session.exited then return .exited
    pump log step.session rest.bytes closed

end Host
end TermLint

open TermLint in
/-- Serve a client on standard input and output. -/
def main : IO UInt32 := do
  let home := (← IO.getEnv "HOME").getD ""
  let settings := Settings.effective (← Host.readContent (Settings.settingsFile home))
  let environment ← Host.readEnvironment settings
  let log ← Host.openFirstLog? (logFiles settings environment home)
  let outcome ← Host.pump log settings.session [] false
  IO.eprint outcome.complaint
  return outcome.code
