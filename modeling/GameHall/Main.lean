import GameHall.App
import GameHall.Json.Writer

/-!
# The command on a machine

Gathers the files that `App.launch` is a function of, lets it decide, and prints what it has decided.
The configuration and the settings are looked up in the working directory; the files of the bundle are
named on standard input, one a line.
-/

namespace GameHall.App

/-- The contents of a file, if it can be read. -/
def contents? (path : String) : IO (Option Octets) := do
  try return some (← IO.FS.readBinFile path).toList
  catch _ => return none

/-- A directory with what stands at a path on the machine. -/
def gather (directory : Tree) (path : String) : IO Tree := do
  match names? path with
  | none => return directory
  | some names =>
    match ← contents? path with
    | some contents => return directory.put names (.file contents)
    | none => return directory

/-- The lines that are left on a stream, without those that are blank. -/
partial def lines (input : IO.FS.Stream) (earlier : List String) : IO (List String) := do
  let line ← input.getLine
  if line.isEmpty then return earlier.reverse
  let path := line.trimAscii.toString
  lines input (if path.isEmpty then earlier else path :: earlier)

/-- Gathers the settings and the bundle that a configuration names. -/
def gatherAll (directory : Tree) (config : Config) : IO Tree := do
  let bundle ← lines (← IO.getStdin) []
  (config.server.settingsPath :: bundle).foldlM gather directory

/-- One line of the log. -/
def logLine (json : Bool) (level words : String) : String :=
  if json then
    Json.render (.object [(some "level", .ofText level), (some "message", .ofText words)])
  else s!"{level} {words}"

/-- Prints how far the command came. -/
def Outcome.report : Outcome → IO Unit
  | refused .usage => IO.eprintln "error: unexpected arguments"
  | refused .shown =>
    for flag in CommandLine.Flag.all do
      IO.println s!"--{flag.name}"
  | unconfigured => IO.eprintln "error: the configuration cannot be read"
  | invalid problem => IO.eprintln (invalidMessage problem)
  | failed config fault => IO.println (logLine config.logging.jsonFormat "ERROR" fault.message)
  | listening config _ fingerprint =>
    if logsProgress config then
      IO.println (logLine config.logging.jsonFormat "INFO"
        s!"Listening on {config.server.bindAddress} with rules {fingerprint}")
    else return ()

/-- Writes the configuration if there was none. -/
def writeConfig (before after : Tree) (path : String) : IO Unit := do
  match find? before path, find? after path with
  | none, some (.file contents) => IO.FS.writeBinFile path ⟨contents.toArray⟩
  | _, _ => return ()

/-- Runs the command on a machine. -/
def run (args : List String) : IO UInt32 := do
  match CommandLine.read args with
  | .error why =>
    (Outcome.refused why).report
    return UInt32.ofNat (((Outcome.refused why).exitCode?).getD 0)
  | .ok line =>
    let directory ← gather Tree.empty line.config
    let directory ← match (configure directory line.config).2 with
      | some config => gatherAll directory (line.override config)
      | none => pure directory
    let (after, outcome) := launch directory args
    writeConfig directory after line.config
    outcome.report
    return UInt32.ofNat (outcome.exitCode?.getD 0)

end GameHall.App

/-- The command. -/
def main (args : List String) : IO UInt32 := GameHall.App.run args
