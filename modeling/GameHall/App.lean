import GameHall.Bundle.Fingerprint
import GameHall.CommandLine
import GameHall.Settings

/-!
# The command

What the command does from its arguments up to the moment it listens: it reads its configuration,
writing one if there is none, checks it, begins to log, reads the settings and takes the fingerprint of
the rules. `launch` is all of this as a function of the files in the working directory.
-/

namespace GameHall.App

/-- The names in a relative path; `none` for one that leads out of the working directory. -/
def names? (path : String) : Option (List String) :=
  if path.startsWith "/" then none
  else
    let names := (path.splitOn "/").filter fun n => n ≠ "" && n ≠ "."
    if ".." ∈ names then none else some names

/-- What stands at a path in the working directory. -/
def find? (directory : Tree) (path : String) : Option Tree :=
  if path.isEmpty then none else do directory.find? (← names? path)

/-- The working directory with a new file, whose directory has to be there. -/
def create? (directory : Tree) (path : String) (contents : Octets) : Option Tree := do
  let names ← names? path
  if names.isEmpty || path.endsWith "/" then none
  else
    match directory.find? names.dropLast with
    | some (.directory _) => some (directory.put names (.file contents))
    | _ => none

/-- How far the command came. -/
inductive Outcome where
  /-- The command line was not used. -/
  | refused (why : CommandLine.Refusal)
  /-- No configuration could be read or written. -/
  | unconfigured
  | invalid (problem : Config.Problem)
  /-- The server did not start, which has been logged. -/
  | failed (config : Config) (fault : Fault)
  | listening (config : Config) (settings : Settings) (fingerprint : String)

/-- Reads the configuration at a path, or writes one with all defaults there. -/
def configure (directory : Tree) (path : String) : Tree × Option Config :=
  match find? directory path with
  | some (.file contents) =>
    match Config.ofOctets contents with
    | .ok c => (directory, some c)
    | .error _ => (directory, none)
  | some (.directory _) => (directory, none)
  | none =>
    match create? directory path (Utf8.encode Config.initialText) with
    | some directory => (directory, some Config.initial)
    | none => (directory, none)

/-- The settings in the file at a path. -/
def loadSettings (directory : Tree) (path : String) : Except Fault Settings :=
  match find? directory path with
  | none => Settings.load none
  | some (.file contents) => Settings.load (some contents)
  | some (.directory _) => .error (.config "the settings are no file")

/-- Starts the server. The settings are read before the rules are looked at. -/
def start (directory : Tree) (config : Config) : Outcome :=
  match loadSettings directory config.server.settingsPath with
  | .error fault => .failed config fault
  | .ok settings =>
    match Bundle.fingerprint (find? directory config.server.bundleDirectory) with
    | .error fault => .failed config fault
    | .ok fingerprint => .listening config settings fingerprint

/-- Runs the command on its arguments: the working directory afterwards and how far it came. -/
def launch (directory : Tree) (args : List String) : Tree × Outcome :=
  match CommandLine.read args with
  | .error why => (directory, .refused why)
  | .ok line =>
    match configure directory line.config with
    | (directory, none) => (directory, .unconfigured)
    | (directory, some config) =>
      let config := line.override config
      match config.problem? with
      | some problem => (directory, .invalid problem)
      | none => (directory, start directory config)

/-- The words for a configuration that is refused. -/
def invalidMessage (problem : Config.Problem) : String :=
  s!"Configuration validation failed: {problem.message}"

/-- The exit code of a command that has not come to listen. -/
def Outcome.exitCode? : Outcome → Option Nat
  | refused .usage => some 2
  | refused .shown => some 0
  | unconfigured => some 1
  | invalid _ => some 1
  | failed _ _ => some 1
  | listening _ _ _ => none

/-- Whether a configuration lets messages of the level of progress through. -/
def logsProgress (config : Config) : Bool :=
  config.logging.level = "trace" || config.logging.level = "debug" || config.logging.level = "info"

/-- Whether anything stands on standard output: help, the log of a failure, or of progress. -/
def Outcome.logged : Outcome → Bool
  | refused .usage => false
  | refused .shown => true
  | unconfigured => false
  | invalid _ => false
  | failed _ _ => true
  | listening config _ _ => logsProgress config

/-- Whether what stands there is a log in JSON. -/
def Outcome.loggedJson : Outcome → Bool
  | failed config _ => config.logging.jsonFormat
  | listening config _ _ => config.logging.jsonFormat && logsProgress config
  | _ => false

end GameHall.App
