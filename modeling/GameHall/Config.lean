import GameHall.Address
import GameHall.Number.Duration
import GameHall.Text.Utf8
import GameHall.Toml.Reader

/-!
# Configuration

What is fixed when the server starts. It is read from a TOML document with three tables; a key or a
table that is missing keeps its default, and one that is not known is ignored. A table may also be
given as an array of its values in the order of the fields.

`Config.problem?` finds the first thing that makes a configuration useless, and `Config.resolve` turns
the texts of addresses and the seconds of timeouts into what they stand for.
-/

namespace GameHall

/-- How rule engines are launched. -/
structure EngineConfig where
  program : String
  args : List String
  /-- The environment variable that makes an engine talk in packets, and its value. -/
  modeVariable : String
  modeValue : String
  /-- How long an engine may take to greet. -/
  handshakeTimeout : Duration
  /-- How long an engine may take to exit when it has been asked to. -/
  shutdownTimeout : Duration
  /-- How long a scheduler may take to come up. -/
  startupTimeout : Duration

/-- Everything the server has to know to start. -/
structure HallConfig where
  bindAddress : Address
  discoveryAddress : Address
  /-- How long a connection may take to sign up. -/
  signUpTimeout : Duration
  /-- How long an engine call may wait for the main loop. -/
  mainCallTimeout : Duration
  settingsPath : String
  bundleDirectory : String
  engine : EngineConfig

/-- How engines are launched if nothing else is said. -/
def EngineConfig.initial : EngineConfig where
  program := "lua5.4"
  args := ["server/rpc/entry.lua"]
  modeVariable := "RPC_MODE"
  modeValue := "cbor"
  handshakeTimeout := Duration.ofSeconds 10
  shutdownTimeout := Duration.ofSeconds 3
  startupTimeout := Duration.ofSeconds 15

/-- How the server starts if nothing else is said. -/
def HallConfig.initial : HallConfig where
  bindAddress := ⟨.v4 0 0 0 0, 0, 9527⟩
  discoveryAddress := ⟨.v4 0 0 0 0, 0, 9527⟩
  signUpTimeout := Duration.ofSeconds 30
  mainCallTimeout := Duration.ofSeconds 10
  settingsPath := "server_settings.json"
  bundleDirectory := "packages"
  engine := EngineConfig.initial

namespace Config

/-- The table `server`. Timeouts are in seconds. -/
structure Server where
  bindAddress : String
  discoveryAddress : String
  signUpTimeout : Nat
  mainCallTimeout : Nat
  settingsPath : String
  bundleDirectory : String

/-- The table `engine`. Timeouts are in seconds. -/
structure Engine where
  program : String
  args : List String
  modeVariable : String
  modeValue : String
  handshakeTimeout : Nat
  shutdownTimeout : Nat
  startupTimeout : Nat

/-- The table `logging`. -/
structure Logging where
  level : String
  jsonFormat : Bool

end Config

/-- A configuration as it is written. -/
structure Config where
  server : Config.Server
  engine : Config.Engine
  logging : Config.Logging

namespace Config

/-- The whole seconds of a span. -/
def seconds (d : Duration) : Nat := d.nanoseconds / 1000000000

/-- What holds where a document is silent. -/
def initial : Config where
  server := {
    bindAddress := HallConfig.initial.bindAddress.text
    discoveryAddress := HallConfig.initial.discoveryAddress.text
    signUpTimeout := seconds HallConfig.initial.signUpTimeout
    mainCallTimeout := seconds HallConfig.initial.mainCallTimeout
    settingsPath := HallConfig.initial.settingsPath
    bundleDirectory := HallConfig.initial.bundleDirectory }
  engine := {
    program := EngineConfig.initial.program
    args := EngineConfig.initial.args
    modeVariable := EngineConfig.initial.modeVariable
    modeValue := EngineConfig.initial.modeValue
    handshakeTimeout := seconds EngineConfig.initial.handshakeTimeout
    shutdownTimeout := seconds EngineConfig.initial.shutdownTimeout
    startupTimeout := seconds EngineConfig.initial.startupTimeout }
  logging := { level := "info", jsonFormat := false }

/-! ## Reading -/

/-- A field of a table: its key and what its value does to the table. -/
structure Field (σ : Type) where
  key : String
  put : σ → Toml.Value → Option σ

/-- The fields of `server` in order. -/
def Server.fields : List (Field Server) := [
  ⟨"bind_address", fun s v => v.asText?.map fun x => { s with bindAddress := x }⟩,
  ⟨"discovery_address", fun s v => v.asText?.map fun x => { s with discoveryAddress := x }⟩,
  ⟨"signup_timeout", fun s v => v.asNat?.map fun x => { s with signUpTimeout := x }⟩,
  ⟨"main_call_timeout", fun s v => v.asNat?.map fun x => { s with mainCallTimeout := x }⟩,
  ⟨"settings_path", fun s v => v.asText?.map fun x => { s with settingsPath := x }⟩,
  ⟨"bundle_directory", fun s v => v.asText?.map fun x => { s with bundleDirectory := x }⟩]

/-- The fields of `engine` in order. -/
def Engine.fields : List (Field Engine) := [
  ⟨"program", fun s v => v.asText?.map fun x => { s with program := x }⟩,
  ⟨"args", fun s v => v.asTexts?.map fun x => { s with args := x }⟩,
  ⟨"rpc_mode_var", fun s v => v.asText?.map fun x => { s with modeVariable := x }⟩,
  ⟨"rpc_mode_value", fun s v => v.asText?.map fun x => { s with modeValue := x }⟩,
  ⟨"handshake_timeout", fun s v => v.asNat?.map fun x => { s with handshakeTimeout := x }⟩,
  ⟨"shutdown_timeout", fun s v => v.asNat?.map fun x => { s with shutdownTimeout := x }⟩,
  ⟨"startup_timeout", fun s v => v.asNat?.map fun x => { s with startupTimeout := x }⟩]

/-- The fields of `logging` in order. -/
def Logging.fields : List (Field Logging) := [
  ⟨"level", fun s v => v.asText?.map fun x => { s with level := x }⟩,
  ⟨"json_format", fun s v => v.asBool?.map fun x => { s with jsonFormat := x }⟩]

section
variable {σ : Type}

/-- Takes the entries of a table. -/
def putEntries (fields : List (Field σ)) (s : σ) : List (String × Toml.Value) → Option σ
  | [] => some s
  | (key, v) :: rest =>
    match fields.find? (·.key == key) with
    | none => putEntries fields s rest
    | some field => do putEntries fields (← field.put s v) rest

/-- Takes the elements of an array in the order of the fields, as many as there are fields. -/
def putElements (s : σ) : List (Field σ) → List Toml.Value → Option σ
  | field :: fields, v :: vs => do putElements (← field.put s v) fields vs
  | _, _ => some s

/-- Takes a table. A date has none of the keys, and so changes nothing. -/
def putTable (fields : List (Field σ)) (s : σ) : Toml.Value → Option σ
  | .table entries => putEntries fields s entries
  | .array elements => putElements s fields elements
  | .date => some s
  | _ => none

end

/-- The tables of a document. -/
def tables : List (Field Config) := [
  ⟨"server", fun c v => (putTable Server.fields c.server v).map fun x => { c with server := x }⟩,
  ⟨"engine", fun c v => (putTable Engine.fields c.engine v).map fun x => { c with engine := x }⟩,
  ⟨"logging", fun c v =>
    (putTable Logging.fields c.logging v).map fun x => { c with logging := x }⟩]

/-- Why a document gives no configuration. -/
inductive Fault where
  | notText
  /-- It is no TOML document, or a key has a value of the wrong type. -/
  | invalid
  deriving DecidableEq

/-- Reads a document. -/
def read (text : String) : Option Config := do putEntries tables initial (← Toml.read text)

/-- Reads a document from the octets of a file. -/
def ofOctets (bs : Octets) : Except Fault Config :=
  match Utf8.decode? bs with
  | none => .error .notText
  | some text =>
    match read text with
    | none => .error .invalid
    | some c => .ok c

/-! ## Writing -/

/-- A line that gives a key a text, which must need no escapes. -/
def textLine (key value : String) : String := s!"{key} = \"{value}\"\n"

/-- A line that gives a key a number. -/
def numberLine (key : String) (value : Nat) : String := s!"{key} = {value}\n"

/-- The document that is written for an operator who has none: all defaults. -/
def initialText : String :=
  let s := initial.server
  let e := initial.engine
  let l := initial.logging
  let args := ", ".intercalate (e.args.map fun a => s!"\"{a}\"")
  "[server]\n" ++ textLine "bind_address" s.bindAddress ++
    textLine "discovery_address" s.discoveryAddress ++ numberLine "signup_timeout" s.signUpTimeout ++
    numberLine "main_call_timeout" s.mainCallTimeout ++ textLine "settings_path" s.settingsPath ++
    textLine "bundle_directory" s.bundleDirectory ++
    "\n[engine]\n" ++ textLine "program" e.program ++ s!"args = [{args}]\n" ++
    textLine "rpc_mode_var" e.modeVariable ++ textLine "rpc_mode_value" e.modeValue ++
    numberLine "handshake_timeout" e.handshakeTimeout ++
    numberLine "shutdown_timeout" e.shutdownTimeout ++
    numberLine "startup_timeout" e.startupTimeout ++
    "\n[logging]\n" ++ textLine "level" l.level ++ s!"json_format = {l.jsonFormat}\n"

/-! ## Checking -/

/-- What makes a configuration useless. -/
inductive Problem where
  | address (name text : String)
  /-- Something that must be named is not. -/
  | empty (name : String)
  /-- A timeout of no time at all. -/
  | timeout (key : String)
  | logLevel (level : String)
  deriving DecidableEq

/-- The levels of logging. -/
def logLevels : List String := ["trace", "debug", "info", "warn", "error"]

/-- The words for a problem. -/
def Problem.message : Problem → String
  | address name text => s!"Invalid {name} address: {text}"
  | empty name => s!"{name} cannot be empty"
  | timeout key => s!"{key} must be at least one second"
  | logLevel level =>
    let levels := ", ".intercalate (logLevels.map fun l => s!"\"{l}\"")
    s!"Invalid log level: {level}. Must be one of: [{levels}]"

/-- The timeouts with their keys. -/
def timeouts (c : Config) : List (String × Nat) := [
  ("server.signup_timeout", c.server.signUpTimeout),
  ("server.main_call_timeout", c.server.mainCallTimeout),
  ("engine.handshake_timeout", c.engine.handshakeTimeout),
  ("engine.shutdown_timeout", c.engine.shutdownTimeout),
  ("engine.startup_timeout", c.engine.startupTimeout)]

/-- Everything that is wrong with a configuration, in the order in which it is looked for. -/
def problems (c : Config) : List Problem :=
  ([("bind", c.server.bindAddress), ("discovery", c.server.discoveryAddress)].filterMap
    fun (name, text) => if (Address.read text).isNone then some (.address name text) else none) ++
  ([("Settings path", c.server.settingsPath), ("Bundle directory", c.server.bundleDirectory),
      ("Engine program", c.engine.program)].filterMap
    fun (name, text) => if text.isEmpty then some (.empty name) else none) ++
  (c.timeouts.filterMap fun (key, n) => if n = 0 then some (.timeout key) else none) ++
  (if c.logging.level ∈ logLevels then [] else [.logLevel c.logging.level])

/-- The first thing that is wrong with a configuration. -/
def problem? (c : Config) : Option Problem := c.problems.head?

/-- What a configuration stands for, if its addresses are addresses. -/
def resolve (c : Config) : Option HallConfig := do
  return {
    bindAddress := ← Address.read c.server.bindAddress
    discoveryAddress := ← Address.read c.server.discoveryAddress
    signUpTimeout := Duration.ofSeconds c.server.signUpTimeout
    mainCallTimeout := Duration.ofSeconds c.server.mainCallTimeout
    settingsPath := c.server.settingsPath
    bundleDirectory := c.server.bundleDirectory
    engine := {
      program := c.engine.program
      args := c.engine.args
      modeVariable := c.engine.modeVariable
      modeValue := c.engine.modeValue
      handshakeTimeout := Duration.ofSeconds c.engine.handshakeTimeout
      shutdownTimeout := Duration.ofSeconds c.engine.shutdownTimeout
      startupTimeout := Duration.ofSeconds c.engine.startupTimeout } }

end Config

end GameHall
