import GameHall.Config

/-!
# Command line

The command takes options only. An option has a long name, and perhaps a letter; its value is the
next argument, or follows an equals sign, or stands right after the letter. Each may be given once.
Every option but the first overrides a value of the configuration.
-/

namespace GameHall

/-- The arguments of the command. -/
structure CommandLine where
  config : String
  bind : Option String
  discovery : Option String
  bundle : Option String
  logLevel : Option String
  jsonLogs : Bool
  deriving DecidableEq

namespace CommandLine

/-- The options. -/
inductive Flag where
  | config | bind | discovery | bundle | logLevel | jsonLogs | help | version
  deriving DecidableEq

/-- The long name of an option. -/
def Flag.name : Flag → String
  | config => "config"
  | bind => "bind"
  | discovery => "discovery"
  | bundle => "bundle"
  | logLevel => "log-level"
  | jsonLogs => "json-logs"
  | help => "help"
  | version => "version"

/-- The letter of an option. -/
def Flag.letter? : Flag → Option Char
  | config => some 'c'
  | bind => some 'b'
  | discovery => some 'd'
  | logLevel => some 'l'
  | help => some 'h'
  | version => some 'V'
  | bundle => none
  | jsonLogs => none

/-- The options in order. -/
def Flag.all : List Flag := [.config, .bind, .discovery, .bundle, .logLevel, .jsonLogs, .help, .version]

/-- Whether an option has a value. -/
def Flag.hasValue : Flag → Bool
  | config | bind | discovery | bundle | logLevel => true
  | jsonLogs | help | version => false

/-- The option with a long name. -/
def Flag.ofName? (name : List Char) : Option Flag := Flag.all.find? fun f => f.name.toList == name

/-- The option with a letter. -/
def Flag.ofLetter? (c : Char) : Option Flag := Flag.all.find? fun f => f.letter? == some c

/-- Why a command line is not used. -/
inductive Refusal where
  /-- It is no command line. -/
  | usage
  /-- It asks for words instead: the help or the version. -/
  | shown
  deriving DecidableEq

/-- Options with the values given to them. -/
abbrev Given := List (Flag × String)

/-- Notes an option. -/
def note (given : Given) (flag : Flag) (value : String) : Except Refusal Given :=
  if given.any fun e => e.1 = flag then .error .usage else .ok (given ++ [(flag, value)])

/-- Whether an argument can be the value of an option before it. -/
def isValue (arg : String) : Bool :=
  match arg.toList with
  | '-' :: _ :: _ => false
  | _ => true

/-- What an argument says: an option with a value of its own, an option that takes the next argument,
one that takes none, or letters without values. -/
inductive Reading where
  | whole (flag : Flag) (value : String)
  | awaits (flag : Flag)
  | switch (flag : Flag)
  /-- No more options follow. -/
  | ends
  | wrong

/-- The value after a name or a letter, without its equals sign. -/
def attached (flag : Flag) : List Char → Reading
  | [] => .awaits flag
  | '=' :: value => .whole flag (String.ofList value)
  | value => .whole flag (String.ofList value)

/-- Reads an argument. -/
def readArgument (arg : String) : Reading :=
  match arg.toList with
  | ['-', '-'] => .ends
  | '-' :: '-' :: cs =>
    match cs.span (· ≠ '=') with
    | (name, value) =>
      match Flag.ofName? name with
      | none => .wrong
      | some flag =>
        if flag.hasValue then attached flag value
        else if value.isEmpty then .switch flag
        else .wrong
  | '-' :: c :: value =>
    match Flag.ofLetter? c with
    | none => .wrong
    | some flag => if flag.hasValue then attached flag value else .switch flag
  | _ => .wrong

/-- Takes the arguments in turn. -/
def gather (given : Given) : List String → Except Refusal Given
  | [] => .ok given
  | arg :: rest =>
    match readArgument arg with
    | .wrong => .error .usage
    | .ends => if rest.isEmpty then .ok given else .error .usage
    | .whole flag value =>
      match note given flag value with
      | .ok given => gather given rest
      | .error e => .error e
    | .switch .help => .error .shown
    | .switch .version => .error .shown
    | .switch flag =>
      match note given flag "" with
      | .ok given => gather given rest
      | .error e => .error e
    | .awaits flag =>
      match rest with
      | [] => .error .usage
      | value :: rest =>
        if isValue value then
          match note given flag value with
          | .ok given => gather given rest
          | .error e => .error e
        else .error .usage

/-- Reads a command line, the name of the command apart. -/
def read (args : List String) : Except Refusal CommandLine :=
  match gather [] args with
  | .error e => .error e
  | .ok given =>
    let value (flag : Flag) : Option String := given.lookup flag
    .ok {
      config := (value .config).getD "config.toml"
      bind := value .bind
      discovery := value .discovery
      bundle := value .bundle
      logLevel := value .logLevel
      jsonLogs := (value .jsonLogs).isSome }

/-- The configuration with what the command line overrides. -/
def override (c : CommandLine) (config : Config) : Config := {
  server := { config.server with
    bindAddress := c.bind.getD config.server.bindAddress
    discoveryAddress := c.discovery.getD config.server.discoveryAddress
    bundleDirectory := c.bundle.getD config.server.bundleDirectory }
  engine := config.engine
  logging := {
    level := c.logLevel.getD config.logging.level
    jsonFormat := c.jsonLogs || config.logging.jsonFormat } }

end CommandLine

end GameHall
