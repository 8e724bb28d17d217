import UiCatalog.Path

/-!
# Command-line arguments

The arguments name a command and its options; the options `-c`, `-v` and `-q` may stand before or behind the
command. Anything else is a usage error. An option that both places give counts as behind the command.
-/
namespace UiCatalog.CommandLine

/-- What an option is for. -/
inductive Flag where
  | config
  | verbose
  | quiet
  | help
  | version
  | root
  | output
  | host
  | port
  | catalog
  deriving DecidableEq, Repr

/-- How an option is written. -/
structure Switch where
  flag : Flag
  long : String
  short? : Option Char := none
  takesValue : Bool := false
  deriving DecidableEq, Repr

/-- The place that decides which options there are. -/
inductive Scope where
  | top
  | build
  | serve
  deriving DecidableEq, Repr

/-- The options that stand anywhere. -/
def commonSwitches : List Switch := [
  { flag := .config, long := "config", short? := some 'c', takesValue := true },
  { flag := .verbose, long := "verbose", short? := some 'v' },
  { flag := .quiet, long := "quiet", short? := some 'q' },
  { flag := .help, long := "help", short? := some 'h' }]

def Scope.switches : Scope → List Switch
  | top => commonSwitches ++ [{ flag := .version, long := "version", short? := some 'V' }]
  | build => commonSwitches ++ [
      { flag := .root, long := "root", takesValue := true },
      { flag := .output, long := "output", short? := some 'o', takesValue := true }]
  | serve => commonSwitches ++ [
      { flag := .host, long := "host", takesValue := true },
      { flag := .port, long := "port", short? := some 'p', takesValue := true },
      { flag := .catalog, long := "catalog", takesValue := true }]

/-- An option with its value, or one that does not exist or has a value that it must not have. -/
inductive Setting where
  | given (flag : Flag) (value : String)
  | unknown
  deriving DecidableEq, Repr

/-- What an argument is. -/
inductive Argument where
  /-- Options, the last of which may still need a value. -/
  | options (settings : List Setting) (pending : Option Flag)
  | operand (s : String)
  /-- The mark behind which everything is an operand. -/
  | separator
  deriving DecidableEq, Repr

namespace Argument

/-- Reads what follows two dashes. -/
def ofLong (scope : Scope) (s : List Char) : Argument :=
  let name := s.takeWhile (· != '=')
  let value := s.drop name.length
  match scope.switches.find? (·.long.toList == name), value with
  | none, _ => .options [.unknown] none
  | some switch, [] =>
    if switch.takesValue then .options [] (some switch.flag) else .options [.given switch.flag ""] none
  | some switch, _ :: value =>
    if switch.takesValue then .options [.given switch.flag (String.ofList value)] none
    else .options [.unknown] none

/-- Reads what follows one dash: letters of options, the first of which that takes a value takes the rest. -/
def ofShorts (scope : Scope) (before : List Setting) : List Char → Argument
  | [] => .options before none
  | c :: cs =>
    match scope.switches.find? (·.short? == some c) with
    | none => .options (before ++ [.unknown]) none
    | some switch =>
      if !switch.takesValue then ofShorts scope (before ++ [.given switch.flag ""]) cs
      else match cs with
        | [] => .options before (some switch.flag)
        | '=' :: value => .options (before ++ [.given switch.flag (String.ofList value)]) none
        | value => .options (before ++ [.given switch.flag (String.ofList value)]) none

def read (scope : Scope) (s : String) : Argument :=
  match s.toList with
  | ['-', '-'] => .separator
  | '-' :: '-' :: long => ofLong scope long
  | '-' :: c :: cs => ofShorts scope [] (c :: cs)
  | _ => .operand s

end Argument

/-- Why a command line does not run a command. -/
inductive Halt where
  | usage
  | help
  | version
  deriving DecidableEq, Repr

/-- The options that have been given, latest last; an option without a value has an empty one. -/
structure Settings where
  given : List (Flag × String) := []
  deriving DecidableEq, Repr

/-- The number that a port is written as: decimal digits, perhaps with a sign, up to 65535. -/
def port? (s : String) : Option Nat :=
  let digits := match s.toList with
    | '+' :: rest => rest
    | '-' :: rest => rest
    | rest => rest
  if digits.isEmpty || !digits.all Char.isDigit then none
  else
    let n := digits.foldl (fun n c => n * 10 + (c.toNat - '0'.toNat)) 0
    if n ≤ (if s.toList.head? = some '-' then 0 else 65535) then some n else none

/-- The value can be that of the option. -/
def Flag.accepts (flag : Flag) (value : String) : Bool :=
  match flag with
  | config | root | output | catalog => value != ""
  | port => (port? value).isSome
  | _ => true

namespace Settings

def value? (s : Settings) (flag : Flag) : Option String := s.given.lookup flag

def path? (s : Settings) (flag : Flag) : Option Path := (s.value? flag).map Path.mk

/-- How often `-v` has been given. -/
def verbosity (s : Settings) : Nat := s.given.countP (·.1 == .verbose)

def isQuiet (s : Settings) : Bool := (s.value? .quiet).isSome

/-- One more option; only `-v` can be repeated. -/
def add (s : Settings) : Setting → Except Halt Settings
  | .unknown => .error .usage
  | .given .help _ => .error .help
  | .given .version _ => .error .version
  | .given flag value =>
    if flag.accepts value && (flag == .verbose || (s.value? flag).isNone) then
      .ok ⟨s.given ++ [(flag, value)]⟩
    else .error .usage

def addAll (s : Settings) (settings : List Setting) : Except Halt Settings := settings.foldlM add s

end Settings

/-- Reads options up to the first operand, and gives what follows them. The value of an option may be the
next argument, unless that begins with a dash and goes on. -/
def readOptions (scope : Scope) (s : Settings) : List String → Except Halt (Settings × List String)
  | [] => .ok (s, [])
  | [last] =>
    match Argument.read scope last with
    | .operand _ => .ok (s, [last])
    | .separator => .ok (s, [])
    | .options settings pending => do
      let s ← s.addAll settings
      if pending.isSome then .error .usage else .ok (s, [])
  | arg :: next :: rest =>
    match Argument.read scope arg with
    | .operand _ => .ok (s, arg :: next :: rest)
    | .separator => .error .usage
    | .options settings none => do readOptions scope (← s.addAll settings) (next :: rest)
    | .options settings (some flag) => do
      let s ← s.addAll settings
      match Argument.read scope next with
      | .operand value => readOptions scope (← s.add (.given flag value)) rest
      | _ => .error .usage

inductive Command where
  | build (root? output? : Option Path)
  | serve (host? : Option String) (port? : Option Nat) (catalog? : Option Path)
  deriving DecidableEq, Repr

/-- What a command line asks for. -/
structure Invocation where
  config? : Option Path := none
  verbosity : Nat := 0
  quiet : Bool := false
  command : Command
  deriving DecidableEq, Repr

/-- The command that options stand for behind its name. -/
def commandOf : Scope → Settings → Option Command
  | .top, _ => none
  | .build, s => some (.build (s.path? .root) (s.path? .output))
  | .serve, s => some (.serve (s.value? .host) ((s.value? .port).bind port?) (s.path? .catalog))

/-- What help is asked for: for the program, or for one of its commands. -/
def helpOn : List String → Halt
  | [] => .help
  | [name] => if ["build", "serve", "help"].contains name then .help else .usage
  | _ => .usage

/-- The command of a name, behind which the other arguments stand. -/
def scopeOf (name : String) (rest : List String) : Except Halt Scope :=
  if name = "build" then .ok .build
  else if name = "serve" then .ok .serve
  else if name = "help" then .error (helpOn rest)
  else .error .usage

/-- What the options before and behind the name of a command ask for. -/
def invocation? (scope : Scope) (before behind : Settings) : Option Invocation :=
  (commandOf scope behind).map fun command => {
    config? := (behind.path? .config).or (before.path? .config)
    verbosity := if behind.verbosity = 0 then before.verbosity else behind.verbosity
    quiet := before.isQuiet || behind.isQuiet
    command }

def Invocation.parse (args : List String) : Except Halt Invocation := do
  match ← readOptions .top {} args with
  | (_, []) => .error .usage
  | (before, name :: rest) =>
    let scope ← scopeOf name rest
    match ← readOptions scope {} rest with
    | (behind, []) => (invocation? scope before behind).elim (.error .usage) .ok
    | _ => .error .usage

end UiCatalog.CommandLine
