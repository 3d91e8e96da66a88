/-
The arguments of the command line.

Options of the whole program may stand before and after the name of a command; after it they win.
An option is written in a long form, whose value may follow an equals sign, or in a short form,
which may be bundled with others and may have its value attached.  After `--` nothing is an option.

Main definitions:

* `Command`, `Invocation` — what is to be done, and with which settings;
* `Request.parse` — the meaning of arguments.
-/

set_option autoImplicit false

namespace ExportSurface

/-- The form of a result. -/
inductive OutputFormat where
  | text
  | json
  deriving DecidableEq

/-- What is to be done. -/
inductive Command where
  /-- List the exported candidates of files and directories. -/
  | «exports» (paths : List String) (format : OutputFormat) (all : Bool)
  /-- Count what the symbol graph of a file holds. -/
  | stats (file : String)
  /-- List what was skipped in a file. -/
  | explain (file : String) (format : OutputFormat)
  /-- Write a file of settings. -/
  | init (force : Bool)
  deriving DecidableEq

/-- A command with the options of the whole program. -/
structure Invocation where
  config : Option String := none
  noEsm : Bool := false
  noCommonJs : Bool := false
  noWindow : Bool := false
  command : Command
  deriving DecidableEq

/-- The meaning of arguments. -/
inductive Request where
  | run (invocation : Invocation)
  | help
  | version
  /-- The arguments are wrong. -/
  | misuse
  deriving DecidableEq

namespace Arguments

/-! ### Options -/

/-- The options. -/
inductive Flag where
  | verbose
  | config
  | noEsm
  | noCommonJs
  | noWindow
  | format
  | all
  | force
  | help
  | version
  deriving DecidableEq

namespace Flag

def long : Flag → String
  | .verbose => "verbose"
  | .config => "config"
  | .noEsm => "no-esm"
  | .noCommonJs => "no-commonjs"
  | .noWindow => "no-window"
  | .format => "format"
  | .all => "all"
  | .force => "force"
  | .help => "help"
  | .version => "version"

def short? : Flag → Option Char
  | .verbose => some 'v'
  | .config => some 'c'
  | .format => some 'f'
  | .all => some 'a'
  | .help => some 'h'
  | .version => some 'V'
  | _ => none

def takesValue : Flag → Bool
  | .config | .format => true
  | _ => false

/-- May an option have a value?  Paths are not empty, and formats have a name. -/
def admits : Flag → String → Bool
  | .config, value => value ≠ ""
  | .format, value => value = "text" || value = "json"
  | _, _ => false

end Flag

/-- The commands by their names. -/
inductive CommandName where
  | «exports»
  | stats
  | explain
  | init
  deriving DecidableEq

def CommandName.ofText? : String → Option CommandName
  | "exports" => some .exports
  | "stats" => some .stats
  | "explain" => some .explain
  | "init" => some .init
  | _ => none

/-- The options of the whole program. -/
def globalFlags : List Flag := [.verbose, .config, .noEsm, .noCommonJs, .noWindow, .help]

/-- The options that may be given before the name of a command, or after it. -/
def flagsOf : Option CommandName → List Flag
  | none => .version :: globalFlags
  | some .exports => .format :: .all :: globalFlags
  | some .stats => globalFlags
  | some .explain => .format :: globalFlags
  | some .init => .force :: globalFlags

/-! ### One level of arguments -/

/-- What arguments amount to at one level: options with their values, and other arguments, both in
reverse order. -/
structure Level where
  given : List (Flag × String) := []
  operands : List String := []

/-- Why reading arguments stopped. -/
inductive Stop where
  | help
  | version
  | misuse
  deriving DecidableEq

/-- Record an option.  Only the option for more messages may be repeated. -/
def Level.give (l : Level) (flag : Flag) (value : String) : Except Stop Level :=
  if flag = .help then .error .help
  else if flag = .version then .error .version
  else if flag ≠ .verbose && l.given.any (·.1 = flag) then .error .misuse
  else if flag.takesValue && !flag.admits value then .error .misuse
  else .ok { l with given := (flag, value) :: l.given }

/-- The value of an option, if it was given. -/
def Level.value? (l : Level) (flag : Flag) : Option String :=
  (l.given.find? (·.1 = flag)).map (·.2)

def Level.has (l : Level) (flag : Flag) : Bool := (l.value? flag).isSome

/-- A text before and after its first equals sign. -/
def splitEquals (cs : List Char) : List Char × Option (List Char) :=
  match cs.dropWhile (· ≠ '=') with
  | [] => (cs, none)
  | _ :: rest => (cs.takeWhile (· ≠ '='), some rest)

/-- An option in its long form, after the dashes; answers the option that waits for its value. -/
def readLong (flags : List Flag) (l : Level) (cs : List Char) : Except Stop (Level × Option Flag) :=
  let (name, value) := splitEquals cs
  match flags.find? (·.long = String.ofList name), value with
  | none, _ => .error .misuse
  | some flag, none =>
      if flag.takesValue then
        if l.has flag then .error .misuse else .ok (l, some flag)
      else (l.give flag "").map fun l => (l, none)
  | some flag, some value =>
      if flag.takesValue then (l.give flag (String.ofList value)).map fun l => (l, none)
      else .error .misuse

/-- Options in their short form, after the dash; answers the option that waits for its value. -/
def readShort (flags : List Flag) : Level → List Char → Except Stop (Level × Option Flag)
  | l, [] => .ok (l, none)
  | l, c :: rest =>
      match flags.find? (·.short? = some c) with
      | none => .error .misuse
      | some flag =>
          if flag.takesValue then
            match rest with
            | [] => if l.has flag then .error .misuse else .ok (l, some flag)
            | '=' :: value => (l.give flag (String.ofList value)).map fun l => (l, none)
            | value => (l.give flag (String.ofList value)).map fun l => (l, none)
          else
            match l.give flag "" with
            | .error e => .error e
            | .ok l => readShort flags l rest

/-- Read arguments up to the end, or up to the first operand if `single`, which answers it with the
arguments after it.  `waiting` is an option without its value yet, and after `--`, which `literal`
says, nothing is an option. -/
def readLevel (flags : List Flag) (single : Bool) :
    Level → Option Flag → Bool → List String → Except Stop (Level × Option (String × List String))
  | l, none, _, [] => .ok (l, none)
  | _, some _, _, [] => .error .misuse
  | l, waiting, literal, arg :: rest =>
      let operand : Except Stop (Level × Option (String × List String)) :=
        if single then (if literal then .error .misuse else .ok (l, some (arg, rest)))
        else readLevel flags single { l with operands := arg :: l.operands } none literal rest
      if literal then operand
      else
        match arg.toList, waiting with
        | ['-', '-'], some _ => .error .misuse
        | ['-', '-'], none => readLevel flags single l none true rest
        | '-' :: '-' :: _, some _ => .error .misuse
        | '-' :: '-' :: cs, none =>
            match readLong flags l cs with
            | .error e => .error e
            | .ok (l, waiting) => readLevel flags single l waiting false rest
        | '-' :: _ :: _, some _ => .error .misuse
        | '-' :: c :: cs, none =>
            match readShort flags l (c :: cs) with
            | .error e => .error e
            | .ok (l, waiting) => readLevel flags single l waiting false rest
        | _, some flag =>
            match l.give flag arg with
            | .error e => .error e
            | .ok l => readLevel flags single l none false rest
        | _, none => operand

/-! ### Commands -/

def formatOf (l : Level) : OutputFormat := if l.value? .format = some "json" then .json else .text

/-- The command of a name with what was given after it. -/
def command? (name : CommandName) (l : Level) : Option Command :=
  if l.operands.any (· = "") then none
  else
    match name, l.operands.reverse with
    | .exports, [] => none
    | .exports, paths => some (.exports paths (formatOf l) (l.has .all))
    | .stats, [file] => some (.stats file)
    | .explain, [file] => some (.explain file (formatOf l))
    | .init, [] => some (.init (l.has .force))
    | _, _ => none

/-- The options of the whole program, given before and after the name of a command. -/
def invocation (before after : Level) (command : Command) : Invocation where
  config := (after.value? .config).or (before.value? .config)
  noEsm := before.has .noEsm || after.has .noEsm
  noCommonJs := before.has .noCommonJs || after.has .noCommonJs
  noWindow := before.has .noWindow || after.has .noWindow
  command

/-- The request that reading stopped for. -/
def Stop.request : Stop → Request
  | .help => .help
  | .version => .version
  | .misuse => .misuse

/-- Arguments after the word `help`: nothing, or the name of a command. -/
def helpRequest : List String → Request
  | [] => .help
  | [name] => if name = "help" || (CommandName.ofText? name).isSome then .help else .misuse
  | _ => .misuse

end Arguments

open Arguments in
/-- The meaning of arguments. -/
def Request.parse (args : List String) : Request :=
  match readLevel (flagsOf none) true {} none false args with
  | .error e => e.request
  | .ok (_, none) => .misuse
  | .ok (before, some (word, rest)) =>
      if word = "help" then helpRequest rest
      else
        match CommandName.ofText? word with
        | none => .misuse
        | some name =>
            match readLevel (flagsOf (some name)) false {} none false rest with
            | .error e => e.request
            | .ok (after, _) =>
                match command? name after with
                | some command => .run (invocation before after command)
                | none => .misuse

end ExportSurface
