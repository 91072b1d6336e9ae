/-
# Arguments of the program

The program is called with a subcommand, and with options in front of it or after it. An option
has a name after two dashes, and may have a letter after one. Its value is attached with an
equals sign, or attached to the letter, or is the next argument; that one must not look like
an option. An option is given once at most. After two dashes alone nothing may follow.

* `Switch`, `scan` : the options, and how arguments are read;
* `Invocation`, `Invocation.ofArguments` : what the program is asked to do.
-/
import Stepwise.Process.Account

namespace Stepwise

/-- Why the program does nothing. -/
inductive Halt where
  /-- The arguments are wrong. -/
  | misuse
  /-- The arguments ask about the program. -/
  | information
deriving DecidableEq

/-- The exit code of a program that does nothing. -/
def Halt.code : Halt → Nat
  | .misuse => 1
  | .information => 0

/-- An option. -/
inductive Switch where
  /-- Asks about the program. -/
  | information (name : String) (letter : Char)
  | flag (name : String)
  | value (name : String) (letter : Option Char) (mayBeEmpty : Bool)

namespace Switch

def name : Switch → String
  | .information name _ => name
  | .flag name => name
  | .value name _ _ => name

def letter? : Switch → Option Char
  | .information _ letter => some letter
  | .flag _ => none
  | .value _ letter _ => letter

end Switch

/-- The options that were given, with their values. -/
abbrev Given := List (String × String)

namespace Given

/-- The value of an option. -/
def value? (given : Given) (name : String) : Option String :=
  (given.find? (·.1 == name)).map (·.2)

/-- Adds an option, which must not be there yet. -/
def add (given : Given) (name value : String) : Except Halt Given :=
  if (given.value? name).isSome then .error .misuse else .ok (given ++ [(name, value)])

/-- Adds an option with a value. -/
def addValue (given : Given) (s : Switch) (value : String) : Except Halt Given :=
  match s with
  | .value name _ mayBeEmpty =>
    if value.isEmpty && !mayBeEmpty then .error .misuse else given.add name value
  | _ => .error .misuse

end Given

/-- An argument. -/
inductive Argument where
  | word (text : String)
  /-- A name after two dashes, and what is attached to it. -/
  | long (name : String) (attached : Option String)
  /-- A letter after a dash, and what is attached to it. -/
  | short (letter : Char) (attached : Option String)
  /-- Two dashes alone. -/
  | stop

namespace Argument

/-- Reads a name and what is attached to it. -/
def named (cs : List Char) : Argument :=
  let name := String.ofList (cs.takeWhile (· ≠ '='))
  match cs.dropWhile (· ≠ '=') with
  | [] => .long name none
  | _ :: attached => .long name (some (String.ofList attached))

/-- Reads an argument. A dash alone is a word. -/
def ofText (s : String) : Argument :=
  match s.toList with
  | ['-', '-'] => .stop
  | '-' :: '-' :: cs => named cs
  | '-' :: c :: '=' :: attached => .short c (some (String.ofList attached))
  | ['-', c] => .short c none
  | '-' :: c :: attached => .short c (some (String.ofList attached))
  | _ => .word s

/-- The option that an argument names, and what is attached to it. -/
def switch? (known : List Switch) : Argument → Option (Switch × Option String)
  | .long name attached => (known.find? (·.name == name)).map (·, attached)
  | .short letter attached => (known.find? (·.letter? == some letter)).map (·, attached)
  | _ => none

end Argument

/-- What arguments say: the options, and the first word with the arguments after it. -/
structure Scanned where
  given : Given
  word : Option (String × List String)

/-- The option takes its value from the next argument, if it takes any. -/
inductive Progress where
  | ready (given : Given)
  | waits (s : Switch) (given : Given)

/-- What becomes of an option. What is attached to a letter that asks about the program does not
count. -/
def Given.take (given : Given) (long : Bool) (s : Switch) (attached : Option String) :
    Except Halt Progress :=
  match s, attached with
  | .information .., none => .error .information
  | .information .., some _ => .error (if long then .misuse else .information)
  | .flag name, none => (given.add name "").map .ready
  | .flag _, some _ => .error .misuse
  | s, some value => (given.addValue s value).map .ready
  | s, none => .ok (.waits s given)

/-- Reads arguments up to the first word, for an option that waits for its value. -/
def scan (known : List Switch) (given : Given) (waiting : Option Switch) :
    (args : List String) → Except Halt Scanned
  | [] => if waiting.isSome then .error .misuse else .ok ⟨given, none⟩
  | arg :: rest =>
    match Argument.ofText arg, waiting with
    | .word text, some s => do scan known (← given.addValue s text) none rest
    | .word text, none => .ok ⟨given, some (text, rest)⟩
    | .stop, some _ => .error .misuse
    | .stop, none => if rest.isEmpty then .ok ⟨given, none⟩ else .error .misuse
    | _, some _ => .error .misuse
    | argument, none =>
      match argument.switch? known with
      | none => .error .misuse
      | some (s, attached) => do
        let long := match argument with
          | .long .. => true
          | _ => false
        match ← given.take long s attached with
        | .ready given => scan known given none rest
        | .waits s given => scan known given (some s) rest

/-! ## What the program is asked to do -/

/-- What the program does with a project. -/
inductive Task where
  /-- List the processes. -/
  | list
  /-- Log in and run a process, the main process if none is named. -/
  | run (login : Credentials) (process : Option String) (autoContinue : Bool)
deriving DecidableEq

/-- A call of the program. -/
structure Invocation where
  /-- The path of the project. -/
  root : String
  task : Task
deriving DecidableEq

namespace Invocation

/-- The path where the project is looked for otherwise. -/
def defaultRoot : String := "."

def helpSwitch : Switch := .information "help" 'h'
def versionSwitch : Switch := .information "version" 'V'
def rootSwitch : Switch := .value "root" none false

/-- The options in front of the subcommand. -/
def commonSwitches : List Switch := [rootSwitch, helpSwitch, versionSwitch]

/-- The options for listing. -/
def listSwitches : List Switch := [rootSwitch, helpSwitch]

/-- The options for running. -/
def runSwitches : List Switch :=
  [.value "user" (some 'u') true, .value "password" (some 'p') true, .value "process" none true,
   .flag "no-auto-continue", rootSwitch, helpSwitch]

/-- The subcommands. -/
def subcommands : List String := ["run", "list", "help"]

/-- Reads the options after a subcommand. -/
def optionsAfter (known : List Switch) (args : List String) : Except Halt Given := do
  let scanned ← scan known [] none args
  if scanned.word.isSome then .error .misuse else .ok scanned.given

/-- Reads the options for running. -/
def runTask (given : Given) : Except Halt Task :=
  match given.value? "user" with
  | none => .error .misuse
  | some user =>
    .ok (.run ⟨user, (given.value? "password").getD ""⟩ (given.value? "process")
      (given.value? "no-auto-continue").isNone)

/-- The path of the project; one that is given later counts. -/
def rootOf (before after : Given) : String :=
  ((after.value? "root").or (before.value? "root")).getD defaultRoot

/-- Reads what is asked for about the program. -/
def helpFor (args : List String) : Halt :=
  match args with
  | [] => .information
  | [word] => if subcommands.contains word then .information else .misuse
  | _ => .misuse

/-- Reads the arguments of the program. -/
def ofArguments (args : List String) : Except Halt Invocation := do
  let scanned ← scan commonSwitches [] none args
  match scanned.word with
  | some ("list", rest) =>
    let given ← optionsAfter listSwitches rest
    .ok ⟨rootOf scanned.given given, .list⟩
  | some ("run", rest) =>
    let given ← optionsAfter runSwitches rest
    .ok ⟨rootOf scanned.given given, ← runTask given⟩
  | some ("help", rest) => .error (helpFor rest)
  | _ => .error .misuse

end Invocation

end Stepwise
