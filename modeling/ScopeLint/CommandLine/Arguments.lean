import ScopeLint.Console

/-!
# Arguments of the command line

Options are written `-f x`, `-fx`, `-f=x`, `--format x` or `--format=x`, and short ones may stand
together. An argument that begins with a dash is never taken as the value of the option before it.
After `--` every argument is an operand. Arguments are taken from left to right, and the first one that
is wrong, or that asks for the version or for help, decides.
-/

namespace ScopeLint.CommandLine

inductive Flag where
  | verbose
  | config
  | version
  | help
  | format
  | rules
  | exclude
  | force
  deriving DecidableEq, Repr

namespace Flag

def long : Flag → List Char
  | verbose => "verbose".toList
  | config => "config".toList
  | version => "version".toList
  | help => "help".toList
  | format => "format".toList
  | rules => "rules".toList
  | exclude => "exclude".toList
  | force => "force".toList

def short? : Flag → Option Char
  | verbose => some 'v'
  | config => some 'c'
  | version => some 'V'
  | help => some 'h'
  | format => some 'f'
  | exclude => some 'e'
  | rules => none
  | force => none

def takesValue : Flag → Bool
  | config => true
  | format => true
  | rules => true
  | exclude => true
  | verbose => false
  | version => false
  | help => false
  | force => false

end Flag

/-- What an argument turns out to be. An operand comes with the arguments after it, and with whether it
follows `--`. -/
inductive Event where
  | flag (f : Flag)
  | value (f : Flag) (text : List Char)
  | operand (text : List Char) (after : List (List Char)) (literal : Bool)
  | wrong
  deriving DecidableEq, Repr

/-- The events of short options written together, and the option that still waits for its value. -/
def cluster (allowed : List Flag) : List Char → List Event × Option Flag
  | [] => ([], none)
  | c :: cs =>
      match allowed.find? fun f => f.short? = some c with
      | none => ([.wrong], none)
      | some f =>
          if f.takesValue then
            match cs with
            | [] => ([], some f)
            | '=' :: text => ([.value f text], none)
            | text => ([.value f text], none)
          else
            let (events, waiting) := cluster allowed cs
            (.flag f :: events, waiting)

/-- The events of a long option, and the option that still waits for its value. -/
def longOption (allowed : List Flag) (body : List Char) : List Event × Option Flag :=
  let name := body.takeWhile (· != '=')
  match allowed.find? fun f => f.long = name, body.dropWhile (· != '=') with
  | none, _ => ([.wrong], none)
  | some f, [] => if f.takesValue then ([], some f) else ([.flag f], none)
  | some f, _ :: text => if f.takesValue then ([.value f text], none) else ([.wrong], none)

/-- The operands after `--`. -/
def literals : List (List Char) → List Event
  | [] => []
  | a :: as => .operand a as true :: literals as

/-- The events of a list of arguments, where an option may still wait for its value. -/
def events (allowed : List Flag) : (waiting : Option Flag) → List (List Char) → List Event
  | none, [] => []
  | some _, [] => [.wrong]
  | some f, a :: as =>
      match a with
      | '-' :: _ :: _ => [.wrong]
      | _ => .value f a :: events allowed none as
  | none, a :: as =>
      match a with
      | ['-', '-'] => literals as
      | '-' :: '-' :: body =>
          let (found, waiting) := longOption allowed body
          found ++ events allowed waiting as
      | '-' :: c :: cs =>
          let (found, waiting) := cluster allowed (c :: cs)
          found ++ events allowed waiting as
      | _ => .operand a as false :: events allowed none as

/-- What the arguments of one command have set so far. -/
structure Draft where
  verbose : Bool := false
  config : Option Path := none
  path : Option Path := none
  format : Option Format := none
  rules : Option (List Char) := none
  excludes : List (List Char) := []
  force : Bool := false

/-- Why arguments do not name a command to run. -/
inductive Stop where
  | misuse
  | version
  | help
  deriving DecidableEq, Repr

/-- A path that is not empty. -/
def path? (text : List Char) : Except Stop Path :=
  if text.isEmpty then .error .misuse else .ok ⟨text⟩

namespace Draft

/-- Set what may be set once. -/
def once {α : Type} (old : Option α) (new : Except Stop α) : Except Stop (Option α) :=
  match old with
  | some _ => .error .misuse
  | none => new.map some

def setFlag (d : Draft) : Flag → Except Stop Draft
  | .verbose => if d.verbose then .error .misuse else .ok { d with verbose := true }
  | .force => if d.force then .error .misuse else .ok { d with force := true }
  | .version => .error .version
  | .help => .error .help
  | _ => .error .misuse

def setValue (d : Draft) (text : List Char) : Flag → Except Stop Draft
  | .config => return { d with config := ← once d.config (path? text) }
  | .format =>
      match Format.ofName? (String.ofList text) with
      | some f => return { d with format := ← once d.format (.ok f) }
      | none => .error .misuse
  | .rules => return { d with rules := ← once d.rules (.ok text) }
  | .exclude => .ok { d with excludes := d.excludes ++ [text] }
  | _ => .error .misuse

/-- Take the events of a command; `operands` says whether it has a path. -/
def fill (operands : Bool) (d : Draft) : List Event → Except Stop Draft
  | [] => .ok d
  | .flag f :: es => do (← d.setFlag f).fill operands es
  | .value f text :: es => do (← d.setValue text f).fill operands es
  | .operand text _ _ :: es => do
      let path ← if operands then once d.path (path? text) else throw .misuse
      fill operands { d with path } es
  | .wrong :: _ => .error .misuse

end Draft

/-- What the program is asked to do. -/
inductive Command where
  | check (path : Path) (format : Format) (rules : Option (List Char)) (excludes : List (List Char))
  | listRules
  | init (force : Bool)
  deriving DecidableEq, Repr

structure Invocation where
  verbose : Bool
  config : Option Path
  command : Command
  deriving DecidableEq, Repr

/-- Options that may stand before and after the name of the command. -/
def sharedFlags : List Flag := [.verbose, .config, .help]

/-- A command, with what stood before its name. What stands after the name wins. -/
def invocation (before after : Draft) (command : Command) : Invocation where
  verbose := before.verbose || after.verbose
  config := after.config.orElse fun _ => before.config
  command := command

/-- Read the arguments after the name of a command. -/
def readCommand (before : Draft) (name : List Char) (arguments : List (List Char)) :
    Except Stop Invocation := do
  match String.ofList name with
  | "check" =>
      let d ← ({} : Draft).fill true
        (events (sharedFlags ++ [.format, .rules, .exclude]) none arguments)
      return invocation before d
        (.check (d.path.getD ⟨['.']⟩) (d.format.getD .text) d.rules d.excludes)
  | "list-rules" =>
      let d ← ({} : Draft).fill false (events sharedFlags none arguments)
      return invocation before d .listRules
  | "init" =>
      let d ← ({} : Draft).fill false (events (sharedFlags ++ [.force]) none arguments)
      return invocation before d (.init d.force)
  | "help" =>
      let names := ["check".toList, "list-rules".toList, "init".toList, "help".toList]
      match arguments with
      | [] => throw .help
      | [topic] => if names.contains topic then throw .help else throw .misuse
      | _ => throw .misuse
  | _ => throw .misuse

/-- Take the events before the name of the command. -/
def readEvents (d : Draft) : List Event → Except Stop Invocation
  | [] => .error .misuse
  | .flag f :: es => do readEvents (← d.setFlag f) es
  | .value f text :: es => do readEvents (← d.setValue text f) es
  | .operand name arguments literal :: _ =>
      if literal then .error .misuse else readCommand d name arguments
  | .wrong :: _ => .error .misuse

/-- Read the arguments of the program. -/
def parse (arguments : List (List Char)) : Except Stop Invocation :=
  readEvents {} (events (sharedFlags ++ [.version]) none arguments)

end ScopeLint.CommandLine
