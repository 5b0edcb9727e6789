/-!
The arguments of a command line. Options and the name of a command stand in any order; what follows
the name belongs to the command. An option takes its value from the same argument or from the next
one. What an option was given is looked at only when the next option comes or the arguments end, so
that is when a missing value or a second one is noticed.
-/

namespace Datamodel

/-- The options that take a value. -/
inductive Parameter where
  | config
  | plan
  | tenant
  | output
  deriving DecidableEq, Repr

namespace Parameter

def long : Parameter → String
  | config => "config"
  | plan => "plan"
  | tenant => "tenant"
  | output => "output"

def short : Parameter → Char
  | config => 'c'
  | plan => 'p'
  | tenant => 't'
  | output => 'o'

/-- Whether the value of an option is a path, which is not empty. -/
def isPath : Parameter → Bool
  | tenant => false
  | _ => true

end Parameter

inductive CommandName where
  | generate
  | print
  | validate
  | version
  deriving DecidableEq, Repr

namespace CommandName

def names : List (String × CommandName) :=
  [("generate", generate), ("print", print), ("validate", validate), ("version", version)]

def parameters : CommandName → List Parameter
  | generate => [.config, .plan, .tenant, .output]
  | print => [.config, .plan]
  | validate => [.config, .plan]
  | version => [.config]

/-- The command that explains the others. -/
def help : String :=
  "help"

end CommandName

/-- Why arguments do not lead to a command: they ask for an explanation, or they are wrong. -/
inductive UsageStop where
  | displayHelp
  | displayVersion
  | nothingGiven
  | unknownCommand
  | missingCommand
  | missingParameter
  | unknownArgument
  | missingValue
  | surplusValue
  | repeatedParameter
  deriving DecidableEq, Repr

namespace UsageStop

/-- The exit code: explanations that were asked for are no failures. -/
def exitCode : UsageStop → Nat
  | displayHelp => 0
  | displayVersion => 0
  | _ => 2

end UsageStop

inductive Action where
  | generate (plan tenant : String) (output : Option String)
  | print (plan : String)
  | validate (plan : String)
  | version
  deriving DecidableEq, Repr

/-- What is to be done, and the file of settings that is asked for. -/
structure Invocation where
  config : Option String
  action : Action
  deriving DecidableEq, Repr

namespace Arguments

/-- An argument by its form: options, the mark after which there are none, or a word. -/
inductive Token where
  | long (name : List Char) (value : Option String)
  | short (letter : Char) (rest : List Char)
  | escape
  | word
  deriving DecidableEq, Repr

/-- The text after the equals sign that a text starts with. -/
def afterEquals? (cs : List Char) : Option String :=
  match cs with
  | '=' :: value => some (String.ofList value)
  | _ => none

/-- The form of an argument. -/
def Token.ofText (argument : String) : Token :=
  match argument.toList with
  | ['-', '-'] => .escape
  | '-' :: '-' :: cs => .long (cs.takeWhile (· ≠ '=')) (afterEquals? (cs.dropWhile (· ≠ '=')))
  | '-' :: letter :: rest => .short letter rest
  | _ => .word

/-- The options seen so far at one level: those that have been looked at, and the last one, which
may still wait for its value. -/
structure Progress where
  given : List (Parameter × String) := []
  last : Option (Parameter × Option String) := none
  deriving DecidableEq, Repr

namespace Progress

def accept (s : Progress) (p : Parameter) (value : String) : Except UsageStop Progress :=
  if (s.given.lookup p).isSome then .error .repeatedParameter
  else if p.isPath && value == "" then .error .missingValue
  else .ok { s with given := (p, value) :: s.given }

def settle (s : Progress) : Except UsageStop Progress :=
  match s.last with
  | none => .ok s
  | some (_, none) => .error .missingValue
  | some (p, some value) => accept { s with last := none } p value

/-- Takes an option, with its value if that is in the same argument. -/
def take (s : Progress) (p : Parameter) (value : Option String) : Except UsageStop Progress := do
  let s ← s.settle
  match value with
  | some value => s.accept p value
  | none => return { s with last := some (p, none) }

def stop (s : Progress) (reason : UsageStop) : Except UsageStop Progress := do
  let _ ← s.settle
  throw reason

def takeLong (s : Progress) (known : List Parameter) (name : List Char) (value : Option String) :
    Except UsageStop Progress :=
  match known.find? fun p => p.long.toList = name with
  | some p => s.take p value
  | none =>
    let explanation : Option UsageStop :=
      if name = "help".toList then some .displayHelp
      else if name = "version".toList then some .displayVersion
      else none
    match explanation, value with
    | some reason, none => s.stop reason
    | some _, some _ => .error .surplusValue
    | none, _ => .error .unknownArgument

/-- Takes an option by its letter. What follows in the same argument is its value, with or without
an equals sign. -/
def takeShort (s : Progress) (known : List Parameter) (letter : Char) (rest : List Char) :
    Except UsageStop Progress :=
  match known.find? fun p => p.short = letter with
  | some p =>
    s.take p (if rest.isEmpty then none else (afterEquals? rest).or (some (String.ofList rest)))
  | none =>
    if letter = 'h' then s.stop .displayHelp
    else if letter = 'V' then s.stop .displayVersion
    else .error .unknownArgument

end Progress

/-- Reads options and stops at the first word that is not the value of one: at the end, the word
and what follows it are left. `known` are the options, and `stray` is the reason to stop at a word
after the mark. -/
def readOptions (known : List Parameter) (stray : String → UsageStop) (s : Progress) :
    List String → Except UsageStop (Progress × List String)
  | [] => .ok (s, [])
  | argument :: rest =>
    match Token.ofText argument with
    | .long name value => do
      let s ← s.takeLong known name value
      readOptions known stray s rest
    | .short letter more => do
      let s ← s.takeShort known letter more
      readOptions known stray s rest
    | .escape =>
      match rest with
      | [] => .ok (s, [])
      | word :: _ => .error (stray word)
    | .word =>
      match s.last with
      | some (p, none) => readOptions known stray { s with last := some (p, some argument) } rest
      | _ => .ok (s, argument :: rest)

def actionOf (name : CommandName) (given : List (Parameter × String)) : Option Action :=
  match name with
  | .generate => do
    let plan ← given.lookup .plan
    let tenant ← given.lookup .tenant
    return .generate plan tenant (given.lookup .output)
  | .print => .print <$> given.lookup .plan
  | .validate => .validate <$> given.lookup .plan
  | .version => some .version

def readCommand (name : CommandName) (arguments : List String) : Except UsageStop Invocation := do
  let (s, rest) ← readOptions name.parameters (fun _ => .unknownArgument) {} arguments
  if !rest.isEmpty then throw .unknownArgument
  let s ← s.settle
  match actionOf name s.given with
  | some action => return ⟨s.given.lookup .config, action⟩
  | none => throw .missingParameter

def isCommand (word : String) : Bool :=
  word == CommandName.help || (CommandName.names.lookup word).isSome

/-- Reads what follows the request for help: nothing, or the name of a command. -/
def readHelp (arguments : List String) : UsageStop :=
  match arguments with
  | [] => .displayHelp
  | [word] => if isCommand word then .displayHelp else .unknownCommand
  | _ => .unknownCommand

/-- Reads the arguments of a program. A command is read before the options in front of it are
settled; settings that are asked for behind the name of a command go before those in front. -/
def read (arguments : List String) : Except UsageStop Invocation := do
  let stray word := if isCommand word then .unknownArgument else .unknownCommand
  let (s, rest) ← readOptions [.config] stray {} arguments
  match rest with
  | [] =>
    let s ← s.settle
    throw (if s.given.isEmpty then .nothingGiven else .missingCommand)
  | word :: others =>
    if word = CommandName.help then throw (readHelp others)
    match CommandName.names.lookup word with
    | none => throw .unknownCommand
    | some name =>
      let invocation ← readCommand name others
      let s ← s.settle
      return { invocation with config := invocation.config.or (s.given.lookup .config) }

end Arguments

end Datamodel
