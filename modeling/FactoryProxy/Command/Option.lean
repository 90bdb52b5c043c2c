import FactoryProxy.Settings.Resolved

/-!
Contract: arguments taken apart into options and plain arguments.

A short option is a dash and a letter; short flags may share one dash. A long
option is two dashes and a word. The value of an option stands in the same argument,
behind an equals sign or right behind the letter, or is the next argument. Two
dashes alone make all further arguments plain.

Owns: the options, which command knows which, and the taking apart.
Does not own: how often an option may be given and what a command does.
-/

namespace FactoryProxy.Command

inductive FlagName where
  | verbose
  | force
  | help
  | version
deriving DecidableEq, Repr

inductive ValueName where
  | config
  | parameter
  | scanFor
  | sourceDirectory
deriving DecidableEq, Repr

inductive OptionName where
  | flag (name : FlagName)
  | value (name : ValueName)
deriving DecidableEq, Repr

/-- Where options are given: before the command or behind it. -/
inductive Verb where
  | program
  | generate
  | resolve
  | index
  | init
deriving DecidableEq, Repr

/-- Why arguments make no command: they are wrong, or ask for a text instead. -/
inductive Stop where
  | usage
  | help
  | version
deriving DecidableEq, Repr

namespace Verb

def ofText? (name : String) : Option Verb :=
  match name with
  | "generate" => some generate
  | "resolve" => some resolve
  | "index" => some index
  | "init" => some init
  | _ => none

def readsSettings (verb : Verb) : Bool :=
  verb == generate || verb == resolve || verb == index

def knows (verb : Verb) : OptionName → Bool
  | .flag .verbose | .flag .help => true
  | .flag .force => verb == generate || verb == init
  | .flag .version => verb == program
  | .value _ => verb.readsSettings

/-- The command knows the option under a letter. -/
def knowsLetter (verb : Verb) : OptionName → Bool
  | .flag .force => verb == init
  | name => verb.knows name

end Verb

namespace OptionName

def ofLetter? (letter : Char) : Option OptionName :=
  match letter with
  | 'v' => some (.flag .verbose)
  | 'f' => some (.flag .force)
  | 'h' => some (.flag .help)
  | 'V' => some (.flag .version)
  | 'c' => some (.value .config)
  | 'p' => some (.value .parameter)
  | _ => none

def ofWord? (word : String) : Option OptionName :=
  match word with
  | "verbose" => some (.flag .verbose)
  | "force" => some (.flag .force)
  | "help" => some (.flag .help)
  | "version" => some (.flag .version)
  | "config" => some (.value .config)
  | "parameter" => some (.value .parameter)
  | "scan-for" => some (.value .scanFor)
  | "source-dir" => some (.value .sourceDirectory)
  | _ => none

/-- The option that a letter names in a command. -/
def byLetter (verb : Verb) (letter : Char) : Except Stop OptionName :=
  match (ofLetter? letter).filter verb.knowsLetter with
  | some name => .ok name
  | none => .error .usage

/-- The option that a word names in a command. -/
def byWord (verb : Verb) (word : String) : Except Stop OptionName :=
  match (ofWord? word).filter verb.knows with
  | some name => .ok name
  | none => .error .usage

end OptionName

inductive Given where
  | flag (name : FlagName)
  | value (name : ValueName) (text : String)
  | plain (text : String)
deriving DecidableEq, Repr

inductive Shape where
  | doubleDash
  | long (word : String) (attached : Option String)
  | short (letters : List Char)
  | plain
deriving DecidableEq, Repr

def shapeOf (argument : String) : Shape :=
  match argument.toList with
  | ['-', '-'] => .doubleDash
  | '-' :: '-' :: rest =>
    match Text.splitOnce '=' (String.ofList rest) with
    | some (word, attached) => .long word (some attached)
    | none => .long (String.ofList rest) none
  | '-' :: letter :: rest => .short (letter :: rest)
  | _ => .plain

/-- A flag that asks for a text ends the reading. -/
def flagGiven : FlagName → Except Stop Given
  | .help => .error .help
  | .version => .error .version
  | name => .ok (.flag name)

/-- What letters behind one dash give, and the option among them whose value is
the next argument. -/
def letters (verb : Verb) : List Char → Except Stop (List Given × Option ValueName)
  | [] => .ok ([], none)
  | letter :: rest => do
    match ← OptionName.byLetter verb letter with
    | .flag name =>
      let given ← flagGiven name
      let (others, pending) ← letters verb rest
      return (given :: others, pending)
    | .value name =>
      match rest with
      | [] => return ([], some name)
      | '=' :: value => return ([.value name (String.ofList value)], none)
      | value => return ([.value name (String.ofList value)], none)

/-- The value in the next argument, which must not look like an option. -/
def nextValue (arguments : List String) : Except Stop (String × List String) :=
  match arguments with
  | value :: rest => if shapeOf value = .plain then .ok (value, rest) else .error .usage
  | [] => .error .usage

/-- What the argument at the head gives and the arguments behind it. -/
def takeOne (verb : Verb) (argument : String) (rest : List String) :
    Except Stop (List Given × List String) :=
  match shapeOf argument with
  | .doubleDash => .ok (rest.map .plain, [])
  | .plain => .ok ([.plain argument], rest)
  | .long word attached => do
    match ← OptionName.byWord verb word, attached with
    | .flag name, none => return ([← flagGiven name], rest)
    | .flag _, some _ => throw .usage
    | .value name, some text => return ([.value name text], rest)
    | .value name, none =>
      let (text, rest) ← nextValue rest
      return ([.value name text], rest)
  | .short characters => do
    let (given, pending) ← letters verb characters
    match pending with
    | none => return (given, rest)
    | some name =>
      let (text, rest) ← nextValue rest
      return (given ++ [.value name text], rest)

/-- Everything that the arguments of a command give. Each step takes at least one
argument, so `count` may be the number of arguments. -/
def takeAll (verb : Verb) : (count : Nat) → List String → Except Stop (List Given)
  | _, [] => .ok []
  | 0, _ :: _ => .error .usage
  | count + 1, argument :: rest => do
    let (given, rest) ← takeOne verb argument rest
    let others ← takeAll verb count rest
    return given ++ others

end FactoryProxy.Command
