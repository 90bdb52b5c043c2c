import FactoryProxy.Command.Option

/-!
Contract: the commands that arguments ask for.

The arguments before the first plain one belong to the program, which knows no
options that change what is done; the plain one names the command. An option that
sets one thing is given at most once.

Owns: `Request`, the options of the commands and their reading.
-/

namespace FactoryProxy.Command

/-- Where settings come from and what is added to them. -/
structure Source where
  explicit : Option Path
  overrides : List (String × String)
  contribution : Contribution
deriving DecidableEq, Repr

inductive Request where
  | generate (source : Source) (force : Bool)
  | resolve (source : Source) (typeName : String)
  | index (source : Source)
  | init (force : Bool)
deriving DecidableEq, Repr

/-- A text that is no key and value. -/
structure ParameterFailure where
  raw : String
deriving DecidableEq, Repr

namespace ParameterFailure

def message (failure : ParameterFailure) : String :=
  "expected KEY=VALUE, got '" ++ failure.raw ++ "'"

end ParameterFailure

/-- A key, which is not blank, and a value around the first equals sign. -/
def parseParameter (raw : String) : Except ParameterFailure (String × String) :=
  match Text.splitOnce '=' raw with
  | some (key, value) =>
    if (Text.trimBlank key).isEmpty then .error ⟨raw⟩ else .ok (Text.trimBlank key, value)
  | none => .error ⟨raw⟩

/-- The values given for an option, in order. -/
def valuesOf (name : ValueName) (given : List Given) : List String :=
  given.filterMap fun item =>
    match item with
    | .value actual text => if actual = name then some text else none
    | _ => none

def plainOf (given : List Given) : List String :=
  given.filterMap fun item =>
    match item with
    | .plain text => some text
    | _ => none

/-- Whether the flag is given, which may happen once. -/
def forceOf (given : List Given) : Except Stop Bool :=
  match given.count (.flag .force) with
  | 0 => .ok false
  | 1 => .ok true
  | _ => .error .usage

/-- The settings file that is given once, or else the one of the environment. The
empty text is no file. -/
def explicitOf (given : List Given) (environment : Option String) :
    Except Stop (Option Path) :=
  let candidates :=
    match valuesOf .config given with
    | [] => environment.toList
    | values => values
  match candidates with
  | [] => .ok none
  | [text] => if text.isEmpty then .error .usage else .ok (some ⟨text⟩)
  | _ => .error .usage

def sourceOf (given : List Given) (environment : Option String) : Except Stop Source := do
  let explicit ← explicitOf given environment
  let overrides ← (valuesOf .parameter given).mapM (fun raw =>
    (parseParameter raw).mapError (fun _ => Stop.usage))
  return ⟨explicit, overrides, ⟨valuesOf .scanFor given, valuesOf .sourceDirectory given⟩⟩

/-- The request of a command with its arguments. -/
def requestOf (verb : Verb) (given : List Given) (environment : Option String) :
    Except Stop Request := do
  match verb, plainOf given with
  | .generate, [] => return .generate (← sourceOf given environment) (← forceOf given)
  | .resolve, [typeName] => return .resolve (← sourceOf given environment) typeName
  | .index, [] => return .index (← sourceOf given environment)
  | .init, [] => return .init (← forceOf given)
  | _, _ => throw .usage

/-- The request that all arguments of the program make. -/
def parse (environment : Option String) : List String → Except Stop Request
  | [] => .error .usage
  | argument :: rest =>
    match shapeOf argument with
    | .doubleDash => .error .usage
    | .plain =>
      if argument = "help" then .error .help
      else
        match Verb.ofText? argument with
        | none => .error .usage
        | some verb => do
          let given ← takeAll verb rest.length rest
          requestOf verb given environment
    | _ => do
      let _ ← takeOne .program argument []
      parse environment rest

end FactoryProxy.Command
