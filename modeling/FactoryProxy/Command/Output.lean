import FactoryProxy.Failure
import FactoryProxy.Text.Join
import FactoryProxy.Text.Split

/-!
Contract: what a command leaves behind for its caller.

A failure is reported as an error with the chain of its causes. A single cause
stands alone; several are numbered.

Owns: `Output` and the text of failures.
-/

namespace FactoryProxy.Command

structure Output where
  code : Nat
  stdout : String
  stderr : String
deriving DecidableEq, Repr

namespace Output

def lines (texts : List String) : String :=
  Text.concat (texts.map (fun text => text ++ "\n"))

/-- Success with lines on the standard output. -/
def success (texts : List String) : Output :=
  ⟨0, lines texts, ""⟩

/-- A negative answer with lines on the standard output. -/
def negative (texts : List String) : Output :=
  ⟨1, lines texts, ""⟩

/-- The exit code for arguments that make no command. -/
def usageCode : Nat := 2

/-- A text whose further lines start with an indentation. -/
def indentLines (indent text : String) : String :=
  Text.joinWith ("\n" ++ indent) (Text.splitBy (· == '\n') text)

def ordinal (number : Nat) : String :=
  let digits := toString number
  String.ofList (List.replicate (5 - digits.length) ' ') ++ digits ++ ": "

def numbered (number : Nat) : List String → List String
  | [] => []
  | cause :: rest => (ordinal number ++ indentLines "       " cause) :: numbered (number + 1) rest

/-- The lines that name the causes of an error. -/
def causeLines : List String → List String
  | [] => []
  | [cause] => ["", "Caused by:", "    " ++ indentLines "    " cause]
  | causes => "" :: "Caused by:" :: numbered 0 causes

/-- The report of an error and its causes, outermost first. -/
def error (outer : String) (causes : List String) : Output :=
  ⟨1, "", lines (("Error: " ++ outer) :: causeLines causes)⟩

/-- The report of a failure, below what was being done if that is said. -/
def failure (context : Option String) (failure : Failure) : Output :=
  let causes := (failure.cause?.map IoFailure.message).toList
  match context with
  | some outer => error outer (failure.message :: causes)
  | none => error failure.message causes

end Output

end FactoryProxy.Command
