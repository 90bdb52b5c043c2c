import FactoryProxy.Json.Magnitude

/-!
Contract: JSON values.

Owns: `Value`, its nesting depth and soundness, and the look-up of members.
-/

namespace FactoryProxy.Json

/-- A value; members of objects in order, repeated keys included. -/
inductive Value where
  | null
  | boolean (value : Bool)
  /-- A number as it is written. -/
  | number (digits : String)
  | text (text : String)
  /-- A text, or an object with a key, that holds one half of a surrogate pair,
  which stands for no character. -/
  | broken
  | list (elements : List Value)
  | object (members : List (String × Value))
deriving Repr

namespace Value

mutual

/-- How deep lists and objects are nested. -/
def depth : Value → Nat
  | list elements => depthOf elements + 1
  | object members => depthOfMembers members + 1
  | _ => 0

def depthOf : List Value → Nat
  | [] => 0
  | element :: rest => max element.depth (depthOf rest)

def depthOfMembers : List (String × Value) → Nat
  | [] => 0
  | (_, value) :: rest => max value.depth (depthOfMembers rest)

end

mutual

/-- All texts in the value stand for characters and all numbers are in range. -/
def isSound : Value → Bool
  | broken => false
  | number digits => isInRange digits
  | list elements => areSound elements
  | object members => membersAreSound members
  | _ => true

def areSound : List Value → Bool
  | [] => true
  | element :: rest => element.isSound && areSound rest

def membersAreSound : List (String × Value) → Bool
  | [] => true
  | (_, value) :: rest => value.isSound && membersAreSound rest

end

def text? : Value → Option String
  | text content => some content
  | _ => none

def elements? : Value → Option (List Value)
  | list elements => some elements
  | _ => none

def members? : Value → Option (List (String × Value))
  | object members => some members
  | _ => none

end Value

end FactoryProxy.Json
