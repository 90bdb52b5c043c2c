/-!
Contract: the size of numbers as they are written.

A number is read as a whole number that fits 64 bits times a power of ten: once
the next digit does not fit, further digits only count. Both factors and their
product are rounded to double precision, and a number whose product has no finite
rounding is out of range.

Owns: the two factors of a written number and the test for its range.
-/

namespace FactoryProxy.Json

/-- A whole number times a power of ten. -/
structure Scaled where
  significand : Nat
  exponent : Int
deriving DecidableEq, Repr

namespace Scaled

def digitValue (digit : Char) : Nat := digit.toNat - '0'.toNat

/-- The number with one more digit, if it still fits. -/
def extended? (significand : Nat) (digit : Char) : Option Nat :=
  let next := 10 * significand + digitValue digit
  if next < Nat.pow 2 64 then some next else none

/-- The number behind the digits before the point. -/
def ofWhole (significand : Nat) : List Char → Scaled
  | [] => ⟨significand, 0⟩
  | digit :: rest =>
    match extended? significand digit with
    | some next => ofWhole next rest
    | none => ⟨significand, rest.length + 1⟩

/-- The number with digits behind the point. -/
def withFraction (scaled : Scaled) : List Char → Scaled
  | [] => scaled
  | digit :: rest =>
    match extended? scaled.significand digit with
    | some next => withFraction ⟨next, scaled.exponent - 1⟩ rest
    | none => scaled

/-- The rounding of a whole number to 53 binary digits, a tie to the even side. -/
def rounded (value : Nat) : Nat :=
  let excess := value.log2 - 52
  let unit := Nat.pow 2 excess
  let floor := value / unit
  let rest := value % unit
  let up := 2 * rest > unit || (2 * rest == unit && floor % 2 == 1)
  (if up then floor + 1 else floor) * unit

/-- The least magnitude that is rounded to infinity. -/
def bound : Nat := Nat.pow 2 1024 - Nat.pow 2 970

def isFinite (scaled : Scaled) : Bool :=
  scaled.significand == 0 || scaled.exponent < 0
    || (scaled.exponent ≤ 308
      && rounded scaled.significand * rounded (Nat.pow 10 scaled.exponent.toNat) < bound)

end Scaled

/-- The value of an exponent with its mark and its sign. -/
def exponentValue (characters : List Char) : Int :=
  let digits := characters.filter Char.isDigit
  let size : Nat := digits.foldl (fun value digit => 10 * value + Scaled.digitValue digit) 0
  if characters.contains '-' then -size else size

/-- The two factors of a number as it is written, its sign left out. -/
def scaledOf (number : List Char) : Scaled :=
  let digits := number.dropWhile (· == '-')
  let whole := digits.takeWhile Char.isDigit
  let behind := digits.drop whole.length
  let fraction := (behind.dropWhile (· == '.')).takeWhile Char.isDigit
  let scaled :=
    if behind.head? == some '.' then (Scaled.ofWhole 0 whole).withFraction fraction
    else Scaled.ofWhole 0 whole
  let exponent := behind.dropWhile (fun c => c != 'e' && c != 'E')
  ⟨scaled.significand, scaled.exponent + exponentValue exponent⟩

/-- A number as it is written is in range. -/
def isInRange (number : String) : Bool :=
  (scaledOf number.toList).isFinite

end FactoryProxy.Json
