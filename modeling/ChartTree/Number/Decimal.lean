import ChartTree.Number

/-! Decimal notations of numbers: a notation is read as the nearest number, and a number is written with
the fewest digits that read back as it. -/
namespace ChartTree

structure Decimal where
  digits : Nat
  exponent : Int
  deriving DecidableEq, Repr

namespace Decimal

def strip (digits : Nat) (exponent : Int) : Decimal :=
  if digits = 0 then ⟨0, 0⟩
  else if digits % 10 = 0 then strip (digits / 10) (exponent + 1)
  else ⟨digits, exponent⟩
termination_by digits

def normal (d : Decimal) : Decimal := strip d.digits d.exponent

def fraction (d : Decimal) : Nat × Nat :=
  match d.exponent with
  | .ofNat k => (d.digits * Nat.pow 10 k, 1)
  | .negSucc k => (d.digits, Nat.pow 10 (k + 1))

/- An exponent above 400 is out of range unless all digits are zero. The second test says that the
magnitude is below 2 ^ -1076, which is nearest to zero: the digits are below 2 ^ (log2 + 1), and a negative
power of ten is below the same power of eight. Both are decided before any power of ten is computed. -/
def tooLarge (d : Decimal) : Bool := d.digits != 0 && decide (400 < d.exponent)

def tooSmall (d : Decimal) : Bool :=
  d.digits == 0 || decide (d.digits.log2 + 1077 ≤ 3 * (-d.exponent).toNat)

def toNumber? (negative : Bool) (d : Decimal) : Option Number :=
  let d := d.normal
  if d.tooLarge then none
  else if d.tooSmall then some (.zero negative)
  else Number.ofFraction? negative d.fraction.1 d.fraction.2

/-- How many digits of a notation are told apart. No point halfway between two neighbouring numbers has more. -/
def digitLimit : Nat := 768

def significant (whole decimals : List Char) : List Char :=
  (whole ++ decimals).dropWhile (· == '0')

def withoutLastZeros (ds : List Char) : List Char := (ds.reverse.dropWhile (· == '0')).reverse

/-- The magnitude of a whole part with decimals, times a power of ten. A notation with more digits than the
limit is taken as lying just above its first ones: a single digit 1 stands for all the others, be they zeros
or not. So a whole part that is long by its zeros alone does not count as halfway. -/
def ofDigits (whole decimals : List Char) (exponent : Int) : Decimal :=
  let kept := withoutLastZeros decimals
  let ds := significant whole kept
  if ds.length ≤ digitLimit then ⟨Nat.ofDigitChars 10 (whole ++ decimals) 0, exponent - decimals.length⟩
  else
    ⟨Nat.ofDigitChars 10 (ds.take digitLimit ++ ['1']) 0,
      exponent - kept.length + (ds.length - digitLimit - 1 : Nat)⟩

inductive Tie where
  | even
  | larger
  deriving DecidableEq, Repr

def places (n : Nat) : Nat := (Nat.toDigits 10 n).length

def scale (num den : Nat) : Int :=
  if den ≤ num then places (num / den) else 1 - (places ((den - 1) / num) : Int)

def readsBack (rank : Fin ranks) (d : Decimal) : Bool := d.toNumber? false == some (.finite false rank)

def neighbours (tie : Tie) (num den : Nat) (step : Int) : Decimal × Decimal :=
  let (n, d) := match step with
    | .ofNat k => (num, den * Nat.pow 10 k)
    | .negSucc k => (num * Nat.pow 10 (k + 1), den)
  let low := n / d
  let twice := 2 * (n % d)
  let below : Decimal := ⟨low, step⟩
  let above : Decimal := ⟨low + 1, step⟩
  let lowFirst := decide (twice < d) || (decide (twice = d) && tie == .even && low % 2 == 0)
  if lowFirst then (below, above) else (above, below)

def withDigits? (tie : Tie) (rank : Fin ranks) (count : Nat) : Option Decimal :=
  let (num, den) := Number.fraction rank.val
  let (near, far) := neighbours tie num den (scale num den - count)
  if readsBack rank near then some near.normal
  else if readsBack rank far then some far.normal
  else none

def exact (rank : Nat) : Decimal :=
  match Number.exponent rank with
  | .ofNat k => normal ⟨Number.significand rank * Nat.pow 2 k, 0⟩
  | .negSucc k => normal ⟨Number.significand rank * Nat.pow 5 (k + 1), .negSucc k⟩

def shortest (tie : Tie) (rank : Fin ranks) : Decimal :=
  if rank.val = 0 then ⟨0, 0⟩
  else ((List.range 17).findSome? fun i => withDigits? tie rank (i + 1)).getD (exact rank.val)

end Decimal
end ChartTree
