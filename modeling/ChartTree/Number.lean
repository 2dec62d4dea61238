/-! Double-precision numbers as plain data: a finite number is a sign and its rank among the magnitudes
that the format can hold, so comparing, rounding and printing are exact integer work. There is one NaN. -/
namespace ChartTree

/-- How many finite magnitudes binary64 has. The magnitude of rank `r` has the bit pattern `r`. -/
def ranks : Nat := 0x7FF0000000000000

def binade : Nat := 0x10000000000000

def signBit : Nat := 0x8000000000000000

inductive Number where
  | nan
  | infinite (negative : Bool)
  | finite (negative : Bool) (rank : Fin ranks)
  deriving DecidableEq, Repr

structure Grid where
  precision : Nat
  least : Int
  deriving DecidableEq, Repr

def Grid.double : Grid := ⟨53, -1074⟩
def Grid.single : Grid := ⟨24, -149⟩

def roundQuotient (num den : Nat) : Nat :=
  let low := num / den
  let twice := 2 * (num % den)
  if den < twice ∨ (twice = den ∧ low % 2 = 1) then low + 1 else low

def shiftFraction (num den : Nat) : Int → Nat × Nat
  | .ofNat k => (num * Nat.pow 2 k, den)
  | .negSucc k => (num, den * Nat.pow 2 (k + 1))

def fractionLog (num den : Nat) : Int :=
  let guess : Int := (num.log2 : Int) - (den.log2 : Int)
  let (n, d) := shiftFraction num den (-guess)
  if d ≤ n then guess else guess - 1

def Grid.round (g : Grid) (num den : Nat) : Nat × Int :=
  let step := max (fractionLog num den - (g.precision - 1 : Nat)) g.least
  let (n, d) := shiftFraction num den (-step)
  (roundQuotient n d, step)

namespace Number

/-- The rank nearest to a fraction; a rank past the last one means that the fraction is out of range. -/
def nearestRank (num den : Nat) : Nat :=
  if num = 0 then 0
  else
    let (significand, step) := Grid.double.round num den
    (step - Grid.double.least).toNat * binade + significand

def ofFraction? (negative : Bool) (num den : Nat) : Option Number :=
  if h : nearestRank num den < ranks then some (finite negative ⟨_, h⟩) else none

def zero (negative : Bool) : Number := finite negative ⟨0, by decide⟩

instance : Inhabited Number := ⟨zero false⟩

def ofInt (i : Int) : Number :=
  (ofFraction? (i < 0) i.natAbs 1).getD (infinite (i < 0))

def significand (rank : Nat) : Nat := if rank < binade then rank else binade + rank % binade

def exponent (rank : Nat) : Int := if rank < binade then -1074 else (rank / binade : Nat) - 1075

def fraction (rank : Nat) : Nat × Nat := shiftFraction (significand rank) 1 (exponent rank)

def isFinite : Number → Bool
  | finite .. => true
  | _ => false

def isNaN : Number → Bool
  | nan => true
  | _ => false

def same : Number → Number → Bool
  | finite a m, finite b n => m == n && (a == b || m.val == 0)
  | infinite a, infinite b => a == b
  | _, _ => false

def isExtent : Number → Bool
  | finite negative rank => !negative || rank.val == 0
  | _ => false

def toSingle : Number → Number
  | finite negative rank =>
    if rank.val = 0 then finite negative rank
    else
      let (num, den) := fraction rank.val
      let (significand, step) := Grid.single.round num den
      let (num, den) := shiftFraction significand 1 step
      if Nat.pow 2 128 * den ≤ num then infinite negative
      else (ofFraction? negative num den).getD (infinite negative)
  | n => n

def integer? : Number → Option Int
  | finite negative rank =>
    if negative && rank.val == 0 then none
    else
      let (num, den) := fraction rank.val
      if num % den = 0 then
        let magnitude : Int := (num / den : Nat)
        some (if negative then -magnitude else magnitude)
      else none
  | _ => none

def bits : Number → UInt64
  | nan => 0x7FF8000000000000
  | infinite negative => if negative then 0xFFF0000000000000 else 0x7FF0000000000000
  | finite negative rank => UInt64.ofNat (if negative then signBit + rank.val else rank.val)

def ofBits (word : UInt64) : Number :=
  let negative := decide (signBit ≤ word.toNat)
  let rank := word.toNat % signBit
  if h : rank < ranks then finite negative ⟨rank, h⟩
  else if rank = ranks then infinite negative
  else nan

theorem sameSelf (n : Number) : n.same n = !n.isNaN := by
  cases n <;> simp [same, isNaN]

theorem sameSymm (m n : Number) : m.same n = n.same m := by
  cases m <;> cases n <;> simp only [same] <;> grind

theorem ofBitsBits (n : Number) : ofBits n.bits = n := by
  cases n with
  | nan => rfl
  | infinite negative => cases negative <;> rfl
  | finite negative rank =>
    have bound : rank.val < 0x7FF0000000000000 := rank.isLt
    have word : (bits (finite negative rank)).toNat = if negative then signBit + rank.val else rank.val := by
      simp only [bits, signBit]
      rw [UInt64.toNat_ofNat']
      split <;> omega
    have low : (bits (finite negative rank)).toNat % signBit = rank.val := by
      rw [word]; simp only [signBit]; split <;> omega
    have sign : decide (signBit ≤ (bits (finite negative rank)).toNat) = negative := by
      rw [word]
      simp only [signBit]
      cases negative
      · simp only [Bool.false_eq_true, if_false, decide_eq_false_iff_not]; omega
      · simp only [if_true, decide_eq_true_eq]; omega
    simp only [ofBits, low, sign]
    exact dif_pos rank.isLt

end Number
end ChartTree
