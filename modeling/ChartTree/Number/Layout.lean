import ChartTree.Number.Decimal

/-! How a finite number is laid out as text. The digits are the shortest ones; a layout says which
exponents are written positionally and how the rest looks. -/
namespace ChartTree

structure Layout where
  tie : Decimal.Tie
  positional : Int → Bool
  pointZero : Bool
  plusSign : Bool

namespace Layout

def json : Layout := ⟨.even, fun weight => -5 ≤ weight && weight ≤ 15, true, true⟩

def diagnostic : Layout := ⟨.larger, fun weight => -4 ≤ weight && weight ≤ 15, true, false⟩

def plain : Layout := ⟨.larger, fun _ => true, false, false⟩

def zeros (n : Nat) : List Char := List.replicate n '0'

def point (layout : Layout) (digits : List Char) (weight : Int) : List Char :=
  if weight < 0 then '0' :: '.' :: zeros (-weight - 1).toNat ++ digits
  else
    let whole := weight.toNat + 1
    if digits.length ≤ whole then
      digits ++ zeros (whole - digits.length) ++ (if layout.pointZero then ['.', '0'] else [])
    else digits.take whole ++ '.' :: digits.drop whole

def scientific (layout : Layout) (digits : List Char) (weight : Int) : List Char :=
  let head := match digits with
    | first :: next :: rest => first :: '.' :: next :: rest
    | short => short
  let sign := if weight < 0 then ['-'] else if layout.plusSign then ['+'] else []
  head ++ 'e' :: sign ++ Nat.toDigits 10 weight.natAbs

def magnitude (layout : Layout) (rank : Fin ranks) : List Char :=
  let d := Decimal.shortest layout.tie rank
  let digits := Nat.toDigits 10 d.digits
  let weight := d.exponent + digits.length - 1
  if layout.positional weight then layout.point digits weight else layout.scientific digits weight

def finite (layout : Layout) (negative : Bool) (rank : Fin ranks) : List Char :=
  if negative then '-' :: layout.magnitude rank else layout.magnitude rank

def named (layout : Layout) : Number → String
  | .nan => "NaN"
  | .infinite negative => if negative then "-inf" else "inf"
  | .finite negative rank => String.ofList (layout.finite negative rank)

end Layout
end ChartTree
