import ChartTree.Json.Token
import ChartTree.Proofs.Number.Shortest
import Mathlib.Tactic.Ring

/-! The text of a finite number is read back as that number. A text is spelled as a whole part, decimals
and a power of ten, and reading a spelling gives the notation that it spells. -/
namespace ChartTree

def AllDigits (ds : List Char) : Prop := ∀ c ∈ ds, c.isDigit

namespace Decimal

section
variable {c : Char} {ds : List Char}

theorem digitsLess (all : AllDigits ds) : Nat.ofDigitChars 10 ds 0 < 10 ^ ds.length := by
  induction ds with
  | nil => exact Nat.one_pos
  | cons c ds ih =>
    have rest := ih fun c inside => all c (List.mem_cons_of_mem _ inside)
    have digit : c.toNat ≤ 57 := (Char.isDigit_iff_toNat.mp (all c List.mem_cons_self)).2
    rw [Nat.ofDigitChars_cons, Nat.ofDigitChars_eq_ofDigitChars_zero, List.length_cons, Nat.pow_succ]
    have value : 10 * 0 + (c.toNat - '0'.toNat) ≤ 9 := by
      change 10 * 0 + (c.toNat - 48) ≤ 9
      omega
    have first := Nat.mul_le_mul_left (10 ^ ds.length) value
    omega

theorem digitsLeast (digit : c.isDigit) (notZero : c ≠ '0') :
    10 ^ ds.length ≤ Nat.ofDigitChars 10 (c :: ds) 0 := by
  have least : 48 ≤ c.toNat := (Char.isDigit_iff_toNat.mp digit).1
  have other : c.toNat ≠ 48 := fun zero => notZero (Char.ext (UInt32.toNat_inj.mp zero))
  have value : 1 ≤ 10 * 0 + (c.toNat - '0'.toNat) := by
    change 1 ≤ 10 * 0 + (c.toNat - 48)
    omega
  rw [Nat.ofDigitChars_cons, Nat.ofDigitChars_eq_ofDigitChars_zero]
  exact (Nat.le_mul_of_pos_right _ value).trans (Nat.le_add_right _ _)

theorem leadingZero (ds : List Char) : Nat.ofDigitChars 10 ('0' :: ds) 0 = Nat.ofDigitChars 10 ds 0 :=
  Nat.ofDigitChars_cons

theorem dropLeadingZeros (ds : List Char) :
    Nat.ofDigitChars 10 (ds.dropWhile (· == '0')) 0 = Nat.ofDigitChars 10 ds 0 := by
  induction ds with
  | nil => rfl
  | cons c ds ih =>
    rw [List.dropWhile_cons]
    split
    · rename_i zero
      rw [ih, beq_iff_eq.mp zero, leadingZero]
    · rfl

theorem significantShort {k : Nat} (all : AllDigits ds) (small : Nat.ofDigitChars 10 ds 0 < 10 ^ k) :
    (ds.dropWhile (· == '0')).length ≤ k := by
  rw [← dropLeadingZeros] at small
  cases kept : ds.dropWhile (· == '0') with
  | nil => exact Nat.zero_le k
  | cons c rest =>
    have first : (ds.dropWhile (· == '0')).head? = some c := by rw [kept, List.head?_cons]
    have other := List.head?_dropWhile_not (· == '0') ds
    rw [first] at other
    have inside : c ∈ ds := (List.dropWhile_sublist (· == '0')).subset (List.mem_of_head? first)
    rw [kept] at small
    have least := (digitsLeast (all c inside) (beq_eq_false_iff_ne.mp other)).trans_lt small
    exact (Nat.pow_lt_pow_iff_right (by decide)).mp least

theorem withoutLastZerosPrefix (ds : List Char) : withoutLastZeros ds <+: ds := by
  have suffix' := List.reverse_prefix.mpr (List.dropWhile_suffix (· == '0') (l := ds.reverse))
  rwa [List.reverse_reverse] at suffix'

theorem significantMono (whole : List Char) {kept decimals : List Char} (first : kept <+: decimals) :
    (significant whole kept).length ≤ (significant whole decimals).length := by
  obtain ⟨more, rfl⟩ := first
  unfold significant
  rw [← List.append_assoc, @List.dropWhile_append _ _ (whole ++ kept)]
  split
  · rename_i zeros
    rw [List.isEmpty_iff.mp zeros]
    exact Nat.zero_le _
  · rw [List.length_append]
    exact Nat.le_add_right _ _

theorem ofDigitsShort {whole decimals : List Char} (exponent : Int) (all : AllDigits (whole ++ decimals))
    (small : Nat.ofDigitChars 10 (whole ++ decimals) 0 < 10 ^ digitLimit) :
    ofDigits whole decimals exponent =
      ⟨Nat.ofDigitChars 10 (whole ++ decimals) 0, exponent - decimals.length⟩ :=
  if_pos ((significantMono whole (withoutLastZerosPrefix decimals)).trans (significantShort all small))

theorem toDigitsHead {n : Nat} (positive : 0 < n) : (Nat.toDigits 10 n).head? ≠ some '0' := by
  intro head
  cases written : Nat.toDigits 10 n with
  | nil => exact Nat.toDigits_ne_nil written
  | cons c ds =>
    rw [written] at head
    cases head
    have value : Nat.ofDigitChars 10 ds 0 = n := by
      rw [← leadingZero, ← written]
      exact Nat.ofDigitChars_ten_toDigits
    cases ds with
    | nil => exact positive.ne value
    | cons next rest =>
      have less : Nat.ofDigitChars 10 (next :: rest) 0 < _ := digitsLess fun c inside =>
        Nat.isDigit_of_mem_toDigits (by decide) (by decide) (written ▸ List.mem_cons_of_mem '0' inside)
      rw [value] at less
      have short := (Nat.length_toDigits_le_iff (by decide) (Nat.succ_pos _)).mpr less
      rw [written] at short
      exact Nat.not_succ_le_self _ short

end
end Decimal

namespace Json

def Ends (rest : List Char) : Prop :=
  ∀ c ∈ rest.head?, c.isDigit = false ∧ c ≠ '.' ∧ c ≠ 'e' ∧ c ≠ 'E'

structure Whole (ds : List Char) : Prop where
  nonempty : ds ≠ []
  digits : AllDigits ds
  noLeadingZero : ds.head? = some '0' → ds = ['0']

inductive Decimals : List Char → List Char → Prop where
  | none : Decimals [] []
  | point {ds : List Char} (nonempty : ds ≠ []) (digits : AllDigits ds) : Decimals ('.' :: ds) ds

inductive Power : List Char → Int → Prop where
  | none : Power [] 0
  | plus {ds : List Char} (nonempty : ds ≠ []) (digits : AllDigits ds) :
      Power ('e' :: '+' :: ds) (Nat.ofDigitChars 10 ds 0)
  | minus {ds : List Char} (nonempty : ds ≠ []) (digits : AllDigits ds) :
      Power ('e' :: '-' :: ds) (-(Nat.ofDigitChars 10 ds 0 : Int))

inductive Spells (d : Decimal) : List Char → Prop where
  | parts {whole point decimals power : List Char} {exponent : Int} (first : Whole whole)
      (middle : Decimals point decimals) (last : Power power exponent)
      (value : (Decimal.ofDigits whole decimals exponent).value = d.value) : Spells d (whole ++ point ++ power)

section
variable {rest : List Char}

theorem digitsRead {ds : List Char} (nonempty : ds ≠ []) (all : AllDigits ds)
    (stop : ∀ c ∈ rest.head?, c.isDigit = false) : digits? (ds ++ rest) = some (ds, rest) := by
  have stopped : rest.takeWhile Char.isDigit = [] ∧ rest.dropWhile Char.isDigit = rest := by
    cases rest with
    | nil => exact ⟨rfl, rfl⟩
    | cons c rest =>
      have other : ¬ c.isDigit := by rw [stop c rfl]; exact Bool.false_ne_true
      exact ⟨List.takeWhile_cons_of_neg other, List.dropWhile_cons_of_neg other⟩
  have cutting : digits (ds ++ rest) = (ds, rest) := by
    rw [digits, List.takeWhile_append_of_pos all, List.dropWhile_append_of_pos all, stopped.1, stopped.2,
      List.append_nil]
  rw [digits?, cutting, if_neg (by rwa [List.isEmpty_iff])]

theorem wholeRead {ds : List Char} (whole : Whole ds) (stop : ∀ c ∈ rest.head?, c.isDigit = false) :
    whole? (ds ++ rest) = some (ds, rest) := by
  rw [whole?, digitsRead whole.nonempty whole.digits stop]
  exact if_neg fun leading => leading.2 (whole.noLeadingZero leading.1)

theorem decimalsRead {point ds : List Char} (decimals : Decimals point ds)
    (stop : ∀ c ∈ rest.head?, c.isDigit = false ∧ c ≠ '.') : decimals? (point ++ rest) = some (ds, rest) := by
  cases decimals with
  | none =>
    rw [List.nil_append]
    unfold decimals?
    split
    · exact absurd rfl (stop '.' rfl).2
    · rfl
  | point nonempty all => exact digitsRead nonempty all fun c head => (stop c head).1

theorem powerRead {power : List Char} {exponent : Int} (spelled : Power power exponent) (ends : Ends rest) :
    exponent? (power ++ rest) = some (exponent, rest) := by
  have stop : ∀ c ∈ rest.head?, c.isDigit = false := fun c head => (ends c head).1
  cases spelled with
  | none =>
    rw [List.nil_append]
    unfold exponent?
    split
    · exact absurd rfl (ends 'e' rfl).2.2.1
    · exact absurd rfl (ends 'E' rfl).2.2.2
    · rfl
  | plus nonempty all => simp [exponent?, signedExponent?, digitsRead nonempty all stop]
  | minus nonempty all => simp [exponent?, signedExponent?, digitsRead nonempty all stop]

theorem spelledReads {text : List Char} {d : Decimal} (negative : Bool) (spelled : Spells d text)
    (ends : Ends rest) : magnitude? negative (text ++ rest) = (d.toNumber? negative).map (·, rest) := by
  obtain ⟨first, middle, last, value⟩ := spelled
  rename_i whole point decimals power exponent
  have afterPoint : ∀ c ∈ (power ++ rest).head?, c.isDigit = false ∧ c ≠ '.' := by
    cases last with
    | none => exact fun c head => ⟨(ends c head).1, (ends c head).2.1⟩
    | plus | minus => rintro c ⟨⟩; decide
  have afterWhole : ∀ c ∈ (point ++ (power ++ rest)).head?, c.isDigit = false := by
    cases middle with
    | none => exact fun c head => (afterPoint c head).1
    | point => rintro c ⟨⟩; decide
  rw [List.append_assoc, List.append_assoc, magnitude?, wholeRead first afterWhole,
    ← Decimal.toNumberSame negative value]
  simp only [Option.bind_eq_bind, Option.bind_some, decimalsRead middle afterPoint, powerRead last ends]
  cases (Decimal.ofDigits whole decimals exponent).toNumber? negative <;> rfl

end

section
variable {d : Decimal}

theorem writtenDigits (n : Nat) : AllDigits (Nat.toDigits 10 n) := fun _ inside =>
  Nat.isDigit_of_mem_toDigits (by decide) (by decide) inside

theorem zerosDigits (n : Nat) : AllDigits (Layout.zeros n) := fun c inside => by
  rw [List.eq_of_mem_replicate inside]
  rfl

theorem zerosLength (n : Nat) : (Layout.zeros n).length = n := List.length_replicate

theorem zerosValue (n init : Nat) : Nat.ofDigitChars 10 (Layout.zeros n) init = 10 ^ n * init :=
  Nat.ofDigitChars_replicate_zero

theorem appendDigits {xs ys : List Char} (left : AllDigits xs) (right : AllDigits ys) :
    AllDigits (xs ++ ys) := fun c inside =>
  (List.mem_append.mp inside).elim (left c) (right c)

theorem digitWhole {c : Char} (digit : c.isDigit) : Whole [c] where
  nonempty := List.cons_ne_nil c []
  digits _ inside := List.mem_singleton.mp inside ▸ digit
  noLeadingZero zero := by cases zero; rfl

theorem zeroWhole : Whole ['0'] := digitWhole rfl

theorem positiveWhole {n : Nat} (positive : 0 < n) {ds : List Char} (all : AllDigits ds)
    (first : ds.head? = (Nat.toDigits 10 n).head?) : Whole ds where
  nonempty none := Nat.toDigits_ne_nil (List.head?_eq_none_iff.mp (first.symm.trans (none ▸ rfl)))
  digits := all
  noLeadingZero zero := absurd (first.symm.trans zero) (Decimal.toDigitsHead positive)

theorem spells {text whole point decimals power : List Char} {exponent : Int} (first : Whole whole)
    (middle : Decimals point decimals) (last : Power power exponent) (same : text = whole ++ point ++ power)
    (small : Nat.ofDigitChars 10 (whole ++ decimals) 0 < 10 ^ Decimal.digitLimit)
    (value : (Nat.ofDigitChars 10 (whole ++ decimals) 0 * 10 ^ (exponent - decimals.length) : ℚ) = d.value) :
    Spells d text := by
  have digits : AllDigits decimals := by
    cases middle with
    | none => exact fun c inside => absurd inside List.not_mem_nil
    | point nonempty all => exact all
  rw [same]
  refine .parts first middle last ?_
  rw [Decimal.ofDigitsShort exponent (appendDigits first.digits digits) small]
  exact value

theorem belowSpells (n : Nat) (small : d.digits < 10 ^ Decimal.digitLimit)
    (exponent : d.exponent = -(n + (Nat.toDigits 10 d.digits).length : Int)) :
    Spells d ('0' :: '.' :: Layout.zeros n ++ Nat.toDigits 10 d.digits) := by
  have value : Nat.ofDigitChars 10 (['0'] ++ (Layout.zeros n ++ Nat.toDigits 10 d.digits)) 0 = d.digits := by
    rw [List.singleton_append, Decimal.leadingZero, Nat.ofDigitChars_append, zerosValue, Nat.mul_zero,
      Nat.ofDigitChars_ten_toDigits]
  have decimals : Decimals ('.' :: Layout.zeros n ++ Nat.toDigits 10 d.digits)
      (Layout.zeros n ++ Nat.toDigits 10 d.digits) :=
    .point (List.append_ne_nil_of_right_ne_nil (Layout.zeros n) Nat.toDigits_ne_nil)
      (appendDigits (zerosDigits n) (writtenDigits d.digits))
  refine spells zeroWhole decimals .none (List.append_nil _).symm (value.symm ▸ small) ?_
  rw [value, Decimal.value, exponent, List.length_append, zerosLength]
  congr 2
  omega

theorem integerSpells (n : Nat) (normal : d.Normal) (short : (Nat.toDigits 10 d.digits).length + n ≤ 16)
    (exponent : d.exponent = n) : Spells d (Nat.toDigits 10 d.digits ++ Layout.zeros n ++ ['.', '0']) := by
  have all : AllDigits (Nat.toDigits 10 d.digits ++ Layout.zeros n) :=
    appendDigits (writtenDigits d.digits) (zerosDigits n)
  have whole : Whole (Nat.toDigits 10 d.digits ++ Layout.zeros n) := by
    rcases Nat.eq_zero_or_pos d.digits with zero | positive
    · rw [Decimal.normalZero normal zero] at exponent ⊢
      cases Int.ofNat_eq_zero.mp exponent.symm
      exact zeroWhole
    · exact positiveWhole positive all (List.head?_append_of_ne_nil _ Nat.toDigits_ne_nil)
  have zero : Decimals ['.', '0'] ['0'] := .point (List.cons_ne_nil '0' []) (zerosDigits 1)
  refine spells whole zero .none (List.append_nil _).symm ?_ ?_
  · have less := Decimal.digitsLess (appendDigits all (zerosDigits 1))
    refine less.trans_le (Nat.pow_le_pow_right (by decide) ?_)
    rw [List.length_append, List.length_append, zerosLength, zerosLength, Decimal.digitLimit]
    omega
  · have value : Nat.ofDigitChars 10 (Nat.toDigits 10 d.digits ++ Layout.zeros n ++ ['0']) 0 =
        10 * (10 ^ n * d.digits) := by
      rw [Nat.ofDigitChars_append, Nat.ofDigitChars_append, zerosValue, Nat.ofDigitChars_ten_toDigits]
      exact zerosValue 1 _
    rw [value, Decimal.value, exponent, List.length_singleton, zpow_natCast]
    push_cast
    norm_num
    ring

theorem splitSpells {n : Nat} (small : d.digits < 10 ^ Decimal.digitLimit) (nonempty : 0 < n)
    (inside : n < (Nat.toDigits 10 d.digits).length)
    (exponent : d.exponent = n - ((Nat.toDigits 10 d.digits).length : Int)) :
    Spells d ((Nat.toDigits 10 d.digits).take n ++ '.' :: (Nat.toDigits 10 d.digits).drop n) := by
  have positive : 0 < d.digits := by
    rcases Nat.eq_zero_or_pos d.digits with zero | positive
    · rw [zero, Nat.toDigits_zero, List.length_singleton] at inside
      omega
    · exact positive
  have all := writtenDigits d.digits
  have whole : Whole ((Nat.toDigits 10 d.digits).take n) :=
    positiveWhole positive (fun c taken => all c (List.mem_of_mem_take taken))
      (by rw [List.head?_take, if_neg nonempty.ne'])
  have decimals : Decimals ('.' :: (Nat.toDigits 10 d.digits).drop n) ((Nat.toDigits 10 d.digits).drop n) :=
    .point (List.drop_eq_nil_iff.not.mpr inside.not_ge) fun c dropped => all c (List.mem_of_mem_drop dropped)
  refine spells whole decimals .none (List.append_nil _).symm ?_ ?_
  · rwa [List.take_append_drop, Nat.ofDigitChars_ten_toDigits]
  · rw [List.take_append_drop, Nat.ofDigitChars_ten_toDigits, Decimal.value, exponent, List.length_drop]
    congr 2
    omega

theorem powerSpelled (weight : Int) :
    Power ('e' :: (if weight < 0 then ['-'] else ['+']) ++ Nat.toDigits 10 weight.natAbs) weight := by
  have all := writtenDigits weight.natAbs
  have value : Nat.ofDigitChars 10 (Nat.toDigits 10 weight.natAbs) 0 = weight.natAbs :=
    Nat.ofDigitChars_ten_toDigits
  split
  · have minus := Power.minus Nat.toDigits_ne_nil all
    rwa [value, show -(weight.natAbs : Int) = weight by omega] at minus
  · have plus := Power.plus Nat.toDigits_ne_nil all
    rwa [value, show (weight.natAbs : Int) = weight by omega] at plus

theorem scientificSpells (small : d.digits < 10 ^ Decimal.digitLimit) (weight : Int)
    (exponent : d.exponent = weight + 1 - (Nat.toDigits 10 d.digits).length) :
    Spells d (Layout.json.scientific (Nat.toDigits 10 d.digits) weight) := by
  have all := writtenDigits d.digits
  have value : Nat.ofDigitChars 10 (Nat.toDigits 10 d.digits) 0 = d.digits := Nat.ofDigitChars_ten_toDigits
  cases written : Nat.toDigits 10 d.digits with
  | nil => exact absurd written Nat.toDigits_ne_nil
  | cons first rest =>
    rw [written] at all value exponent
    have whole : Whole [first] := digitWhole (all first List.mem_cons_self)
    cases rest with
    | nil =>
      refine spells whole .none (powerSpelled weight) rfl (value.symm ▸ small) ?_
      rw [List.append_nil, value, Decimal.value, exponent]
      simp
    | cons next rest =>
      have decimals : Decimals ('.' :: next :: rest) (next :: rest) :=
        .point (List.cons_ne_nil next rest) fun c inside => all c (List.mem_cons_of_mem first inside)
      refine spells whole decimals (powerSpelled weight) 
        (List.append_assoc (first :: '.' :: next :: rest) _ _) (value.symm ▸ small) ?_
      rw [List.singleton_append, value, Decimal.value, exponent]
      congr 2
      simp only [List.length_cons]
      omega

end

theorem magnitudeSpells (rank : Fin ranks) :
    Spells (Decimal.shortest .even rank) (Layout.json.magnitude rank) := by
  have normal := Decimal.shortestNormal .even rank
  have small := Decimal.shortestBounded .even rank
  unfold Layout.magnitude
  dsimp only
  rw [show Layout.json.tie = .even from rfl]
  generalize Decimal.shortest .even rank = d at normal small
  have length : 0 < (Nat.toDigits 10 d.digits).length := Nat.length_toDigits_pos
  split
  · rename_i positional
    simp only [Layout.json, Bool.and_eq_true, decide_eq_true_eq] at positional
    unfold Layout.point
    split
    · exact belowSpells _ small (by omega)
    · dsimp only
      split
      · exact integerSpells _ normal (by omega) (by omega)
      · exact splitSpells small (by omega) (by omega) (by omega)
  · exact scientificSpells small _ (by omega)

theorem spellsDigit {d : Decimal} {text : List Char} (spelled : Spells d text) :
    ∃ c cs, text = c :: cs ∧ c.isDigit := by
  obtain ⟨whole, -, -, -⟩ := spelled
  obtain ⟨c, cs, rfl⟩ := List.exists_cons_of_ne_nil whole.nonempty
  exact ⟨c, _, rfl, whole.digits c List.mem_cons_self⟩

theorem magnitudeReads (rank : Fin ranks) (negative : Bool) {rest : List Char} (ends : Ends rest) :
    magnitude? negative (Layout.json.magnitude rank ++ rest) = some (.finite negative rank, rest) := by
  rw [spelledReads negative (magnitudeSpells rank) ends, Decimal.shortestReads]
  rfl

end Json
end ChartTree
