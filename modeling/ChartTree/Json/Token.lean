import ChartTree.Number.Layout

/-! The tokens of JSON text: how each is written and how a text is cut into them. Reading is strict; a
number must have a nearest finite value, and an escaped surrogate must have its partner. -/
namespace ChartTree.Json

inductive Token where
  | objectStart
  | objectEnd
  | arrayStart
  | arrayEnd
  | comma
  | colon
  | null
  | bool (b : Bool)
  | number (n : Number)
  | string (s : String)
  deriving DecidableEq, Repr

def escape (c : Char) : List Char :=
  match c with
  | '"' => ['\\', '"']
  | '\\' => ['\\', '\\']
  | '\x08' => ['\\', 'b']
  | '\t' => ['\\', 't']
  | '\n' => ['\\', 'n']
  | '\x0c' => ['\\', 'f']
  | '\r' => ['\\', 'r']
  | c =>
    if c.toNat < 0x20 then ['\\', 'u', '0', '0', Nat.digitChar (c.toNat / 16), Nat.digitChar (c.toNat % 16)]
    else [c]

def quote (s : String) : List Char := '"' :: s.toList.flatMap escape ++ ['"']

/-- Numbers that are not finite have no notation and are written as null. -/
def Token.text : Token → List Char
  | objectStart => ['\x7b']
  | objectEnd => ['\x7d']
  | arrayStart => ['[']
  | arrayEnd => [']']
  | comma => [',']
  | colon => [':']
  | null => ['n', 'u', 'l', 'l']
  | bool true => ['t', 'r', 'u', 'e']
  | bool false => ['f', 'a', 'l', 's', 'e']
  | number (.finite negative rank) => Layout.json.finite negative rank
  | number _ => ['n', 'u', 'l', 'l']
  | string s => quote s

inductive Piece where
  | char (c : Char)
  | unit (n : Nat)
  deriving DecidableEq, Repr

def hexValue? (c : Char) : Option Nat :=
  if '0' ≤ c ∧ c ≤ '9' then some (c.toNat - 48)
  else if 'a' ≤ c ∧ c ≤ 'f' then some (c.toNat - 87)
  else if 'A' ≤ c ∧ c ≤ 'F' then some (c.toNat - 55)
  else none

def unit? (a b c d : Char) : Option Nat := do
  let a ← hexValue? a
  let b ← hexValue? b
  let c ← hexValue? c
  let d ← hexValue? d
  some (((a * 16 + b) * 16 + c) * 16 + d)

def escaped? : Char → Option Char
  | '"' => some '"'
  | '\\' => some '\\'
  | '/' => some '/'
  | 'b' => some '\x08'
  | 'f' => some '\x0c'
  | 'n' => some '\n'
  | 'r' => some '\r'
  | 't' => some '\t'
  | _ => none

def pieces? : List Char → Option (List Piece × List Char)
  | [] => none
  | '"' :: rest => some ([], rest)
  | '\\' :: 'u' :: a :: b :: c :: d :: rest => do
    let n ← unit? a b c d
    let (pieces, after) ← pieces? rest
    some (.unit n :: pieces, after)
  | '\\' :: e :: rest => do
    let c ← escaped? e
    let (pieces, after) ← pieces? rest
    some (.char c :: pieces, after)
  | c :: rest =>
    if c = '\\' ∨ c.toNat < 0x20 then none
    else do
      let (pieces, after) ← pieces? rest
      some (.char c :: pieces, after)

def isHigh (n : Nat) : Bool := 0xD800 ≤ n && n ≤ 0xDBFF
def isLow (n : Nat) : Bool := 0xDC00 ≤ n && n ≤ 0xDFFF

def join? : List Piece → Option (List Char)
  | [] => some []
  | .char c :: rest => (join? rest).map (c :: ·)
  | .unit high :: rest =>
    if isHigh high then
      match rest with
      | .unit low :: rest =>
        if isLow low then
          (join? rest).map (Char.ofNat (0x10000 + (high - 0xD800) * 0x400 + (low - 0xDC00)) :: ·)
        else none
      | _ => none
    else if isLow high then none
    else (join? rest).map (Char.ofNat high :: ·)

def digits (cs : List Char) : List Char × List Char := (cs.takeWhile Char.isDigit, cs.dropWhile Char.isDigit)

def digits? (cs : List Char) : Option (List Char × List Char) :=
  if (digits cs).1.isEmpty then none else some (digits cs)

def whole? (cs : List Char) : Option (List Char × List Char) := do
  let (ds, rest) ← digits? cs
  if ds.head? = some '0' ∧ ds ≠ ['0'] then none else some (ds, rest)

def decimals? : List Char → Option (List Char × List Char)
  | '.' :: rest => digits? rest
  | cs => some ([], cs)

def signedExponent? : List Char → Option (Int × List Char)
  | '-' :: rest => do let (ds, after) ← digits? rest; some (-(Nat.ofDigitChars 10 ds 0 : Int), after)
  | '+' :: rest => do let (ds, after) ← digits? rest; some (Nat.ofDigitChars 10 ds 0, after)
  | cs => do let (ds, after) ← digits? cs; some (Nat.ofDigitChars 10 ds 0, after)

def exponent? : List Char → Option (Int × List Char)
  | 'e' :: rest => signedExponent? rest
  | 'E' :: rest => signedExponent? rest
  | cs => some (0, cs)

def magnitude? (negative : Bool) (cs : List Char) : Option (Number × List Char) := do
  let (whole, cs) ← whole? cs
  let (decimals, cs) ← decimals? cs
  let (exponent, cs) ← exponent? cs
  let n ← (Decimal.ofDigits whole decimals exponent).toNumber? negative
  some (n, cs)

def isSpace (c : Char) : Bool := c == ' ' || c == '\t' || c == '\n' || c == '\r'

def token? : Char → List Char → Option (Token × List Char)
  | '\x7b', rest => some (.objectStart, rest)
  | '\x7d', rest => some (.objectEnd, rest)
  | '[', rest => some (.arrayStart, rest)
  | ']', rest => some (.arrayEnd, rest)
  | ',', rest => some (.comma, rest)
  | ':', rest => some (.colon, rest)
  | 'n', 'u' :: 'l' :: 'l' :: rest => some (.null, rest)
  | 't', 'r' :: 'u' :: 'e' :: rest => some (.bool true, rest)
  | 'f', 'a' :: 'l' :: 's' :: 'e' :: rest => some (.bool false, rest)
  | '"', rest => do
    let (pieces, after) ← pieces? rest
    let cs ← join? pieces
    some (.string (String.ofList cs), after)
  | '-', rest => do
    let (n, after) ← magnitude? true rest
    some (.number n, after)
  | c, rest => do
    let (n, after) ← magnitude? false (c :: rest)
    some (.number n, after)

/- Every token takes at least one character, so cutting comes to an end. -/

theorem digitsShorter {cs ds rest : List Char} (h : digits? cs = some (ds, rest)) : rest.length < cs.length := by
  unfold digits? at h
  split at h
  · cases h
  · rename_i nonempty
    cases Option.some.inj h
    have parts := congrArg List.length (List.takeWhile_append_dropWhile (p := Char.isDigit) (l := cs))
    rw [List.length_append] at parts
    have positive : 0 < (cs.takeWhile Char.isDigit).length := by
      rw [List.length_pos_iff]; simpa [digits] using nonempty
    omega

theorem wholeShorter {cs ds rest : List Char} (h : whole? cs = some (ds, rest)) : rest.length < cs.length := by
  simp only [whole?, bind, Option.bind_eq_some_iff] at h
  obtain ⟨⟨ds', rest'⟩, taken, last⟩ := h
  split at last
  · cases last
  · cases Option.some.inj last
    exact digitsShorter taken

theorem decimalsShorter {cs ds rest : List Char} (h : decimals? cs = some (ds, rest)) : rest.length ≤ cs.length := by
  unfold decimals? at h
  split at h
  · have := digitsShorter h; simp; omega
  · cases h; exact Nat.le_refl _

theorem signedExponentShorter {cs rest : List Char} {e : Int} (h : signedExponent? cs = some (e, rest)) :
    rest.length < cs.length := by
  unfold signedExponent? at h
  split at h <;>
  · simp only [bind, Option.bind_eq_some_iff] at h
    obtain ⟨⟨ds, after⟩, taken, last⟩ := h
    cases Option.some.inj last
    have := digitsShorter taken
    simp only [List.length_cons]
    omega

theorem exponentShorter {cs rest : List Char} {e : Int} (h : exponent? cs = some (e, rest)) :
    rest.length ≤ cs.length := by
  unfold exponent? at h
  split at h
  · have := signedExponentShorter h; simp; omega
  · have := signedExponentShorter h; simp; omega
  · cases h; exact Nat.le_refl _

theorem magnitudeShorter {negative : Bool} {cs rest : List Char} {n : Number}
    (h : magnitude? negative cs = some (n, rest)) : rest.length < cs.length := by
  simp only [magnitude?, bind, Option.bind_eq_some_iff] at h
  obtain ⟨⟨whole, cs1⟩, h1, ⟨decimals, cs2⟩, h2, ⟨exponent, cs3⟩, h3, n', _, last⟩ := h
  cases Option.some.inj last
  have first : cs1.length < cs.length := wholeShorter h1
  have second : cs2.length ≤ cs1.length := decimalsShorter h2
  have third : cs3.length ≤ cs2.length := exponentShorter h3
  simp only
  omega

theorem piecesShorter {cs rest : List Char} {ps : List Piece} (h : pieces? cs = some (ps, rest)) :
    rest.length < cs.length := by
  fun_induction pieces? cs generalizing ps rest with
  | case1 => cases h
  | case2 => cases h; simp
  | case3 a b c d tail ih =>
    simp only [bind, Option.bind_eq_some_iff] at h
    obtain ⟨n, _, ⟨more, after⟩, taken, last⟩ := h
    cases Option.some.inj last
    have := ih taken
    simp only [List.length_cons]
    omega
  | case4 e tail _ ih =>
    simp only [bind, Option.bind_eq_some_iff] at h
    obtain ⟨c, _, ⟨more, after⟩, taken, last⟩ := h
    cases Option.some.inj last
    have := ih taken
    simp only [List.length_cons]
    omega
  | case5 => cases h
  | case6 c tail _ _ _ _ ih =>
    simp only [bind, Option.bind_eq_some_iff] at h
    obtain ⟨⟨more, after⟩, taken, last⟩ := h
    cases Option.some.inj last
    have := ih taken
    simp only [List.length_cons]
    omega

theorem tokenShorter {c : Char} {cs rest : List Char} {t : Token} (h : token? c cs = some (t, rest)) :
    rest.length < (c :: cs).length := by
  unfold token? at h
  split at h
  case h_10 =>
    simp only [bind, Option.bind_eq_some_iff] at h
    obtain ⟨⟨pieces, after⟩, taken, chars, _, last⟩ := h
    cases Option.some.inj last
    have := piecesShorter taken
    simp only [List.length_cons]
    omega
  case h_11 =>
    simp only [bind, Option.bind_eq_some_iff] at h
    obtain ⟨⟨n, after⟩, taken, last⟩ := h
    cases Option.some.inj last
    have := magnitudeShorter taken
    simp only [List.length_cons]
    omega
  case h_12 =>
    simp only [bind, Option.bind_eq_some_iff] at h
    obtain ⟨⟨n, after⟩, taken, last⟩ := h
    cases Option.some.inj last
    exact magnitudeShorter taken
  all_goals cases h; simp only [List.length_cons]; omega

def cut (cs : List Char) : List Token × List Char :=
  match cs with
  | [] => ([], [])
  | c :: cs =>
    if isSpace c then cut cs
    else
      match _taken : token? c cs with
      | none => ([], c :: cs)
      | some (t, rest) =>
        let (ts, after) := cut rest
        (t :: ts, after)
termination_by cs.length
decreasing_by
  · simp
  · exact tokenShorter _taken

end ChartTree.Json
