import ChartTree.Proofs.Json.NumberText

/-! The text of a token is cut off as that token. What follows matters for numbers only: their text must
end there. -/
namespace ChartTree.Json

def piece (c : Char) : Piece :=
  if c.toNat < 0x20 ∧ c ∉ ['\x08', '\t', '\n', '\x0c', '\r'] then .unit c.toNat else .char c

theorem hexDigit : ∀ n < 16, hexValue? (Nat.digitChar n) = some n := by decide

theorem controlUnit {n : Nat} (control : n < 0x20) :
    unit? '0' '0' (Nat.digitChar (n / 16)) (Nat.digitChar (n % 16)) = some n := by
  have zero : hexValue? '0' = some 0 := rfl
  rw [unit?, zero, hexDigit (n / 16) (by omega), hexDigit (n % 16) (by omega)]
  simp only [Option.bind_eq_bind, Option.bind_some, Option.some.injEq]
  omega

theorem piecesEscape (c : Char) {rest after : List Char} {ps : List Piece}
    (read : pieces? rest = some (ps, after)) : pieces? (escape c ++ rest) = some (piece c :: ps, after) := by
  fun_cases escape c with
  | case8 _ quote backslash _ _ _ _ _ control =>
    rw [piece, if_pos (by simp_all)]
    simp [pieces?, controlUnit control, read]
  | case9 _ quote backslash _ _ _ _ _ visible =>
    rw [piece, if_neg fun hidden => visible hidden.1, List.singleton_append, pieces?]
    · rw [if_neg (not_or_intro backslash visible), read]
      rfl
    all_goals grind
  | _ =>
    rw [piece, if_neg (by decide)]
    simp [pieces?, escaped?, read]

theorem piecesString (cs rest : List Char) :
    pieces? (cs.flatMap escape ++ '"' :: rest) = some (cs.map piece, rest) := by
  induction cs with
  | nil => simp [pieces?]
  | cons c cs ih =>
    rw [List.flatMap_cons, List.append_assoc]
    exact piecesEscape c ih

theorem joinPieces (cs : List Char) : join? (cs.map piece) = some cs := by
  induction cs with
  | nil => rfl
  | cons c cs ih =>
    rw [List.map_cons, piece]
    split
    · rename_i control
      have high : isHigh c.toNat = false := Bool.and_eq_false_imp.mpr fun above => by
        have := of_decide_eq_true above
        omega
      have low : isLow c.toNat = false := Bool.and_eq_false_imp.mpr fun above => by
        have := of_decide_eq_true above
        omega
      unfold join?
      simp [high, low, ih]
    · simp [join?, ih]

section
variable {rest : List Char}

theorem cutCons {c : Char} {cs : List Char} {t : Token} (space : isSpace c = false)
    (taken : token? c cs = some (t, rest)) : cut (c :: cs) = (t :: (cut rest).1, (cut rest).2) := by
  rw [cut, if_neg (by rw [space]; exact Bool.false_ne_true)]
  split
  · rename_i failed
    rw [taken] at failed
    cases failed
  · rename_i again
    rw [taken] at again
    cases again
    rfl

theorem cutString (s : String) : cut (quote s ++ rest) = (.string s :: (cut rest).1, (cut rest).2) := by
  have pieces := piecesString s.toList rest
  rw [quote, List.append_assoc, List.cons_append]
  refine cutCons rfl ?_
  rw [token?, List.singleton_append, pieces]
  simp [joinPieces]

theorem cutOther {t : Token} (other : ∀ n, t ≠ .number n) :
    cut (t.text ++ rest) = (t :: (cut rest).1, (cut rest).2) := by
  cases t with
  | number n => exact absurd rfl (other n)
  | string s => exact cutString s
  | bool b => cases b <;> exact cutCons rfl rfl
  | _ => exact cutCons rfl rfl

theorem tokenDigit {c : Char} (cs : List Char) (digit : c.isDigit) :
    token? c cs = (magnitude? false (c :: cs)).map fun (n, after) => (.number n, after) := by
  unfold token?
  split
  case h_12 => cases magnitude? false (c :: cs) <;> rfl
  all_goals cases digit

theorem digitSpace {c : Char} (digit : c.isDigit) : isSpace c = false := by
  rw [Bool.eq_false_iff]
  intro space
  simp only [isSpace, Bool.or_eq_true, beq_iff_eq] at space
  rcases space with ((rfl | rfl) | rfl) | rfl <;> cases digit

theorem cutNumber (negative : Bool) (rank : Fin ranks) (ends : Ends rest) :
    cut ((Token.number (.finite negative rank)).text ++ rest) =
      (.number (.finite negative rank) :: (cut rest).1, (cut rest).2) := by
  have read := magnitudeReads rank negative ends
  cases negative with
  | true =>
    rw [Token.text, Layout.finite, if_pos rfl, List.cons_append]
    refine cutCons rfl ?_
    rw [token?, read]
    rfl
  | false =>
    obtain ⟨c, cs, written, digit⟩ := spellsDigit (magnitudeSpells rank)
    rw [written, List.cons_append] at read
    rw [Token.text, Layout.finite, if_neg Bool.false_ne_true, written, List.cons_append]
    refine cutCons (digitSpace digit) ?_
    rw [tokenDigit _ digit, read]
    rfl

end

end ChartTree.Json
