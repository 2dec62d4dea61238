import ChartTree.Json.Writer
import ChartTree.Proofs.Json.TokenText

/-! Which texts stand for a value: its tokens, the members of objects in any order, with any white space
between them. Such a text is cut into these tokens again. -/
namespace ChartTree.Json

inductive Part where
  | value (v : Value)
  | moreItems (vs : List Value)
  | moreMembers (bindings : List (String × Value))

inductive Writes : Part → List Token → Prop where
  | null : Writes (.value .null) [.null]
  | bool (b : Bool) : Writes (.value (.bool b)) [.bool b]
  | number (n : Number) : Writes (.value (.number n)) [if n.isFinite then .number n else .null]
  | string (s : String) : Writes (.value (.string s)) [.string s]
  | noItems : Writes (.value (.array [])) [.arrayStart, .arrayEnd]
  | items {v : Value} {vs : List Value} {first more : List Token} (item : Writes (.value v) first)
      (rest : Writes (.moreItems vs) more) : Writes (.value (.array (v :: vs))) (.arrayStart :: (first ++ more))
  | noMembers : Writes (.value (.object .nil)) [.objectStart, .objectEnd]
  | members {m : Map Value} {k : String} {v : Value} {bindings : List (String × Value)}
      {first more : List Token} (arranged : m.toList.Perm ((k, v) :: bindings)) (member : Writes (.value v) first)
      (rest : Writes (.moreMembers bindings) more) :
      Writes (.value (.object m)) (.objectStart :: .string k :: .colon :: (first ++ more))
  | lastItem : Writes (.moreItems []) [.arrayEnd]
  | nextItem {v : Value} {vs : List Value} {first more : List Token} (item : Writes (.value v) first)
      (rest : Writes (.moreItems vs) more) : Writes (.moreItems (v :: vs)) (.comma :: (first ++ more))
  | lastMember : Writes (.moreMembers []) [.objectEnd]
  | nextMember {k : String} {v : Value} {bindings : List (String × Value)} {first more : List Token}
      (member : Writes (.value v) first) (rest : Writes (.moreMembers bindings) more) :
      Writes (.moreMembers ((k, v) :: bindings)) (.comma :: .string k :: .colon :: (first ++ more))

/- Whether the text of a token can be followed by a text: a number must have an end. -/
def Fits : Token → List Char → Prop
  | .number n, cs => n.isFinite ∧ Ends cs
  | _, _ => True

inductive Lays : List Token → List Char → Prop where
  | last : Lays [] []
  | space {ts : List Token} {c : Char} {cs : List Char} (blank : isSpace c) (rest : Lays ts cs) :
      Lays ts (c :: cs)
  | token {t : Token} {ts : List Token} {cs : List Char} (fits : Fits t cs) (rest : Lays ts cs) :
      Lays (t :: ts) (t.text ++ cs)

def IsText (v : Value) (text : String) : Prop := ∃ ts, Writes (.value v) ts ∧ Lays ts text.toList

theorem cutFits {t : Token} {cs : List Char} (fits : Fits t cs) :
    cut (t.text ++ cs) = (t :: (cut cs).1, (cut cs).2) := by
  cases t with
  | number n =>
    cases n with
    | finite negative rank => exact cutNumber negative rank fits.2
    | _ => exact absurd fits.1 Bool.false_ne_true
  | _ => exact cutOther fun n same => Token.noConfusion same

theorem laysCut {ts : List Token} {cs : List Char} (lays : Lays ts cs) : cut cs = (ts, []) := by
  induction lays with
  | last => rw [cut]
  | space blank rest ih => rw [cut, if_pos blank, ih]
  | token fits rest ih => rw [cutFits fits, ih]

theorem blanksLay {ts : List Token} {blanks cs : List Char} (all : ∀ c ∈ blanks, isSpace c)
    (lays : Lays ts cs) : Lays ts (blanks ++ cs) := by
  induction blanks with
  | nil => exact lays
  | cons c blanks ih =>
    exact .space (all c List.mem_cons_self) (ih fun c inside => all c (List.mem_cons_of_mem _ inside))

theorem endsNil : Ends [] := fun _ first => nomatch first

theorem endsCons {c : Char} (cs : List Char) (mark : c ∈ [',', ']', '\x7d', '\n']) : Ends (c :: cs) := by
  rintro d ⟨⟩
  simp only [List.mem_cons, List.not_mem_nil, or_false] at mark
  rcases mark with rfl | rfl | rfl | rfl <;> decide

section
variable {part : Part} {ts rest : List Token} {cs : List Char}

theorem moreEnds (writes : Writes part ts) (more : ∀ v, part ≠ .value v) (cs : List Char) :
    Ends (ts.flatMap Token.text ++ cs) := by
  cases writes with
  | lastItem | nextItem | lastMember | nextMember => exact endsCons _ (by decide)
  | _ => exact absurd rfl (more _)

theorem tokenLay {t : Token} (fits : Fits t (ts.flatMap Token.text ++ cs))
    (lays : Lays (ts ++ rest) (ts.flatMap Token.text ++ cs)) :
    Lays (t :: ts ++ rest) ((t :: ts).flatMap Token.text ++ cs) := by
  rw [List.cons_append, List.flatMap_cons, List.append_assoc]
  exact .token fits lays

theorem writesLay (writes : Writes part ts) (ends : Ends cs) (lays : Lays rest cs) :
    Lays (ts ++ rest) (ts.flatMap Token.text ++ cs) := by
  induction writes generalizing rest cs with
  | null | bool | string | lastItem | lastMember => exact tokenLay (by trivial) lays
  | number n =>
    refine tokenLay ?_ lays
    split
    · rename_i finite
      exact ⟨finite, ends⟩
    · trivial
  | noItems | noMembers => exact tokenLay (by trivial) (tokenLay (by trivial) lays)
  | items _ more ihFirst ihMore | nextItem _ more ihFirst ihMore =>
    refine tokenLay (by trivial) ?_
    rw [List.append_assoc, List.flatMap_append, List.append_assoc]
    exact ihFirst (moreEnds more (fun _ => nofun) cs) (ihMore ends lays)
  | members _ _ more ihFirst ihMore | nextMember _ more ihFirst ihMore =>
    refine tokenLay (by trivial) (tokenLay (by trivial) (tokenLay (by trivial) ?_))
    rw [List.append_assoc, List.flatMap_append, List.append_assoc]
    exact ihFirst (moreEnds more (fun _ => nofun) cs) (ihMore ends lays)

end

mutual
theorem tokensWrite : (v : Value) → Writes (.value v) (tokens v)
  | .null => .null
  | .bool b => .bool b
  | .number n => .number n
  | .string s => .string s
  | .array [] => .noItems
  | .array (v :: vs) => .items (tokensWrite v) (moreItemsWrite vs)
  | .object .nil => .noMembers
  | .object (.cons _ _ v rest) => .members (List.Perm.refl _) (tokensWrite v) (moreMembersWrite rest)

theorem moreItemsWrite : (vs : List Value) → Writes (.moreItems vs) (moreItems vs)
  | [] => .lastItem
  | v :: vs => .nextItem (tokensWrite v) (moreItemsWrite vs)

theorem moreMembersWrite : {low : Option String} → (m : Entries Value low) →
    Writes (.moreMembers m.toList) (moreMembers m)
  | _, .nil => .lastMember
  | _, .cons _ _ v rest => .nextMember (tokensWrite v) (moreMembersWrite rest)
end

theorem compactIsText (v : Value) : IsText v (compact v) := by
  have lays : Lays (tokens v ++ []) ((tokens v).flatMap Token.text ++ []) :=
    writesLay (tokensWrite v) endsNil .last
  refine ⟨tokens v, tokensWrite v, ?_⟩
  rw [compact, String.toList_ofList]
  simpa only [List.append_nil] using lays

theorem newLineLay (level : Nat) {ts : List Token} {cs : List Char} (lays : Lays ts cs) :
    Lays ts (newLine level ++ cs) :=
  .space rfl (blanksLay (fun _ inside => List.eq_of_mem_replicate inside ▸ rfl) lays)

theorem itemsEnds (level : Nat) (vs : List Value) (cs : List Char) : Ends (layOutItems level vs ++ cs) := by
  cases vs <;> exact endsCons _ (by decide)

theorem membersEnds (level : Nat) {low : Option String} (m : Entries Value low) (cs : List Char) :
    Ends (layOutMembers level m ++ cs) := by
  cases m <;> exact endsCons _ (by decide)

mutual
theorem layOutLays (level : Nat) {rest : List Token} {cs : List Char} (ends : Ends cs) (lays : Lays rest cs) :
    (v : Value) → Lays (tokens v ++ rest) (layOut level v ++ cs)
  | .null | .bool _ | .number _ | .string _ | .array [] | .object .nil => writesLay (tokensWrite _) ends lays
  | .array (v :: vs) => by
    have inner := layOutLays (level + 1) (itemsEnds level vs cs) (layOutItemsLays level lays vs) v
    simp only [tokens, layOut, List.cons_append, List.append_assoc]
    exact .token (t := .arrayStart) trivial (newLineLay (level + 1) inner)
  | .object (.cons k _ v more) => by
    have inner := layOutLays (level + 1) (membersEnds level more cs) (layOutMembersLays level lays more) v
    simp only [tokens, layOut, List.cons_append, List.append_assoc]
    exact .token (t := .objectStart) trivial (newLineLay (level + 1)
      (.token (t := .string k) trivial (.token (t := .colon) trivial (.space rfl inner))))

theorem layOutItemsLays (level : Nat) {rest : List Token} {cs : List Char} (lays : Lays rest cs) :
    (vs : List Value) → Lays (moreItems vs ++ rest) (layOutItems level vs ++ cs)
  | [] => by
    rw [layOutItems, List.append_assoc]
    exact newLineLay level (.token (t := .arrayEnd) trivial lays)
  | v :: vs => by
    have inner := layOutLays (level + 1) (itemsEnds level vs cs) (layOutItemsLays level lays vs) v
    simp only [moreItems, layOutItems, List.cons_append, List.append_assoc]
    exact .token (t := .comma) trivial (newLineLay (level + 1) inner)

theorem layOutMembersLays (level : Nat) {rest : List Token} {cs : List Char} (lays : Lays rest cs) :
    {low : Option String} → (m : Entries Value low) →
    Lays (moreMembers m ++ rest) (layOutMembers level m ++ cs)
  | _, .nil => by
    rw [layOutMembers, List.append_assoc]
    exact newLineLay level (.token (t := .objectEnd) trivial lays)
  | _, .cons k _ v more => by
    have inner := layOutLays (level + 1) (membersEnds level more cs) (layOutMembersLays level lays more) v
    simp only [moreMembers, layOutMembers, List.cons_append, List.append_assoc]
    exact .token (t := .comma) trivial (newLineLay (level + 1)
      (.token (t := .string k) trivial (.token (t := .colon) trivial (.space rfl inner))))
end

theorem prettyIsText (v : Value) : IsText v (pretty v) := by
  have lays : Lays (tokens v ++ []) (layOut 0 v ++ []) := layOutLays 0 endsNil .last v
  refine ⟨tokens v, tokensWrite v, ?_⟩
  rw [pretty, String.toList_ofList]
  simpa only [List.append_nil] using lays

end ChartTree.Json
