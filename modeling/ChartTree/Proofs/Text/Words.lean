import ChartTree.Text.Blank
import Mathlib.Data.List.DropRight

/-! Trimmed text and the words of a text. Trimming takes off all white space at both ends and nothing else,
and white space makes no word. -/
namespace ChartTree.Text

def Blank (cs : List Char) : Prop := ∀ c ∈ cs, isBlank c = true

instance (cs : List Char) : Decidable (Blank cs) := List.decidableBAll (fun c => isBlank c = true) cs

structure Trimmed (cs : List Char) : Prop where
  first : ∀ c, cs.head? = some c → isBlank c = false
  last : ∀ c, cs.getLast? = some c → isBlank c = false

def pieces (cs : List Char) : List (List Char) := (cs.splitOnP isBlank).filter fun piece => !piece.isEmpty

def words (s : String) : List String := (pieces s.toList).map String.ofList

variable {lead inner trail : List Char}

theorem trimStartBlank (blank : Blank lead) (rest : List Char) : trimStart (lead ++ rest) = trimStart rest :=
  List.dropWhile_append_of_pos blank

theorem trimEndBlank (blank : Blank trail) (front : List Char) : trimEnd (front ++ trail) = trimEnd front := by
  have reversed : Blank trail.reverse := fun c inside => blank c (List.mem_reverse.mp inside)
  rw [trimEnd, List.reverse_append, List.dropWhile_append_of_pos reversed, trimEnd]

theorem trimStartKept {first : Char} (sharp : isBlank first = false) (rest : List Char) :
    trimStart (first :: rest) = first :: rest :=
  List.dropWhile_cons_of_neg (by simp [sharp])

theorem trimEndKept (sharp : ∀ c, inner.getLast? = some c → isBlank c = false) : trimEnd inner = inner := by
  refine List.rdropWhile_eq_self_iff.mpr fun nonempty blank => ?_
  rw [sharp _ (List.getLast?_eq_some_getLast nonempty)] at blank
  cases blank

theorem trimAround (before : Blank lead) (kept : Trimmed inner) (after : Blank trail) :
    trimEnd (trimStart (lead ++ inner ++ trail)) = inner := by
  rw [List.append_assoc, trimStartBlank before]
  cases inner with
  | nil =>
    rw [List.nil_append, trimStart, List.dropWhile_eq_nil_iff.mpr after]
    rfl
  | cons first rest =>
    rw [List.cons_append, trimStartKept (kept.first first rfl), ← List.cons_append, trimEndBlank after,
      trimEndKept kept.last]

theorem trimmedEnds (cs : List Char) : Trimmed (trimEnd (trimStart cs)) := by
  have whole : trimEnd (trimStart cs) ++ (trimStart cs).rtakeWhile isBlank = trimStart cs :=
    List.rdropWhile_append_rtakeWhile
  constructor
  · intro c first
    have stands : (trimStart cs).head? = some c := by rw [← whole, List.head?_append, first, Option.some_or]
    have sharp := List.head?_dropWhile_not isBlank cs
    rwa [show (cs.dropWhile isBlank).head? = some c from stands] at sharp
  · intro c last
    have nonempty : trimEnd (trimStart cs) ≠ [] := by
      intro empty
      rw [empty] at last
      cases last
    rw [List.getLast?_eq_some_getLast nonempty] at last
    cases last
    exact Bool.eq_false_iff.mpr (List.rdropWhile_last_not isBlank _ nonempty)

theorem trimSplit (cs : List Char) :
    ∃ lead trail, cs = lead ++ trimEnd (trimStart cs) ++ trail ∧ Blank lead ∧ Blank trail := by
  refine ⟨cs.takeWhile isBlank, (trimStart cs).rtakeWhile isBlank, ?_, ?_, ?_⟩
  · have back : trimEnd (trimStart cs) ++ (trimStart cs).rtakeWhile isBlank = trimStart cs :=
      List.rdropWhile_append_rtakeWhile
    rw [List.append_assoc, back]
    exact List.takeWhile_append_dropWhile.symm
  · exact fun c inside => List.mem_takeWhile_imp inside
  · exact fun c inside => List.mem_rtakeWhile_imp inside

theorem trimmedBetween {front back : List Char} (left : Trimmed front) (right : Trimmed back)
    (frontFull : front ≠ []) (backFull : back ≠ []) (middle : List Char) : Trimmed (front ++ middle ++ back) := by
  constructor
  · intro c first
    rw [List.append_assoc, List.head?_append_of_ne_nil _ frontFull] at first
    exact left.first c first
  · intro c last
    rw [List.getLast?_append_of_ne_nil _ backFull] at last
    exact right.last c last

theorem trimIff (s inner : String) : trim s = inner ↔ ∃ lead trail, s = lead ++ inner ++ trail ∧
    Blank lead.toList ∧ Trimmed inner.toList ∧ Blank trail.toList := by
  constructor
  · rintro rfl
    obtain ⟨lead, trail, split, before, after⟩ := trimSplit s.toList
    refine ⟨.ofList lead, .ofList trail, ?_, ?_⟩
    · rw [← String.toList_inj, trim]
      simpa only [String.toList_append, String.toList_ofList] using split
    · simp only [trim, String.toList_ofList]
      exact ⟨before, trimmedEnds s.toList, after⟩
  · intro cut
    obtain ⟨lead, trail, rfl, before, kept, after⟩ := cut
    rw [trim, String.toList_append, String.toList_append, trimAround before kept after, String.ofList_toList]

theorem trimPadded {left right : String} (before : Blank left.toList) (after : Blank right.toList) (s : String) :
    trim (left ++ s ++ right) = trim s := by
  obtain ⟨lead, trail, split, front, kept, back⟩ := (trimIff s _).mp rfl
  refine (trimIff _ _).mpr ⟨left ++ lead, trail ++ right, ?_, ?_, kept, ?_⟩
  · rw [← String.toList_inj] at split ⊢
    simp only [String.toList_append, split, List.append_assoc]
  · rw [String.toList_append]
    exact List.forall_mem_append.mpr ⟨before, front⟩
  · rw [String.toList_append]
    exact List.forall_mem_append.mpr ⟨back, after⟩

theorem piecesApart {b : Char} (blank : isBlank b = true) (front back : List Char) :
    pieces (front ++ b :: back) = pieces front ++ pieces back := by
  rw [pieces, List.splitOnP_append_cons front back blank, List.filter_append, pieces, pieces]

theorem wordsApart (front back : String) : words (front ++ " " ++ back) = words front ++ words back := by
  have space : " ".toList = [' '] := by decide
  rw [words, String.toList_append, String.toList_append, space, List.append_assoc, List.singleton_append,
    piecesApart (by decide), List.map_append, words, words]

theorem piecesBefore (blank : Blank lead) (rest : List Char) : pieces (lead ++ rest) = pieces rest := by
  induction lead with
  | nil => rfl
  | cons b lead ih =>
    obtain ⟨first, others⟩ := List.forall_mem_cons.mp blank
    exact (piecesApart first [] (lead ++ rest)).trans (ih others)

theorem piecesAfter (blank : Blank trail) (front : List Char) : pieces (front ++ trail) = pieces front := by
  cases trail with
  | nil => rw [List.append_nil]
  | cons b trail =>
    obtain ⟨first, others⟩ := List.forall_mem_cons.mp blank
    have dropped := piecesBefore others []
    rw [List.append_nil] at dropped
    rw [piecesApart first, dropped]
    exact List.append_nil _

theorem wordsTrim (s : String) : words (trim s) = words s := by
  obtain ⟨lead, trail, split, before, after⟩ := trimSplit s.toList
  rw [words, words, trim, String.toList_ofList]
  conv_rhs => rw [split, piecesAfter after, piecesBefore before]

end ChartTree.Text
