import ChartTree.Proofs.Json.Document

/-! Entries that are read one by one. What has been entered at the end of an object are the members of one
document, each with the value that it has when it is read for itself. -/
namespace ChartTree.Json
open Document (memberValues membersDepth)

section
variable {limit : Nat} {entries out : Map Value} {ts rest : List Token}

theorem membersTaken (read : members? limit entries ts = some (out, rest)) :
    ∃ k d members, ts = .string k :: .colon :: (d.tokens ++ (Document.moreMembers members ++ rest)) ∧
      membersDepth ((k, d) :: members) ≤ limit ∧ out = entries.extend (memberValues ((k, d) :: members)) := by
  fun_induction members? limit entries ts with
  | case1 entries k ts v more taken ih =>
    obtain ⟨d, split, nested, own⟩ := valueTaken.mp taken
    obtain ⟨j, e, members, next, below, entered⟩ := ih read
    refine ⟨k, d, (j, e) :: members, ?_, ?_, ?_⟩
    · rw [split, next, Document.moreMembers]
      simp only [List.cons_append, List.append_assoc]
    · exact Nat.max_le.mpr ⟨nested, below⟩
    · rw [entered, ← own]
      rfl
  | case2 entries k ts v more taken =>
    obtain ⟨d, split, nested, own⟩ := valueTaken.mp taken
    cases read
    refine ⟨k, d, [], ?_, ?_, ?_⟩
    · rw [split]
      rfl
    · exact Nat.max_le.mpr ⟨nested, Nat.zero_le limit⟩
    · rw [← own]
      rfl
  | case3 => cases read
  | case4 => cases read

theorem membersComma {k : String} {v : Value} (read : value? limit ts = some (v, .comma :: rest)) :
    members? limit entries (.string k :: .colon :: ts) = members? limit (entries.insert k v) rest := by
  rw [members?]
  split
  · rename_i taken
    cases read.symm.trans taken
    rfl
  · rename_i taken
    cases read.symm.trans taken
  · rename_i other _
    exact absurd read (other v rest)

theorem membersEnd {k : String} {v : Value} (read : value? limit ts = some (v, .objectEnd :: rest)) :
    members? limit entries (.string k :: .colon :: ts) = some (entries.insert k v, rest) := by
  rw [members?]
  split
  · rename_i taken
    cases read.symm.trans taken
  · rename_i taken
    cases read.symm.trans taken
    rfl
  · rename_i other
    exact absurd read (other v rest)

theorem membersRead {k : String} {d : Document} {members : List (String × Document)}
    (nested : membersDepth ((k, d) :: members) ≤ limit) (entries : Map Value) (rest : List Token) :
    members? limit entries (.string k :: .colon :: (d.tokens ++ (Document.moreMembers members ++ rest))) =
      some (entries.extend (memberValues ((k, d) :: members)), rest) := by
  induction members generalizing k d entries with
  | nil =>
    exact membersEnd (valueTaken.mpr ⟨d, rfl, (Nat.max_le.mp nested).1, rfl⟩)
  | cons next members ih =>
    obtain ⟨j, e⟩ := next
    obtain ⟨first, later⟩ := Nat.max_le.mp nested
    have read : value? limit (d.tokens ++ (Document.moreMembers ((j, e) :: members) ++ rest)) =
        some (d.value, .comma :: .string j :: .colon :: (e.tokens ++ Document.moreMembers members ++ rest)) :=
      valueTaken.mpr ⟨d, rfl, first, rfl⟩
    rw [membersComma read, List.append_assoc]
    exact ih later (entries.insert k d.value)

theorem entriesTaken : entries? limit ts = some (out, rest) ↔
    ∃ members, ts = (Document.object members).tokens ++ rest ∧ (Document.object members).depth ≤ limit ∧
      Entries.ofList (memberValues members) = out := by
  constructor
  · intro read
    unfold entries? at read
    split at read
    · cases read
      exact ⟨[], rfl, Nat.succ_le_succ (Nat.zero_le _), rfl⟩
    · obtain ⟨k, d, members, rfl, nested, rfl⟩ := membersTaken read
      refine ⟨(k, d) :: members, ?_, Nat.succ_le_succ nested, rfl⟩
      rw [Document.tokens]
      simp only [List.cons_append, List.append_assoc]
    · cases read
  · intro spelling
    obtain ⟨members, rfl, nested, rfl⟩ := spelling
    cases limit with
    | zero => cases nested
    | succ limit =>
      cases members with
      | nil => rfl
      | cons first members =>
        obtain ⟨k, d⟩ := first
        rw [Document.tokens]
        simp only [List.cons_append, List.append_assoc]
        rw [entries?]
        · exact membersRead (Nat.le_of_succ_le_succ nested) .empty rest
        · intro ts same
          cases same

/- Entering members while they are read comes to the same as reading the object whole. -/
theorem entriesIff : entries? limit ts = some (out, rest) ↔ value? limit ts = some (.object out, rest) := by
  rw [entriesTaken, valueTaken]
  constructor
  · intro spelling
    obtain ⟨members, split, nested, entered⟩ := spelling
    exact ⟨.object members, split, nested, congrArg Value.object entered⟩
  · intro spelling
    obtain ⟨d, split, nested, own⟩ := spelling
    cases d with
    | object members => exact ⟨members, split, nested, Value.object.inj own⟩
    | _ => cases own

theorem entriesStart (read : entries? limit ts = some (out, rest)) : ∃ us, ts = .objectStart :: us := by
  obtain ⟨members, rfl, -⟩ := entriesTaken.mp read
  cases members <;> exact ⟨_, rfl⟩

end

end ChartTree.Json
