import ChartTree.Proofs.Compile.Placement
import ChartTree.Proofs.Json.Streaming
import ChartTree.Proofs.Relation

/-! A text is decoded as a specification when it is decoded as an object whose type is a string. Of a
repeated key the last member counts in both, at every depth, though one decoder enters the members while it
reads and the other makes its value of a document that it has read whole. -/
namespace ChartTree.Json

namespace Document

structure Spells (d : Document) (text : String) : Prop where
  cutting : cut text.toList = (d.tokens, [])
  shallow : d.depth ≤ nestingLimit

inductive Resolves : Document → Value → Prop where
  | null : Resolves .null .null
  | bool (b : Bool) : Resolves (.bool b) (.bool b)
  | number (n : Number) : Resolves (.number n) (.number n)
  | string (s : String) : Resolves (.string s) (.string s)
  | array {ds : List Document} {vs : List Value} (each : List.Forall₂ Resolves ds vs) :
      Resolves (.array ds) (.array vs)
  | object {members : List (String × Document)} {entries : Map Value}
      (last : ∀ key, Option.Rel Resolves (members.reverse.lookup key) (entries.get? key)) :
      Resolves (.object members) (.object entries)

theorem itemValuesMap (ds : List Document) : itemValues ds = ds.map value := by
  induction ds with
  | nil => rfl
  | cons d ds ih => rw [itemValues, ih, List.map_cons]

theorem getMembers (members : List (String × Document)) (key : String) :
    (Entries.ofList (memberValues members)).get? key = (members.reverse.lookup key).map value := by
  induction members with
  | nil => rfl
  | cons first members ih =>
    obtain ⟨k, d⟩ := first
    rw [memberValues, Entries.getOfListCons, List.reverse_cons, List.lookup_append, Option.map_or, ih]
    congr 1
    split
    · rename_i same
      rw [List.lookup_cons, beq_iff_eq.mpr same]
      rfl
    · rename_i other
      rw [List.lookup_cons, beq_false_of_ne other]
      rfl

example : (object [("type", .string "bar"), ("type", .null)]).value.get? typeKey = some .null := rfl

theorem lastInside {members : List (String × Document)} {key : String} {d : Document}
    (found : members.reverse.lookup key = some d) : (key, d) ∈ members := by
  obtain ⟨later, earlier, split, -⟩ := List.lookup_eq_some_iff.mp found
  rw [← List.mem_reverse, split]
  exact List.mem_append_right later List.mem_cons_self

theorem resolvesOwn (d : Document) : Resolves d d.value := by
  induction d using partInduction with
  | null => exact .null
  | bool b => exact .bool b
  | number n => exact .number n
  | string s => exact .string s
  | array ds each =>
    rw [value, itemValuesMap]
    exact .array (List.forall₂_map_right_iff.mpr (List.forall₂_same.mpr each))
  | object members each =>
    refine .object fun key => ?_
    rw [getMembers]
    cases found : members.reverse.lookup key with
    | none => exact .none
    | some d => exact .some (each key d (lastInside found))

theorem resolvesIff {d : Document} {v : Value} : Resolves d v ↔ d.value = v := by
  refine ⟨fun resolves => ?_, fun same => same ▸ resolvesOwn d⟩
  induction d using partInduction generalizing v with
  | array ds each =>
    cases resolves with
    | array all =>
      have values := relatedWithin all fun d inside v => each d inside (v := v)
      rw [← List.forall₂_map_left_iff, List.forall₂_eq_eq_eq] at values
      rw [value, itemValuesMap, values]
  | object members each =>
    cases resolves with
    | @object _ entries last =>
      refine congrArg Value.object (Entries.ext _ _ fun key => ?_)
      have own := last key
      rw [getMembers]
      generalize entries.get? key = given at own
      cases found : members.reverse.lookup key with
      | none =>
        rw [found] at own
        cases own
        rfl
      | some d =>
        rw [found] at own
        cases own with
        | some below => exact congrArg some (each key d (lastInside found) below)
  | _ =>
    cases resolves
    rfl

end Document

theorem readIff {limit : Nat} {text : String} {v : Value} : read? limit text = some v ↔
    ∃ ts, cut text.toList = (ts, []) ∧ value? limit ts = some (v, []) := by
  rw [read?]
  generalize cut text.toList = pieces
  obtain ⟨ts, rest⟩ := pieces
  constructor
  · intro found
    obtain ⟨⟨w, more⟩, taken, last⟩ := Option.bind_eq_some_iff.mp found
    obtain ⟨all, same⟩ := Option.ite_none_right_eq_some.mp last
    cases same
    simp only [Bool.and_eq_true, List.isEmpty_iff] at all
    obtain ⟨rfl, rfl⟩ := all
    exact ⟨ts, rfl, taken⟩
  · intro spelling
    obtain ⟨us, same, taken⟩ := spelling
    cases same
    simp [taken]

theorem readValueIff {text : String} {v : Value} : readValue text = .ok v ↔
    ∃ ts, cut text.toList = (ts, []) ∧ value? nestingLimit ts = some (v, []) := by
  rw [← readIff, readValue]
  cases read? nestingLimit text <;> simp

theorem valueIff {text : String} {v : Value} :
    readValue text = .ok v ↔ ∃ d : Document, d.Spells text ∧ d.Resolves v := by
  rw [readValueIff]
  constructor
  · intro found
    obtain ⟨ts, cutting, taken⟩ := found
    obtain ⟨d, rfl, shallow, own⟩ := valueTaken.mp taken
    rw [List.append_nil] at cutting
    exact ⟨d, ⟨cutting, shallow⟩, Document.resolvesIff.mpr own⟩
  · intro spelling
    obtain ⟨d, ⟨cutting, shallow⟩, resolves⟩ := spelling
    exact ⟨d.tokens, cutting, valueTaken.mpr
      ⟨d, (List.append_nil _).symm, shallow, Document.resolvesIff.mp resolves⟩⟩

theorem enteredIff {entries : Map Value} {more : List Token} {rest : List Char} {s : Spec} :
    (do
      let spec ← (Spec.ofEntries entries).mapError ReadError.noType
      if more.isEmpty && rest.isEmpty then .ok spec else .error .malformed) = Except.ok s ↔
      s.entries = entries ∧ more = [] ∧ rest = [] := by
  rw [← Spec.ofEntriesOk, ← List.isEmpty_iff, ← List.isEmpty_iff, ← Bool.and_eq_true]
  cases Spec.ofEntries entries with
  | error cause => exact iff_of_false nofun nofun
  | ok spec =>
    cases more.isEmpty && rest.isEmpty with
    | true => simp [Except.mapError, bind, Except.bind]
    | false => exact iff_of_false nofun nofun

theorem readSpecIff {text : String} {s : Spec} : readSpec text = .ok s ↔
    ∃ ts, cut text.toList = (ts, []) ∧ entries? nestingLimit ts = some (s.entries, []) := by
  rw [readSpec]
  generalize cut text.toList = pieces
  obtain ⟨ts, rest⟩ := pieces
  constructor
  · intro read
    cases ts with
    | nil => cases read
    | cons first ts =>
      dsimp only at read
      split at read
      · cases read
      · split at read
        · cases read
        · rename_i entries more taken
          obtain ⟨rfl, rfl, rfl⟩ := enteredIff.mp read
          exact ⟨_, rfl, taken⟩
  · intro spelling
    obtain ⟨us, same, taken⟩ := spelling
    cases same
    obtain ⟨ts, rfl⟩ := entriesStart taken
    dsimp only
    rw [if_neg (show ¬ startsOther .objectStart = true from Bool.false_ne_true), taken]
    exact enteredIff.mpr ⟨rfl, rfl, rfl⟩

theorem specIff {text : String} {s : Spec} : readSpec text = .ok s ↔ readValue text = .ok s.toValue := by
  simp only [readSpecIff, readValueIff, entriesIff, Spec.toValue]

structure DecodersAgree (text : String) : Prop where
  accepted : (∃ s, readSpec text = .ok s) ↔
    ∃ entries kind, readValue text = .ok (.object entries) ∧ entries.get? typeKey = some (.string kind)
  entries : ∀ s, readSpec text = .ok s ↔ readValue text = .ok (.object s.entries)
  converted : ∀ s, readSpec text = .ok s ↔
    ∃ entries, readValue text = .ok (.object entries) ∧ Spec.ofEntries entries = .ok s
  lastType : (∃ s, readSpec text = .ok s) ↔ ∃ members kind, (Document.object members).Spells text ∧
    members.reverse.lookup typeKey = some (.string kind)
  resolvedValue : ∀ v, readValue text = .ok v ↔ ∃ d : Document, d.Spells text ∧ d.Resolves v
  resolvedSpec : ∀ s, readSpec text = .ok s ↔ ∃ d : Document, d.Spells text ∧ d.Resolves s.toValue

theorem acceptedIff {text : String} : (∃ s, readSpec text = .ok s) ↔
    ∃ entries kind, readValue text = .ok (.object entries) ∧ entries.get? typeKey = some (.string kind) := by
  constructor
  · intro accepted
    obtain ⟨s, read⟩ := accepted
    exact ⟨s.entries, s.kind, specIff.mp read, s.getKind⟩
  · intro typed
    obtain ⟨entries, kind, read, found⟩ := typed
    exact ⟨⟨entries, kind, found⟩, specIff.mpr read⟩

theorem lastTypeIff {text : String} : (∃ s, readSpec text = .ok s) ↔
    ∃ members kind, (Document.object members).Spells text ∧
      members.reverse.lookup typeKey = some (.string kind) := by
  rw [acceptedIff]
  constructor
  · intro typed
    obtain ⟨entries, kind, read, found⟩ := typed
    obtain ⟨d, spells, resolves⟩ := valueIff.mp read
    cases resolves with
    | @object members _ last =>
      have own := last typeKey
      rw [found] at own
      generalize chosen : members.reverse.lookup typeKey = given at own
      cases own with
      | some below =>
        cases below
        exact ⟨members, kind, spells, chosen⟩
  · intro typed
    obtain ⟨members, kind, spells, found⟩ := typed
    refine ⟨.ofList (Document.memberValues members), kind, valueIff.mpr ⟨_, spells, Document.resolvesOwn _⟩, ?_⟩
    rw [Document.getMembers, found]
    rfl

theorem decodersAgree (text : String) : DecodersAgree text where
  accepted := acceptedIff
  entries s := specIff
  converted s := by
    simp only [Spec.ofEntriesOk, exists_eq_right']
    exact specIff
  lastType := lastTypeIff
  resolvedValue v := valueIff
  resolvedSpec s := specIff.trans valueIff

theorem specDecoderAgrees :
    (∀ limit ts entries rest,
      entries? limit ts = some (entries, rest) ↔ value? limit ts = some (.object entries, rest)) ∧
    (∀ text, DecodersAgree text) ∧ (∀ s : Spec, s.get? typeKey = some (.string s.kind)) ∧
      ∀ (r : Registry) (n : Node), (r.compile n).kind = n.tag.variant := by
  refine ⟨fun _ _ _ _ => entriesIff, decodersAgree, fun s => s.getKind, fun r n => ?_⟩
  have own : (r.compile n).get? typeKey = some (.string n.tag.variant) := by
    rw [r.getCompile, if_pos rfl]
  exact Value.string.inj (Option.some.inj ((r.compile n).getKind.symm.trans own))

end ChartTree.Json
