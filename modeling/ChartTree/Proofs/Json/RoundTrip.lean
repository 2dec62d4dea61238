import ChartTree.Proofs.Json.Decoding
import ChartTree.Proofs.Json.Text
import ChartTree.Proofs.Map.Arrangement
import ChartTree.Proofs.Value.FinitePart

/-! Reading undoes writing: every text of a value is read as the value with null in place of its numbers
that are not finite. -/
namespace ChartTree.Json

def Part.Documented (ts : List Token) : Part → Prop
  | .value v => ∃ d : Document, d.tokens = ts ∧ d.value = v.finitePart ∧ d.depth ≤ v.depth
  | .moreItems vs => ∃ ds, Document.moreItems ds = ts ∧ Document.itemValues ds = vs.map Value.finitePart ∧
      ∀ n, (∀ w ∈ vs, w.depth ≤ n) → Document.itemsDepth ds ≤ n
  | .moreMembers bindings => ∃ members, Document.moreMembers members = ts ∧
      Document.memberValues members = bindings.map (fun kv => (kv.1, kv.2.finitePart)) ∧
      ∀ n, (∀ kv ∈ bindings, kv.2.depth ≤ n) → Document.membersDepth members ≤ n

theorem finiteMembers {m : Map Value} {bindings : List (String × Value)} (arranged : m.toList.Perm bindings) :
    Entries.ofList (bindings.map fun kv => (kv.1, kv.2.finitePart)) = Value.finiteEntries m := by
  rw [Value.finiteEntriesMap]
  apply Entries.ofListArranged
  rw [Entries.toListMap]
  exact arranged.map _

section
variable {v : Value} {first more : List Token}

theorem itemsDocument {vs : List Value} (item : (Part.value v).Documented first)
    (others : (Part.moreItems vs).Documented more) :
    ∃ d ds, d.tokens = first ∧ Document.moreItems ds = more ∧
      Document.itemValues (d :: ds) = (v :: vs).map Value.finitePart ∧
      ∀ n, (∀ w ∈ v :: vs, w.depth ≤ n) → Document.itemsDepth (d :: ds) ≤ n := by
  obtain ⟨d, spelled, own, shallow⟩ := item
  obtain ⟨ds, later, values, depths⟩ := others
  refine ⟨d, ds, spelled, later, ?_, fun n all => ?_⟩
  · rw [Document.itemValues, own, values, List.map_cons]
  · have below := depths n fun w later => all w (List.mem_cons_of_mem v later)
    exact Nat.max_le.mpr ⟨shallow.trans (all v List.mem_cons_self), below⟩

theorem membersDocument {k : String} {bindings : List (String × Value)} (member : (Part.value v).Documented first)
    (others : (Part.moreMembers bindings).Documented more) :
    ∃ d members, d.tokens = first ∧ Document.moreMembers members = more ∧
      Document.memberValues ((k, d) :: members) = ((k, v) :: bindings).map (fun kv => (kv.1, kv.2.finitePart)) ∧
      ∀ n, (∀ kv ∈ (k, v) :: bindings, kv.2.depth ≤ n) → Document.membersDepth ((k, d) :: members) ≤ n := by
  obtain ⟨d, spelled, own, shallow⟩ := member
  obtain ⟨members, later, values, depths⟩ := others
  refine ⟨d, members, spelled, later, ?_, fun n all => ?_⟩
  · rw [Document.memberValues, own, values, List.map_cons]
  · have below := depths n fun kv later => all kv (List.mem_cons_of_mem (k, v) later)
    exact Nat.max_le.mpr ⟨shallow.trans (all (k, v) List.mem_cons_self), below⟩

end

theorem writesDocument {part : Part} {ts : List Token} (writes : Writes part ts) : part.Documented ts := by
  induction writes with
  | null => exact ⟨.null, rfl, rfl, Nat.zero_le _⟩
  | bool b => exact ⟨.bool b, rfl, rfl, Nat.zero_le _⟩
  | string s => exact ⟨.string s, rfl, rfl, Nat.zero_le _⟩
  | number n =>
    rw [Part.Documented, Value.finitePart]
    split
    · exact ⟨.number n, rfl, rfl, Nat.zero_le _⟩
    · exact ⟨.null, rfl, rfl, Nat.zero_le _⟩
  | noItems => exact ⟨.array [], rfl, rfl, Nat.le_refl _⟩
  | noMembers => exact ⟨.object [], rfl, rfl, Nat.le_refl _⟩
  | items _ _ item others =>
    obtain ⟨d, ds, rfl, rfl, values, depths⟩ := itemsDocument item others
    refine ⟨.array (d :: ds), rfl, ?_, Nat.succ_le_succ (depths _ fun w inside => Value.depthItem inside)⟩
    rw [Document.value, values, Value.finitePart, Value.finiteItemsMap]
  | members arranged _ _ member others =>
    obtain ⟨d, members, rfl, rfl, values, depths⟩ := membersDocument member others
    refine ⟨.object (_ :: members), rfl, ?_, Nat.succ_le_succ (depths _ fun kv inside => ?_)⟩
    · rw [Document.value, values, finiteMembers arranged, Value.finitePart]
    · exact Value.depthEntry (arranged.mem_iff.mpr inside)
  | lastItem => exact ⟨[], rfl, rfl, fun n _ => Nat.zero_le n⟩
  | nextItem _ _ item others =>
    obtain ⟨d, ds, rfl, rfl, values, depths⟩ := itemsDocument item others
    exact ⟨d :: ds, rfl, values, depths⟩
  | lastMember => exact ⟨[], rfl, rfl, fun n _ => Nat.zero_le n⟩
  | nextMember _ _ member others =>
    obtain ⟨d, members, rfl, rfl, values, depths⟩ := membersDocument member others
    exact ⟨_ :: members, rfl, values, depths⟩

theorem readsText {v : Value} {text : String} (isText : IsText v text) (nested : v.depth ≤ nestingLimit) :
    readValue text = .ok v.finitePart := by
  obtain ⟨ts, writes, lays⟩ := isText
  obtain ⟨d, rfl, own, shallow⟩ := writesDocument writes
  exact valueIff.mpr ⟨d, ⟨laysCut lays, shallow.trans nested⟩, Document.resolvesIff.mpr own⟩

theorem readsSpec {s : Spec} {text : String} (isText : IsText s.toValue text)
    (nested : s.toValue.depth ≤ nestingLimit) (finite : s.toValue.isFinite) : readSpec text = .ok s := by
  have read := readsText isText nested
  rw [s.toValue.finitePartSelf finite] at read
  exact specIff.mpr read

theorem decodeUndoesEncode (v : Value) (nested : v.depth ≤ nestingLimit) :
    (∀ text, IsText v text → readValue text = .ok v.finitePart) ∧
      readValue (compact v) = .ok v.finitePart ∧ readValue (pretty v) = .ok v.finitePart ∧
      (v.finitePart.same v = true ↔ v.isFinite = true) :=
  ⟨fun _ isText => readsText isText nested, readsText (compactIsText v) nested,
    readsText (prettyIsText v) nested, by rw [Value.finitePartSame]⟩

theorem mixedItemsDecoded :
    let rest := [.number (.zero true), .string "\"\n", .array [], .object (.cons "k" trivial .null .nil)]
    let mixed := .number .nan :: rest
    let read := .null :: rest
    (Value.array mixed).depth ≤ nestingLimit ∧ readValue (compact (.array mixed)) = .ok (.array read) :=
  ⟨by decide, (decodeUndoesEncode _ (by decide)).2.1⟩

end ChartTree.Json
