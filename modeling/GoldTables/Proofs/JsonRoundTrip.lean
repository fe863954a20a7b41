import GoldTables.Grammar.JsonForm
import GoldTables.Proofs.LoadedGrammars
import GoldTables.Proofs.JsonText

/-!
# The JSON form is read back

Every row is read back from its JSON form, and so are the tables. What the
document leaves out is computed again: the index of the actions of each parser
state from the actions, and the rest of a grammar by linking, which finds the
same groups for the symbols whatever groups they were written with.

Results:
* `Json.fields?_obj`: the members of an object are found by their keys.
* `Tables.ofJson?_toJson`: tables are read back from their JSON form.
* `Tables.renumber_linkGroups`: numbering takes back what was linked.
* `Grammar.ofDocument_toDocument_of_link`: a linked grammar is read back from its document.
-/

namespace GoldTables

/-! ## Parts of values -/

namespace Json

variable {α : Type}

theorem uint16?_ofUInt16 (n : UInt16) : (ofUInt16 n).uint16? = some n := by
  have hrange : 0 ≤ (n.toNat : Int) ∧ (n.toNat : Int) < 65536 := by
    have hlt := n.toNat_lt
    omega
  rw [ofUInt16, uint16?, if_pos hrange, Int.toNat_natCast, UInt16.ofNat_toNat]

theorem index?_ofUInt16? (n : Option UInt16) : index? (some (ofUInt16? n)) = some n := by
  cases n with
  | none => rfl
  | some n =>
    show (ofUInt16 n).uint16?.map some = _
    rw [uint16?_ofUInt16, Option.map_some]

/-- What is read of rows one by one is read of them together. -/
theorem list?_map_eq {toJson : α → Json} {ofJson? : Json → Option α} {left : α → α}
    (h : ∀ row, ofJson? (toJson row) = some (left row)) (rows : List α) :
    (arr (rows.map toJson)).list? ofJson? = some (rows.map left) := by
  show (rows.map toJson).mapM ofJson? = some (rows.map left)
  induction rows with
  | nil => rfl
  | cons row rows ih =>
    rw [List.map_cons, List.mapM_cons, h, ih]
    rfl

theorem list?_map {toJson : α → Json} {ofJson? : Json → Option α}
    (h : ∀ row, ofJson? (toJson row) = some row) (rows : List α) :
    (arr (rows.map toJson)).list? ofJson? = some rows := by
  have hid : ∀ row, ofJson? (toJson row) = some (id row) := h
  rw [list?_map_eq hid, List.map_id]

/-- Of members with different keys, one has the key of a member. -/
theorem filter_key {members : List (String × Json)} (h : (members.map Prod.fst).Nodup)
    {member : String × Json} (hmember : member ∈ members) :
    (members.filter fun other => other.1 = member.1) = [member] := by
  induction members with
  | nil => cases hmember
  | cons first members ih =>
    obtain ⟨hnotin, hnodup⟩ := List.nodup_cons.1 h
    rcases List.mem_cons.1 hmember with rfl | hmember
    · have hothers : (members.filter fun other => other.1 = member.1) = [] := by
        apply List.filter_eq_nil_iff.2
        intro other hother hkey
        apply hnotin
        rw [← of_decide_eq_true hkey]
        exact List.mem_map_of_mem hother
      rw [List.filter_cons_of_pos (by simp), hothers]
    · have hne : first.1 ≠ member.1 := by
        intro hkey
        apply hnotin
        rw [hkey]
        exact List.mem_map_of_mem hmember
      rw [List.filter_cons_of_neg (by simpa using hne), ih hnodup hmember]

/-- The members of an object are found by their keys. -/
theorem fields?_obj {members : List (String × Json)} {names : List String}
    {values : List (Option Json)} (h : names.Nodup) (hnames : members.map Prod.fst = names)
    (hvalues : members.map (some ∘ Prod.snd) = values) :
    (obj members).fields? names = some values := by
  subst hnames hvalues
  have hpart : ∀ part : List (String × Json), part ⊆ members →
      (obj members).fields? (part.map Prod.fst) = some (part.map (some ∘ Prod.snd)) := by
    intro part hsub
    rw [fields?]
    induction part with
    | nil => rfl
    | cons member part ih =>
      obtain ⟨hmember, hpart⟩ := List.cons_subset.1 hsub
      rw [List.map_cons, List.mapM_cons, filter_key h hmember, ih hpart]
      rfl
  exact hpart members (List.Subset.refl members)

theorem allSpelled_map {toJson : α → Json} (h : ∀ row, (toJson row).isSpelled = true)
    (rows : List α) : allSpelled (rows.map toJson) = true := by
  induction rows with
  | nil => rfl
  | cons row rows ih => rw [List.map_cons, allSpelled, h, ih, Bool.and_true]

theorem isSpelled_ofUInt16 (n : UInt16) : (ofUInt16 n).isSpelled = true := rfl

theorem isSpelled_ofUInt16? (n : Option UInt16) : (ofUInt16? n).isSpelled = true := by
  cases n <;> rfl

end Json

open Json

/-! ## Rows -/

theorem SymbolKind.ofJson?_name (kind : SymbolKind) : ofJson? (.str kind.name) = some kind := by
  cases kind <;> rfl

theorem AdvanceMode.ofJson?_name (mode : AdvanceMode) : ofJson? (.str mode.name) = some mode := by
  cases mode <;> rfl

theorem EndingMode.ofJson?_name (mode : EndingMode) : ofJson? (.str mode.name) = some mode := by
  cases mode <;> rfl

theorem Symbol.ofJson?_toJson (symbol : Symbol) : ofJson? symbol.toJson = some symbol := by
  have hfields : symbol.toJson.fields? ["index", "name", "kind", "group"] =
      some [some (.ofUInt16 symbol.index), some (.str symbol.name), some (.str symbol.kind.name),
        some (.ofUInt16? symbol.group)] := fields?_obj (by decide) rfl rfl
  rw [ofJson?, hfields, Option.bind_eq_bind, Option.bind_some]
  simp [uint16?_ofUInt16, text?, SymbolKind.ofJson?_name, index?_ofUInt16?]

theorem Production.ofJson?_toJson (production : Production) :
    ofJson? production.toJson = some production := by
  have hfields : production.toJson.fields? ["index", "head", "body"] =
      some [some (.ofUInt16 production.index), some (.ofUInt16 production.head),
        some (.arr (production.body.map .ofUInt16))] := fields?_obj (by decide) rfl rfl
  rw [ofJson?, hfields, Option.bind_eq_bind, Option.bind_some]
  simp [uint16?_ofUInt16, list?_map uint16?_ofUInt16]

theorem CharacterRange.ofJson?_toJson (range : CharacterRange) :
    ofJson? range.toJson = some range := by
  have hfields : range.toJson.fields? ["start", "end"] =
      some [some (.ofUInt16 range.start), some (.ofUInt16 range.last)] :=
    fields?_obj (by decide) rfl rfl
  rw [ofJson?, hfields, Option.bind_eq_bind, Option.bind_some]
  simp [uint16?_ofUInt16]

theorem CharacterSet.ofJson?_toJson (set : CharacterSet) : ofJson? set.toJson = some set := by
  have hfields : set.toJson.fields? ["codepage", "ranges"] =
      some [some (.ofUInt16 set.codepage), some (.arr (set.ranges.map (·.toJson)))] :=
    fields?_obj (by decide) rfl rfl
  rw [ofJson?, hfields, Option.bind_eq_bind, Option.bind_some]
  simp [uint16?_ofUInt16, list?_map CharacterRange.ofJson?_toJson]

theorem DfaEdge.ofJson?_toJson (edge : DfaEdge) : ofJson? edge.toJson = some edge := by
  have hfields : edge.toJson.fields? ["set", "target"] =
      some [some (.ofUInt16 edge.set), some (.ofUInt16 edge.target)] :=
    fields?_obj (by decide) rfl rfl
  rw [ofJson?, hfields, Option.bind_eq_bind, Option.bind_some]
  simp [uint16?_ofUInt16]

theorem DfaState.ofJson?_toJson (state : DfaState) : ofJson? state.toJson = some state := by
  have hfields : state.toJson.fields? ["accept", "edges"] =
      some [some (.ofUInt16? state.accept), some (.arr (state.edges.map (·.toJson)))] :=
    fields?_obj (by decide) rfl rfl
  rw [ofJson?, hfields, Option.bind_eq_bind, Option.bind_some]
  simp [index?_ofUInt16?, list?_map DfaEdge.ofJson?_toJson]

theorem Action.ofJson?_toJson (action : Action) : ofJson? action.toJson = some action := by
  have htarget : ∀ (name : String) (target : UInt16),
      (Json.obj [(name, .ofUInt16 target)]).variant? = some (name, some (.ofUInt16 target)) :=
    fun _ _ => rfl
  cases action with
  | accept => rfl
  | error => rfl
  | _ =>
    rw [ofJson?, toJson, htarget, Option.bind_eq_bind, Option.bind_some]
    simp [uint16?_ofUInt16]

theorem LrAction.ofJson?_toJson (row : LrAction) : ofJson? row.toJson = some row := by
  have hfields : row.toJson.fields? ["symbol", "action"] =
      some [some (.ofUInt16 row.symbol), some row.action.toJson] := fields?_obj (by decide) rfl rfl
  rw [ofJson?, hfields, Option.bind_eq_bind, Option.bind_some]
  simp [uint16?_ofUInt16, Action.ofJson?_toJson]

/-- The actions of a state are read back, without an index. -/
theorem LrState.ofJson?_toJson (state : LrState) :
    ofJson? state.toJson = some { state with places := ∅ } := by
  have hfields : state.toJson.fields? ["actions"] =
      some [some (.arr (state.actions.toList.map (·.toJson)))] := fields?_obj (by decide) rfl rfl
  rw [ofJson?, hfields, Option.bind_eq_bind, Option.bind_some]
  simp only [list?_map LrAction.ofJson?_toJson]
  exact congrArg some (by rw [Array.toArray_toList])

theorem Group.ofJson?_toJson (group : Group) : ofJson? group.toJson = some group := by
  have hfields : group.toJson.fields?
      ["index", "name", "container", "start", "end", "advance", "ending", "nesting"] =
      some [some (.ofUInt16 group.index), some (.str group.name), some (.ofUInt16 group.container),
        some (.ofUInt16 group.start), some (.ofUInt16 group.finish), some (.str group.advance.name),
        some (.str group.ending.name), some (.arr (group.nesting.map .ofUInt16))] :=
    fields?_obj (by decide) rfl rfl
  rw [ofJson?, hfields, Option.bind_eq_bind, Option.bind_some]
  simp [uint16?_ofUInt16, text?, AdvanceMode.ofJson?_name, EndingMode.ofJson?_name,
    list?_map uint16?_ofUInt16]

theorem Properties.ofJson?_toJson (properties : Properties) :
    ofJson? properties.toJson = some properties := by
  have hfields : properties.toJson.fields? ["values"] =
      some [some (.arr (properties.values.toList.map .str))] := fields?_obj (by decide) rfl rfl
  have hvalues : (Json.arr (properties.values.toList.map .str)).list? text? =
      some properties.values.toList := by
    apply list?_map
    exact fun _ => rfl
  have hlength : properties.values.toList.length = 8 := Vector.length_toList
  rw [ofJson?, hfields, Option.bind_eq_bind, Option.bind_some]
  simp only [Option.bind_eq_bind, hvalues, Option.bind_some, dif_pos hlength]
  rfl

/-! ## Tables -/

namespace Tables

/-- The tables without the index of any parser state. -/
def unindexed (tables : Tables) : Tables :=
  { tables with lrStates := tables.lrStates.map fun state => { state with places := ∅ } }

/-- Linking does not look at the indices of the parser states: it makes them anew. -/
theorem renumber_unindexed (tables : Tables) : tables.unindexed.renumber = tables.renumber := by
  simp only [unindexed, renumber, Array.map_map]
  rfl

/-- Tables are read back from their JSON form, without the indices of the parser states. -/
theorem ofJson?_toJson (tables : Tables) : ofJson? tables.toJson = some tables.unindexed := by
  have hfields : tables.toJson.fields? ["header", "properties", "symbols", "charsets",
      "productions", "dfa_states", "lr_states", "groups", "dfa_initial", "lr_initial"] =
      some [some (.str tables.header), some tables.properties.toJson,
        some (.arr (tables.symbols.toList.map (·.toJson))),
        some (.arr (tables.characterSets.toList.map (·.toJson))),
        some (.arr (tables.productions.toList.map (·.toJson))),
        some (.arr (tables.dfaStates.toList.map (·.toJson))),
        some (.arr (tables.lrStates.toList.map (·.toJson))),
        some (.arr (tables.groups.toList.map (·.toJson))),
        some (.ofUInt16 tables.dfaInitial), some (.ofUInt16 tables.lrInitial)] :=
    fields?_obj (by decide) rfl rfl
  have hstates : (Json.arr (tables.lrStates.toList.map (·.toJson))).list? LrState.ofJson? =
      some tables.unindexed.lrStates.toList := by
    rw [list?_map_eq LrState.ofJson?_toJson, unindexed, Array.toList_map]
  rw [ofJson?, hfields, Option.bind_eq_bind, Option.bind_some]
  simp [text?, Properties.ofJson?_toJson, list?_map Symbol.ofJson?_toJson,
    list?_map CharacterSet.ofJson?_toJson, list?_map Production.ofJson?_toJson,
    list?_map DfaState.ofJson?_toJson, hstates, list?_map Group.ofJson?_toJson, uint16?_ofUInt16]
  rfl

end Tables

/-! ## Documents -/

theorem Symbol.isSpelled_toJson (symbol : Symbol) : symbol.toJson.isSpelled = true := by
  simp [toJson, isSpelled, membersSpelled, isSpelled_ofUInt16, isSpelled_ofUInt16?]

theorem Production.isSpelled_toJson (production : Production) :
    production.toJson.isSpelled = true := by
  simp [toJson, isSpelled, membersSpelled, isSpelled_ofUInt16, allSpelled_map isSpelled_ofUInt16]

theorem CharacterRange.isSpelled_toJson (range : CharacterRange) :
    range.toJson.isSpelled = true := rfl

theorem CharacterSet.isSpelled_toJson (set : CharacterSet) : set.toJson.isSpelled = true := by
  simp [toJson, isSpelled, membersSpelled, isSpelled_ofUInt16,
    allSpelled_map CharacterRange.isSpelled_toJson]

theorem DfaEdge.isSpelled_toJson (edge : DfaEdge) : edge.toJson.isSpelled = true := rfl

theorem DfaState.isSpelled_toJson (state : DfaState) : state.toJson.isSpelled = true := by
  simp [toJson, isSpelled, membersSpelled, isSpelled_ofUInt16?,
    allSpelled_map DfaEdge.isSpelled_toJson]

theorem LrAction.isSpelled_toJson (row : LrAction) : row.toJson.isSpelled = true := by
  obtain ⟨symbol, action⟩ := row
  cases action <;> rfl

theorem LrState.isSpelled_toJson (state : LrState) : state.toJson.isSpelled = true := by
  simp [toJson, isSpelled, membersSpelled, allSpelled_map LrAction.isSpelled_toJson]

theorem Group.isSpelled_toJson (group : Group) : group.toJson.isSpelled = true := by
  simp [toJson, isSpelled, membersSpelled, isSpelled_ofUInt16, allSpelled_map isSpelled_ofUInt16]

theorem Properties.isSpelled_toJson (properties : Properties) :
    properties.toJson.isSpelled = true := by
  have hvalues : allSpelled (properties.values.toList.map .str) = true :=
    allSpelled_map (fun _ => rfl) _
  simp [toJson, isSpelled, membersSpelled, hvalues]

theorem Tables.isSpelled_toJson (tables : Tables) : tables.toJson.isSpelled = true := by
  simp [toJson, isSpelled, membersSpelled, isSpelled_ofUInt16, Properties.isSpelled_toJson,
    allSpelled_map Symbol.isSpelled_toJson, allSpelled_map CharacterSet.isSpelled_toJson,
    allSpelled_map Production.isSpelled_toJson, allSpelled_map DfaState.isSpelled_toJson,
    allSpelled_map LrState.isSpelled_toJson, allSpelled_map Group.isSpelled_toJson]

namespace Tables

/-- Numbering takes back what was linked. -/
theorem renumber_linkGroups (tables : Tables) : tables.linkGroups.renumber = tables.renumber := by
  have hclear : ∀ i : Nat,
      (tables.linkGroups.symbols[i]?).map (fun symbol : Symbol => { symbol with group := none }) =
        (tables.symbols[i]?).map fun symbol : Symbol => { symbol with group := none } := by
    intro i
    rw [← Array.getElem?_map, map_symbols_linkGroups _ (fun _ _ => rfl), Array.getElem?_map]
  have hsymbols : tables.linkGroups.renumber.symbols = tables.renumber.symbols := by
    apply Array.ext_getElem?
    intro i
    have hnumbered := congrArg
      (Option.map fun symbol : Symbol => { symbol with index := UInt16.ofNat i }) (hclear i)
    rw [Option.map_map, Option.map_map] at hnumbered
    show (Array.mapIdx _ _)[i]? = (Array.mapIdx _ _)[i]?
    rw [Array.getElem?_mapIdx, Array.getElem?_mapIdx]
    exact hnumbered
  show { tables.renumber with symbols := tables.linkGroups.renumber.symbols } = _
  rw [hsymbols]

end Tables

namespace Grammar

variable {tables : Tables} {grammar : Grammar}

/-- A linked grammar is read back from its document, whatever its tables were read from. -/
theorem ofDocument_toDocument_of_link (h : tables.link = .ok grammar) :
    ofDocument (Text.toUtf8 grammar.toDocument) = .ok grammar := by
  have hparse : Json.parse? (Text.toUtf8 grammar.toDocument) = some grammar.toTables.toJson :=
    parse?_pretty grammar.toTables.isSpelled_toJson
  have hnumbered : grammar.toTables.renumber = tables.renumber := by
    obtain ⟨-, _, _, -, -, rfl⟩ := Tables.link_eq_ok_iff.1 h
    rw [Tables.renumber_linkGroups, Tables.renumber_renumber]
  rw [ofDocument, hparse, Option.bind_some, Tables.ofJson?_toJson]
  show grammar.toTables.unindexed.link = _
  rw [← Tables.link_renumber, Tables.renumber_unindexed, hnumbered, Tables.link_renumber, h]

/-- A grammar that was read from a file or a document is read back from its own document, with all
    that the document leaves out. -/
theorem ofDocument_toDocument
    (h : (∃ bytes, ofBytes bytes = .ok grammar) ∨ ∃ document, ofDocument document = .ok grammar) :
    ofDocument (Text.toUtf8 grammar.toDocument) = .ok grammar := by
  rcases h with ⟨bytes, hbytes⟩ | ⟨document, hdocument⟩
  · obtain ⟨tables, -, hlink⟩ := ofBytes_eq_ok hbytes
    exact ofDocument_toDocument_of_link hlink
  · obtain ⟨tables, -, hlink⟩ := ofDocument_eq_ok hdocument
    exact ofDocument_toDocument_of_link hlink

/-- The sample file is written as a document that is read back. -/
theorem ofDocument_toDocument_sampleFile :
    ∃ grammar, ofBytes sampleFile = .ok grammar ∧
      ofDocument (Text.toUtf8 grammar.toDocument) = .ok grammar := by
  obtain ⟨grammar, hgrammar⟩ := exists_ofBytes_sampleFile
  exact ⟨grammar, hgrammar, ofDocument_toDocument (Or.inl ⟨sampleFile, hgrammar⟩)⟩

end Grammar

end GoldTables
