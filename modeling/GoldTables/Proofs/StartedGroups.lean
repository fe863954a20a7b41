import GoldTables.Proofs.DerivedFields
import GoldTables.Proofs.GroupStacks

/-!
# The group that a mark opens

A lexer asks a symbol for its group, and opens it where the symbol is read. But
a symbol has one group, and linking tells it the last one that it starts, ends
or stands for. So the group that opens is one that the symbol starts unless
another group behind it has the symbol as its end or its container. Then that
one opens, although the symbol does not start it.

Results:
* `Tables.getElem?_of_lastGroup?`: no group behind the last one of a symbol names it.
* `Lexer.start_of_opened`: the group that a step opens is the last one that names the symbol, and
  when the symbol starts it.
* `Lexer.start_of_opened_sharedFile`: a group opens that ends with the symbol.
-/

namespace GoldTables

/-! ## The last group of a symbol -/

/-- A symbol starts a group, and does not end or stand for a group behind it. -/
def Tables.StartsLast (tables : Tables) (symbol : UInt16) : Prop :=
  ∃ (place : Nat) (group : Group), tables.groups[place]? = some group ∧ group.start = symbol ∧
    ∀ (later : Nat) (other : Group), place < later → tables.groups[later]? = some other →
      other.finish ≠ symbol ∧ other.container ≠ symbol

theorem Group.names_iff {group : Group} {symbol : UInt16} :
    group.names symbol.toNat = true ↔
      group.container = symbol ∨ group.start = symbol ∨ group.finish = symbol := by
  simp [Group.names, UInt16.toNat_inj]

namespace Tables

variable {tables : Tables} {symbol : UInt16}

/-- The last of the rows with a property has it, and none of the rows behind it does. -/
theorem exists_of_getLast?_filter {α : Type} {p : α → Bool} {rows : List α} {row : α} {place : Nat}
    (h : (rows.zipIdx.filter fun numbered => p numbered.1).getLast? = some (row, place)) :
    ∃ front back, rows = front ++ row :: back ∧ front.length = place ∧ p row = true ∧
      ∀ other ∈ back, p other = false := by
  induction rows using List.reverseRecOn with
  | nil => cases h
  | append_singleton rows last ih =>
    rw [List.zipIdx_append, List.filter_append] at h
    cases hlast : p last with
    | true =>
      rw [List.zipIdx_singleton, List.filter_singleton, hlast, cond_true, List.getLast?_concat] at h
      cases h
      exact ⟨rows, [], rfl, (Nat.zero_add _).symm, hlast, List.forall_mem_nil _⟩
    | false =>
      rw [List.zipIdx_singleton, List.filter_singleton, hlast, cond_false, List.append_nil] at h
      obtain ⟨front, back, rfl, hplace, hrow, hback⟩ := ih h
      refine ⟨front, back ++ [last], by simp, hplace, hrow, ?_⟩
      exact List.forall_mem_append.2 ⟨hback, List.forall_mem_singleton.2 hlast⟩

/-- The last group that names a symbol does so, and no group behind it does. -/
theorem getElem?_of_lastGroup? {place group : Nat} (h : tables.lastGroup? place = some group) :
    ∃ row, tables.groups[group]? = some row ∧ row.names place = true ∧
      ∀ (later : Nat) (other : Group), group < later → tables.groups[later]? = some other →
        other.names place = false := by
  obtain ⟨⟨row, _⟩, hlast, rfl⟩ := Option.map_eq_some_iff.1 h
  obtain ⟨front, back, hsplit, rfl, hnames, hback⟩ := exists_of_getLast?_filter hlast
  simp only [← Array.getElem?_toList, hsplit]
  refine ⟨row, by simp, hnames, fun later other hlater hother => hback other ?_⟩
  rw [List.getElem?_append_right (Nat.le_of_lt hlater), List.getElem?_cons,
    if_neg (by omega)] at hother
  exact List.mem_of_getElem? hother

/-- The symbol starts the last group that names it if it starts a group, and does not end or stand
    for one behind that; and only then. -/
theorem start_eq_iff {place : Nat} {row : Group} (hrow : tables.groups[place]? = some row)
    (hnames : row.names symbol.toNat = true)
    (hlast : ∀ (later : Nat) (other : Group), place < later →
      tables.groups[later]? = some other → other.names symbol.toNat = false) :
    row.start = symbol ↔ tables.StartsLast symbol := by
  constructor
  · intro hstart
    refine ⟨place, row, hrow, hstart, fun later other hlater hother => ?_⟩
    have hno := Bool.eq_false_iff.1 (hlast later other hlater hother)
    rw [ne_eq, Group.names_iff, not_or, not_or] at hno
    exact ⟨hno.2.2, hno.1⟩
  · rintro ⟨own, group, hown, hstart, hbehind⟩
    rcases Nat.lt_trichotomy own place with hlt | rfl | hlt
    · obtain ⟨hfinish, hcontainer⟩ := hbehind place row hlt hrow
      rcases Group.names_iff.1 hnames with hsame | hsame | hsame
      · exact absurd hsame hcontainer
      · exact hsame
      · exact absurd hsame hfinish
    · rw [hown] at hrow
      cases hrow
      exact hstart
    · have hno := hlast own group hlt hown
      rw [Group.names_iff.2 (.inr (.inl hstart))] at hno
      cases hno

end Tables

/-! ## Groups that are opened -/

namespace Lexer

variable {grammar : Grammar} {lexer next : Lexer} {opened : OpenGroup}

/-- A step that puts a group on the stack has read a symbol that opens it. -/
theorem opens?_of_pushed (hstep : lexer.groupStep grammar = .again next)
    (hopened : next.groups = opened :: lexer.groups) :
    lexer.opens? grammar (lexer.nextRaw grammar).1.symbol = some opened.group := by
  have hlength := congrArg List.length hopened
  have hsteps := step_groupStep grammar lexer
  rw [hstep] at hsteps
  cases hsteps with
  | opening hopens =>
    obtain ⟨rfl, -⟩ := List.cons.inj hopened
    exact hopens
  | @closeInner top parent outer group hnone hgroups =>
    have hbefore : lexer.groups = top :: parent :: outer := hgroups
    rw [hbefore] at hlength
    simp at hlength
  | @gather top outer group hnone hgroups =>
    have hbefore : lexer.groups = top :: outer := hgroups
    rw [gather_eq, hbefore] at hlength
    simp at hlength

/-- When a step of any lexer opens a group, it has read a symbol that is a group's opening mark, and
    the group is the last one in the table that the symbol starts, ends or stands for. So it is a
    group that the symbol starts exactly if the symbol starts some group, and does not end or stand
    for a group behind that. -/
theorem start_of_opened {bytes : List UInt8} (h : Grammar.ofBytes bytes = .ok grammar)
    (hstep : lexer.groupStep grammar = .again next)
    (hopened : next.groups = opened :: lexer.groups) :
    grammar.kind? (lexer.nextRaw grammar).1.symbol = some .groupStart ∧
      ∃ row, grammar.group? opened.group = some row ∧
        (row.container = (lexer.nextRaw grammar).1.symbol ∨
          row.start = (lexer.nextRaw grammar).1.symbol ∨
          row.finish = (lexer.nextRaw grammar).1.symbol) ∧
        (∀ (later : Nat) (other : Group), opened.group.toNat < later →
          grammar.groups[later]? = some other →
          other.container ≠ (lexer.nextRaw grammar).1.symbol ∧
            other.start ≠ (lexer.nextRaw grammar).1.symbol ∧
            other.finish ≠ (lexer.nextRaw grammar).1.symbol) ∧
        (row.start = (lexer.nextRaw grammar).1.symbol ↔
          grammar.StartsLast (lexer.nextRaw grammar).1.symbol) := by
  obtain ⟨symbol, hsymbol, hkind, hgroup⟩ :=
    Tables.exists_of_started? (started?_of_opens? (opens?_of_pushed hstep hopened))
  generalize (lexer.nextRaw grammar).1.symbol = mark at hsymbol ⊢
  have hlast := (Grammar.agrees_of_ofBytes h).groupOf mark.toNat symbol hsymbol
  rw [hgroup] at hlast
  obtain ⟨row, hrow, hnames, hbehind⟩ := Tables.getElem?_of_lastGroup? hlast.symm
  refine ⟨?_, row, hrow, Group.names_iff.1 hnames, fun later other hlater hother => ?_,
    Tables.start_eq_iff hrow hnames hbehind⟩
  · rw [Tables.kind?, hsymbol, Option.map_some, hkind]
  · have hno := Bool.eq_false_iff.1 (hbehind later other hlater hother)
    rwa [ne_eq, Group.names_iff, not_or, not_or] at hno

end Lexer

/-- Comments in angle brackets, and comments that begin with a bar and end with the bracket that
    opens the others. -/
def sharedFile : List UInt8 :=
  textBytes "Any header" ++ [
    kindRecord .tableCounts [.uint16 6, .uint16 2, .uint16 0, .uint16 3, .uint16 1, .uint16 2],
    kindRecord .symbol [.uint16 0, .string "EOF", .uint16 3],
    kindRecord .symbol [.uint16 1, .string "Error", .uint16 7],
    kindRecord .symbol [.uint16 2, .string "<", .uint16 4],
    kindRecord .symbol [.uint16 3, .string ">", .uint16 5],
    kindRecord .symbol [.uint16 4, .string "|", .uint16 4],
    kindRecord .symbol [.uint16 5, .string "Comment", .uint16 2],
    kindRecord .group [.uint16 0, .string "Angle", .uint16 5, .uint16 2, .uint16 3, .uint16 0,
      .uint16 1, .empty, .uint16 0],
    kindRecord .group [.uint16 1, .string "Bar", .uint16 5, .uint16 4, .uint16 2, .uint16 0,
      .uint16 1, .empty, .uint16 0],
    kindRecord .lrState [.uint16 0, .empty],
    kindRecord .characterSet [.uint16 0, .uint16 0, .uint16 1, .empty, .uint16 60, .uint16 60],
    kindRecord .characterSet [.uint16 1, .uint16 0, .uint16 1, .empty, .uint16 62, .uint16 62],
    kindRecord .dfaState [.uint16 0, .boolean false, .uint16 0, .empty,
      .uint16 0, .uint16 1, .empty, .uint16 1, .uint16 2, .empty],
    kindRecord .dfaState [.uint16 1, .boolean true, .uint16 2, .empty],
    kindRecord .dfaState [.uint16 2, .boolean true, .uint16 3, .empty]].flatMap recordBytes

/-- The left bracket opens the comment that ends with it, and not the one that it starts. -/
theorem Lexer.start_of_opened_sharedFile :
    ∃ (grammar : Grammar) (next : Lexer) (opened : OpenGroup) (row own : Group),
      Grammar.ofBytes sharedFile = .ok grammar ∧
      (openText "<>").groupStep grammar = .again next ∧ next.groups = [opened] ∧
      grammar.group? opened.group = some row ∧ row.name = "Bar" ∧
      row.start ≠ ((openText "<>").nextRaw grammar).1.symbol ∧
      grammar.group? 0 = some own ∧ own.start = ((openText "<>").nextRaw grammar).1.symbol ∧
      ¬grammar.StartsLast ((openText "<>").nextRaw grammar).1.symbol := by
  have hpasses : Grammar.passes sharedFile (fun grammar =>
      let peeked := (openText "<>").peek grammar
      peeked.1.symbol = 2 && peeked.2.opens? grammar 2 = some 1 &&
        (grammar.group? 0).map Group.start = some 2 &&
        (grammar.group? 1).map (fun row => (row.name, row.start)) = some ("Bar", 4)) = true := by
    decide +kernel
  obtain ⟨grammar, hgrammar, htest⟩ := Grammar.exists_of_passes hpasses
  simp only [Bool.and_eq_true, decide_eq_true_eq] at htest
  obtain ⟨⟨⟨hsymbol, hopens⟩, hfirst⟩, hsecond⟩ := htest
  have hread : ((openText "<>").nextRaw grammar).1.symbol = 2 := hsymbol
  have hstep := (Step.opening (hsymbol ▸ hopens)).groupStep_eq
  obtain ⟨own, hown, hstart⟩ := Option.map_eq_some_iff.1 hfirst
  obtain ⟨bar, hbar, hnamed⟩ := Option.map_eq_some_iff.1 hsecond
  obtain ⟨hname, hother⟩ := Prod.mk.inj hnamed
  obtain ⟨-, row, hrow, -, -, hiff⟩ := start_of_opened hgrammar hstep rfl
  obtain rfl : bar = row := Option.some.inj (hbar.symm.trans hrow)
  have hne : bar.start ≠ ((openText "<>").nextRaw grammar).1.symbol := by
    rw [hother, hread]
    decide
  exact ⟨grammar, _, _, bar, own, hgrammar, hstep, rfl, hrow, hname, hne, hown,
    hstart.trans hread.symm, fun hlast => hne (hiff.2 hlast)⟩

end GoldTables
