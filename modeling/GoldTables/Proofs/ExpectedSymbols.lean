import GoldTables.Proofs.BatchMachine
import GoldTables.Proofs.LoadedGrammars

/-!
# The symbols that are reported as expected

In front of a token without an action the parser reports the terminals that
its state has an entry for. For the parser an entry that is an error is as
good as none, but here it counts: a terminal whose first action is an error is
reported as expected although it would be rejected as well, and the token in
front of which the parser stands may be that terminal itself.

Results:
* `mem_expectable_iff`: the symbols reported in a state are the terminals with an entry there.
* `Parser.expected_of_syntaxError`: what is reported with a syntax error, when this is exactly what
  would not have been rejected, and whether the rejected token is among it.
-/

namespace GoldTables

/-- A terminal that the parser handles as the table says. -/
def Tables.IsTerminal (tables : Tables) (symbol : UInt16) : Prop :=
  tables.kind? symbol = some .content ∨ tables.kind? symbol = some .endOfInput ∨
    tables.kind? symbol = some .groupStart ∨ tables.kind? symbol = some .groupEnd

theorem Tables.isTerminal_iff {tables : Tables} {symbol : UInt16} :
    (tables.kind? symbol).any SymbolKind.isExpectable = true ↔ tables.IsTerminal symbol := by
  rw [IsTerminal]
  cases tables.kind? symbol with
  | none => simp
  | some kind => cases kind <;> simp [SymbolKind.isExpectable]

/-- A state has a first action on a symbol if and only if it has an entry for the symbol. -/
theorem exists_firstAction?_iff {grammar : Grammar} {state symbol : UInt16} :
    (∃ action, Batch.firstAction? grammar state symbol = some action) ↔
      ∃ row entry, grammar.lrState? state = some row ∧ entry ∈ row.actions.toList ∧
        entry.symbol = symbol := by
  simp only [Batch.firstAction?, Option.bind_eq_some_iff, Option.map_eq_some_iff]
  constructor
  · rintro ⟨_, row, hrow, entry, hfind, -⟩
    have hsymbol := List.find?_some hfind
    rw [decide_eq_true_iff] at hsymbol
    exact ⟨row, entry, hrow, List.mem_of_find?_eq_some hfind, hsymbol⟩
  · rintro ⟨row, entry, hrow, hmem, hsymbol⟩
    cases hfind : row.actions.toList.find? fun entry => entry.symbol = symbol with
    | some first => exact ⟨first.action, row, hrow, first, hfind, rfl⟩
    | none =>
      have hnone := List.find?_eq_none.1 hfind entry hmem
      rw [decide_eq_true_iff] at hnone
      exact absurd hsymbol hnone

/-- The symbols that are reported in a state are the terminals with a first action there, whatever
    this action is. -/
theorem mem_expectable_iff {grammar : Grammar} {state symbol : UInt16} :
    symbol ∈ grammar.expectable state ↔
      grammar.IsTerminal symbol ∧
        ∃ action, Batch.firstAction? grammar state symbol = some action := by
  rw [exists_firstAction?_iff, Tables.expectable]
  cases hrow : grammar.lrState? state with
  | none => simp
  | some row =>
    simp only [List.mem_filter, List.mem_map, Tables.isTerminal_iff, Option.some.injEq]
    constructor
    · rintro ⟨⟨entry, hmem, hsymbol⟩, hterminal⟩
      exact ⟨hterminal, row, entry, rfl, hmem, hsymbol⟩
    · rintro ⟨hterminal, _, entry, rfl, hmem, hsymbol⟩
      exact ⟨⟨entry, hmem, hsymbol⟩, hterminal⟩

namespace Parser

variable {grammar : Grammar} {parser next : Parser}

/-- The first action on a symbol rejects it: there is none, or it is an error. -/
def Rejects (grammar : Grammar) (state symbol : UInt16) : Prop :=
  Batch.firstAction? grammar state symbol = none ∨
    Batch.firstAction? grammar state symbol = some .error

theorem not_rejects_iff {state symbol : UInt16} : ¬Rejects grammar state symbol ↔
    ∃ action, Batch.firstAction? grammar state symbol = some action ∧ action ≠ .error := by
  rw [Rejects]
  cases Batch.firstAction? grammar state symbol with
  | none => simp
  | some action => simp

/-- A syntax error is reported in front of a token that is rejected, together with the symbols
    that are reported in the state. -/
theorem exists_rejected_of_syntaxError (h : grammar.Linked)
    (hparse : parser.parse grammar = some (.syntaxError, next)) :
    next.expected = grammar.expectable next.lrState ∧
      ∃ offending, next.currentToken? = some offending ∧
        Rejects grammar next.lrState offending.symbol := by
  obtain ⟨last, -, hlast⟩ := parse_eq_some_iff.1 hparse
  cases step_eq_iff.1 hlast with
  | syntaxError hhandles haction =>
    refine ⟨rfl, _, congrArg List.head? hhandles.input, ?_⟩
    rw [Rejects, h.firstAction?_eq]
    exact haction

/-- With a syntax error, on a grammar from a file or from JSON, the terminals are reported for which
    the state has an action, be it an error. They are the ones that would not have been rejected if
    and only if no terminal is rejected there by an error, and the token that was rejected is among
    them if and only if it is a terminal that was rejected by an error. -/
theorem expected_of_syntaxError
    (h : (∃ bytes, Grammar.ofBytes bytes = .ok grammar) ∨
      ∃ document, Grammar.ofDocument document = .ok grammar)
    (hparse : parser.parse grammar = some (.syntaxError, next)) :
    (∀ symbol, symbol ∈ next.expected ↔ grammar.IsTerminal symbol ∧
        ∃ action, Batch.firstAction? grammar next.lrState symbol = some action) ∧
      ((∀ symbol, symbol ∈ next.expected ↔
          grammar.IsTerminal symbol ∧ ¬Rejects grammar next.lrState symbol) ↔
        ∀ symbol, grammar.IsTerminal symbol →
          Batch.firstAction? grammar next.lrState symbol ≠ some .error) ∧
      ∃ offending, next.currentToken? = some offending ∧
        Rejects grammar next.lrState offending.symbol ∧
        (offending.symbol ∈ next.expected ↔ grammar.IsTerminal offending.symbol ∧
          Batch.firstAction? grammar next.lrState offending.symbol = some .error) := by
  have hlinked := Grammar.linked_of_load h
  obtain ⟨hexpected, offending, htoken, hrejects⟩ := exists_rejected_of_syntaxError hlinked hparse
  rw [hexpected]
  refine ⟨fun symbol => mem_expectable_iff, ?_, offending, htoken, hrejects, ?_⟩
  · simp only [mem_expectable_iff, not_rejects_iff]
    constructor
    · intro hsame symbol hterminal herror
      obtain ⟨-, action, haction, hne⟩ := (hsame symbol).1 ⟨hterminal, _, herror⟩
      rw [herror] at haction
      cases haction
      exact hne rfl
    · intro hnoError symbol
      constructor
      · rintro ⟨hterminal, action, haction⟩
        refine ⟨hterminal, action, haction, ?_⟩
        rintro rfl
        exact hnoError symbol hterminal haction
      · rintro ⟨hterminal, action, haction, -⟩
        exact ⟨hterminal, action, haction⟩
  · rw [mem_expectable_iff]
    constructor
    · rintro ⟨hterminal, action, haction⟩
      rcases hrejects with hnone | herror
      · rw [hnone] at haction
        cases haction
      · exact ⟨hterminal, herror⟩
    · rintro ⟨hterminal, herror⟩
      exact ⟨hterminal, _, herror⟩

/-- Tables that accept the end of the input, and have an entry that says that the letter `a` is an
    error. -/
def errorFile : List UInt8 :=
  textBytes "Any header" ++ [
    kindRecord .tableCounts [.uint16 3, .uint16 1, .uint16 0, .uint16 2, .uint16 1, .uint16 0],
    kindRecord .symbol [.uint16 0, .string "EOF", .uint16 3],
    kindRecord .symbol [.uint16 1, .string "Error", .uint16 7],
    kindRecord .symbol [.uint16 2, .string "a", .uint16 1],
    kindRecord .lrState [.uint16 0, .empty, .uint16 0, .uint16 4, .uint16 0, .empty,
      .uint16 2, .uint16 5, .uint16 0, .empty],
    kindRecord .characterSet [.uint16 0, .uint16 0, .uint16 1, .empty, .uint16 97, .uint16 97],
    kindRecord .dfaState [.uint16 0, .boolean false, .uint16 0, .empty,
      .uint16 0, .uint16 1, .empty],
    kindRecord .dfaState [.uint16 1, .boolean true, .uint16 2, .empty]].flatMap recordBytes

/-- The letter `a` is rejected, and reported as expected. -/
theorem expected_of_syntaxError_errorFile :
    ∃ grammar current next offending, Grammar.ofBytes errorFile = .ok grammar ∧
      ((start grammar).openText grammar "a").parse grammar = some (.tokenRead, current) ∧
      current.parse grammar = some (.syntaxError, next) ∧
      next.currentToken? = some offending ∧ Rejects grammar next.lrState offending.symbol ∧
      offending.symbol ∈ next.expected ∧
      ¬ ∀ symbol, symbol ∈ next.expected ↔
        grammar.IsTerminal symbol ∧ ¬Rejects grammar next.lrState symbol := by
  have hpasses : Grammar.passes errorFile (fun grammar =>
      (((start grammar).openText grammar "a").parse grammar).any fun first =>
        first.1 = .tokenRead && (first.2.parse grammar).any fun second =>
          second.1 = .syntaxError && second.2.currentToken?.any fun token =>
            grammar.kind? token.symbol = some .content &&
              Batch.firstAction? grammar second.2.lrState token.symbol = some .error) = true := by
    decide +kernel
  obtain ⟨grammar, hgrammar, htest⟩ := Grammar.exists_of_passes hpasses
  simp only [Option.any_eq_true, Bool.and_eq_true, decide_eq_true_eq] at htest
  obtain ⟨⟨read, current⟩, hread, rfl, ⟨message, next⟩, hparse, rfl, token, htoken, hkind,
    herror⟩ := htest
  obtain ⟨-, hexact, offending, hoffending, hrejects, hmem⟩ :=
    expected_of_syntaxError (.inl ⟨_, hgrammar⟩) hparse
  rw [htoken] at hoffending
  cases hoffending
  refine ⟨grammar, current, next, token, hgrammar, hread, hparse, htoken, hrejects,
    hmem.2 ⟨.inl hkind, herror⟩, fun hsame => ?_⟩
  exact hexact.1 hsame token.symbol (.inl hkind) herror

end Parser

end GoldTables
