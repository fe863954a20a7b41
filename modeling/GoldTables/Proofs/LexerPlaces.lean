import GoldTables.Proofs.LexerSteps

/-!
# Places in a text

A lexer stands at a place of its text: in front of the characters that are
still to be consumed, and at the position of the next one. What it recognizes
there is the beginning of these characters. How many of them it has drawn from
the source makes no difference to where it goes from there.

Results:
* `isPrefix_recognize`: what is recognized is the beginning of the text.
* `Lexer.place_consume`: consuming some of it leads to the place behind them.
* `Lexer.place_closing`: so does closing a group.
-/

namespace GoldTables

/-- What is recognized is the beginning of the text. -/
theorem isPrefix_recognize (grammar : Grammar) (text : List Char) :
    (grammar.recognize text).1.text <+: text := by
  cases text with
  | nil => exact List.prefix_refl []
  | cons c rest =>
    rw [Grammar.recognize]
    split
    · exact List.take_prefix _ _
    · exact ⟨rest, rfl⟩

/-- A place in a text. -/
structure Place where
  /-- The characters that are still to be consumed. -/
  rest : List Char
  /-- Where the next one is. -/
  position : Position

/-- The place behind a number of characters. -/
def Place.skip (place : Place) (n : Nat) : Place :=
  ⟨place.rest.drop n, place.position.advanceBy (place.rest.take n)⟩

@[simp] theorem Place.rest_skip (place : Place) (n : Nat) :
    (place.skip n).rest = place.rest.drop n := rfl

/-- The stretch of text that is recognized at a place. -/
def Grammar.markAt (grammar : Grammar) (place : Place) : Stretch :=
  (grammar.recognize place.rest).1

/-- The token of the automaton at a place. -/
def Grammar.rawAt (grammar : Grammar) (place : Place) : Token :=
  .ofText (grammar.markAt place).symbol (grammar.markAt place).text place.position

/-- The part of a stretch of text that a group appends. -/
def AdvanceMode.part : AdvanceMode → List Char → List Char
  | .token, text => text
  | .character, text => text.take 1

theorem AdvanceMode.isPrefix_part (advance : AdvanceMode) (text : List Char) :
    advance.part text <+: text := by
  cases advance with
  | token => exact List.prefix_refl text
  | character => exact List.take_prefix 1 text

theorem AdvanceMode.part_ne_nil (advance : AdvanceMode) {text : List Char} (h : text ≠ []) :
    advance.part text ≠ [] := by
  cases advance with
  | token => exact h
  | character =>
    obtain ⟨c, rest, rfl⟩ := List.exists_cons_of_ne_nil h
    exact List.cons_ne_nil c []

namespace Lexer

variable {grammar : Grammar} {lexer : Lexer}

/-- Where a lexer is. -/
def place (lexer : Lexer) : Place := ⟨lexer.rest, lexer.position⟩

theorem peek_fst (lexer : Lexer) (grammar : Grammar) :
    (lexer.peek grammar).1 = grammar.markAt lexer.place := rfl

/-- The beginning of what was recognized, and the characters behind it, make up the rest. -/
theorem append_rest_consume {text : List Char} (h : text <+: (lexer.peek grammar).1.text) :
    text ++ ((lexer.peek grammar).2.consume text.length).rest = lexer.rest := by
  obtain ⟨more, hmore⟩ := h.trans (isPrefix_recognize grammar lexer.rest)
  rw [consume_rest (Nat.le_trans h.length_le (length_peek_le lexer grammar)), peek_rest, ← hmore,
    List.drop_left]

/-- Consuming some of what was recognized leads to the place behind it. -/
theorem place_consume {n : Nat} (h : n ≤ (lexer.peek grammar).1.text.length) :
    ((lexer.peek grammar).2.consume n).place = lexer.place.skip n := by
  have hn : min n (lexer.peek grammar).2.buffered = n :=
    Nat.min_eq_left (Nat.le_trans h (length_peek_le lexer grammar))
  rw [place, consume, hn]
  rfl

theorem place_openGroup (group : UInt16) :
    ((lexer.peek grammar).2.openGroup group (lexer.peek grammar).1).place =
      lexer.place.skip (lexer.peek grammar).1.text.length :=
  place_consume (Nat.le_refl _)

theorem gather_eq (advance : AdvanceMode) (stretch : Stretch) (top : OpenGroup)
    (outer : List OpenGroup) :
    lexer.gather advance stretch top outer =
      { lexer.consume (advance.part stretch.text).length with
        groups :=
          { top with text := top.text ++ String.ofList (advance.part stretch.text) } :: outer } := by
  cases advance <;> rfl

theorem place_gather (advance : AdvanceMode) (top : OpenGroup) (outer : List OpenGroup) :
    ((lexer.peek grammar).2.gather advance (lexer.peek grammar).1 top outer).place =
      lexer.place.skip (advance.part (lexer.peek grammar).1.text).length := by
  rw [gather_eq]
  exact place_consume (advance.isPrefix_part _).length_le

/-- The text of a group in the end, and how much of its closing mark belongs to it. -/
theorem place_closing (group : Group) (top : OpenGroup) :
    ((lexer.peek grammar).2.closing group (lexer.peek grammar).1 top).2.place =
      match group.ending with
      | .openEnded => lexer.place
      | .closed => lexer.place.skip (lexer.peek grammar).1.text.length := by
  rw [closing]
  cases group.ending with
  | openEnded => rfl
  | closed => exact place_consume (Nat.le_refl _)

end Lexer

end GoldTables
