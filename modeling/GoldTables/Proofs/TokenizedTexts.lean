import GoldTables.Proofs.TokenProgress

/-!
# Texts that are tokenized

Tokens are read up to the first that carries the end symbol. If the automaton
never takes anything for the end of the input, this token comes on every text:
the tokens in front of it take at least one character each, whatever groups
they are gathered from, and inside a group only the end of the text is a token.

Results:
* `nextToken_runaway`: a token inside a group is the empty end token.
* `nextToken_shortens`: any token but the end token takes some of the text.
* `tokenize_openText`: every text is tokenized, with no more tokens than it has characters, and the
  end token.
-/

namespace GoldTables

/-- No state of the automaton accepts a symbol that stands for the end of the input. -/
def Tables.AcceptsNoEnd (tables : Tables) : Prop :=
  ∀ row ∈ tables.dfaStates, row.accept.bind tables.kind? ≠ some .endOfInput

instance (tables : Tables) : Decidable tables.AcceptsNoEnd :=
  inferInstanceAs (Decidable (∀ row ∈ tables.dfaStates, _))

variable {grammar : Grammar}

/-- What the automaton finds in a text is no end of the input. -/
theorem Grammar.Loaded.text_eq_nil_of_end (h : grammar.Loaded) (hend : grammar.AcceptsNoEnd)
    {text : List Char}
    (hkind : grammar.kind? (grammar.recognize text).1.symbol = some .endOfInput) :
    (grammar.recognize text).1.text = [] := by
  have haccepted : ∀ state symbol, grammar.accepted? state = some symbol →
      grammar.kind? symbol ≠ some .endOfInput := by
    intro state symbol haccepted
    obtain ⟨row, hrow, hsymbol⟩ := Option.bind_eq_some_iff.1 haccepted
    have hno := hend row (Array.mem_of_getElem? hrow)
    rw [hsymbol, Option.bind_some] at hno
    exact hno
  cases text with
  | nil => rfl
  | cons c rest =>
    have hscan := scan_accepted grammar.toTables haccepted (c :: rest) grammar.dfaInitial 0 none
      (by nofun)
    rw [recognize] at hkind
    split at hkind
    · next symbol length looked heq => exact absurd hkind (hscan symbol length (by rw [heq]))
    · rw [h.errorKind] at hkind
      cases hkind

namespace Lexer

open Grammar.Loaded

variable {lexer : Lexer}

/-- A token inside a group is the end token, and empty. -/
theorem nextToken_runaway (hloaded : grammar.Loaded) (hend : grammar.AcceptsNoEnd)
    (hgroups : GroupsExist grammar lexer) (hinside : (lexer.nextToken grammar).2.inGroup = true) :
    (lexer.nextToken grammar).1.symbol = grammar.endSymbol ∧
      (lexer.nextToken grammar).1.payload = .text "" := by
  refine nextToken?_of_invariant (GroupsExist grammar)
    (fun token next => next.inGroup = true →
      token.symbol = grammar.endSymbol ∧ token.payload = .text "") ?_ ?_ hgroups
    (hloaded.nextToken?_eq lexer) hinside
  · intro current next hexist hstep
    have hnext := hloaded.linked.groupsExist_step hstep hexist
    exact hnext
  · intro current token next hexist hstep hin
    cases hstep with
    | outside hopens hnone =>
      rw [inGroup, consume_groups, hnone] at hin
      cases hin
    | unknownGroup hopens houter hunknown =>
      rw [GroupsExist, ← peek_groups current grammar, houter] at hexist
      have hlt := hexist _ List.mem_cons_self
      rw [Tables.group?, Array.getElem?_eq_getElem hlt] at hunknown
      cases hunknown
    | closeOuter => cases hin
    | runaway hopens houter hgroup hfinish hkind =>
      have hnil : (grammar.recognize current.rest).1.text = [] :=
        hloaded.text_eq_nil_of_end hend hkind
      refine ⟨recognize_isEmpty (List.isEmpty_iff.2 hnil), ?_⟩
      show Payload.text (String.ofList (grammar.recognize current.rest).1.text) = _
      rw [hnil]

/-- Outside of groups, a token at the end of the text is the end token. -/
theorem nextToken_of_rest (hloaded : grammar.Loaded) (hgroups : lexer.groups = [])
    (hrest : lexer.rest = []) : (lexer.nextToken grammar).1.symbol = grammar.endSymbol := by
  have hpeek : (lexer.peek grammar).1 = ⟨grammar.endSymbol, []⟩ := by
    rw [peek_fst, Grammar.markAt, place, hrest]
    rfl
  have hnone : (lexer.peek grammar).2.opens? grammar (lexer.peek grammar).1.symbol = none := by
    rw [hpeek, Option.eq_none_iff_forall_ne_some]
    intro group hopens
    have hkind := kind?_of_opens? hopens
    rw [hloaded.endKind] at hkind
    cases hkind
  rw [nextToken_of_token (Step.outside hnone hgroups).groupStep_eq, tokenOf, hpeek]
  rfl

/-- Any other token takes some of the text, unless a group is open behind it. -/
theorem nextToken_shortens (hloaded : grammar.Loaded) (hgroups : lexer.groups = [])
    (houtside : (lexer.nextToken grammar).2.inGroup = false)
    (hsymbol : (lexer.nextToken grammar).1.symbol ≠ grammar.endSymbol) :
    (lexer.nextToken grammar).1.chars ≠ [] ∧
      (lexer.nextToken grammar).2.rest.length < lexer.rest.length := by
  have hrest : lexer.rest ≠ [] := fun hnil => hsymbol (nextToken_of_rest hloaded hgroups hnil)
  have hmark := (recognize_length grammar lexer.rest).2 hrest
  have hbegins := (nextToken_begins hgroups houtside).2.length_le
  have hlength := congrArg List.length (chars_append_rest hgroups houtside)
  rw [List.length_append] at hlength
  have hpos : 0 < (lexer.nextToken grammar).1.chars.length := Nat.lt_of_lt_of_le hmark hbegins
  exact ⟨List.length_pos_iff.1 hpos, by omega⟩

/-- Reading comes to the end token before the characters are used up. -/
theorem exists_tokensUpTo (hloaded : grammar.Loaded) (hend : grammar.AcceptsNoEnd) {n : Nat}
    (done : List Token) (hgroups : lexer.groups = []) (hn : lexer.rest.length < n) :
    ∃ front last after,
      tokensUpTo grammar n done lexer = some (done.reverse ++ (front ++ [last]), after) ∧
        front.length ≤ lexer.rest.length ∧
        (∀ token ∈ front, token.symbol ≠ grammar.endSymbol ∧ token.chars ≠ []) ∧
        last.symbol = grammar.endSymbol ∧
        (after.inGroup = true ∧ last.payload = .text "" ∨ after.inGroup = false) := by
  induction n generalizing lexer done with
  | zero => omega
  | succ n ih =>
    have hexist : GroupsExist grammar lexer := by
      rw [GroupsExist, hgroups]
      exact List.forall_mem_nil _
    rw [tokensUpTo, hloaded.nextToken?_eq]
    simp only [Option.bind_eq_bind, Option.bind_some]
    by_cases hsymbol : (lexer.nextToken grammar).1.symbol = grammar.endSymbol
    · rw [if_pos hsymbol]
      refine ⟨[], _, _, by rw [List.reverse_cons]; rfl, Nat.zero_le _,
        List.forall_mem_nil _, hsymbol, ?_⟩
      cases hinside : (lexer.nextToken grammar).2.inGroup with
      | true => exact .inl ⟨rfl, (nextToken_runaway hloaded hend hexist hinside).2⟩
      | false => exact .inr rfl
    · have houtside : (lexer.nextToken grammar).2.inGroup = false := by
        rw [← Bool.not_eq_true]
        exact fun hinside => hsymbol (nextToken_runaway hloaded hend hexist hinside).1
      obtain ⟨hchars, hlt⟩ := nextToken_shortens hloaded hgroups houtside hsymbol
      obtain ⟨front, last, after, htokens, hfew, hfront, hlast⟩ :=
        ih ((lexer.nextToken grammar).1 :: done)
          (show (lexer.nextToken grammar).2.groups = [] by simpa [inGroup] using houtside)
          (by omega)
      rw [if_neg hsymbol, htokens]
      refine ⟨(lexer.nextToken grammar).1 :: front, last, after, by simp, ?_, ?_, hlast⟩
      · rw [List.length_cons]
        omega
      · exact List.forall_mem_cons.2 ⟨⟨hsymbol, hchars⟩, hfront⟩

/-- If the automaton accepts no symbol that stands for the end of the input, every text is
    tokenized, with at most one token for each of its characters and one more. The last token
    carries the end symbol, and no other token does; the others are not empty. In the end a group
    is open, and then the last token is empty, or no group is open. -/
theorem tokenize_openText {bytes : List UInt8} (h : Grammar.ofBytes bytes = .ok grammar)
    (hend : grammar.AcceptsNoEnd) (text : String) :
    ∃ front last after, (openText text).tokenize grammar = some (front ++ [last], after) ∧
      (front ++ [last]).length ≤ text.length + 1 ∧
      (∀ token ∈ front, token.symbol ≠ grammar.endSymbol ∧ token.chars ≠ []) ∧
      last.symbol = grammar.endSymbol ∧
      (after.inGroup = true ∧ last.payload = .text "" ∨ after.inGroup = false) := by
  have hwork : (openText text).rest.length < (openText text).work + 2 := by
    rw [work]
    omega
  obtain ⟨front, last, after, htokens, hfew, hfront, hlast⟩ :=
    exists_tokensUpTo (Grammar.loaded_of_ofBytes h) hend [] rfl hwork
  refine ⟨front, last, after, htokens, ?_, hfront, hlast⟩
  rw [List.length_append]
  exact Nat.succ_le_succ hfew

/-- A letter that no terminal matches, a comment with one inside, and a comment that is not
    closed. -/
theorem tokenize_openText_nestedFile :
    ∃ grammar front last after, Grammar.ofBytes nestedFile = .ok grammar ∧ grammar.AcceptsNoEnd ∧
      (openText "x(())(x").tokenize grammar = some (front ++ [last], after) ∧
      (∀ token ∈ front, token.symbol ≠ grammar.endSymbol ∧ token.chars ≠ []) ∧
      front.map (·.payload.text?) = [some "x", some "(())"] ∧
      after.inGroup = true ∧ last.payload = .text "" := by
  have hpasses : Grammar.passes nestedFile (fun grammar =>
      decide grammar.AcceptsNoEnd &&
        ((openText "x(())(x").tokenize grammar).any fun found =>
          found.2.inGroup && found.1.map (·.payload.text?) = [some "x", some "(())", some ""]) =
        true := by decide +kernel
  obtain ⟨grammar, hgrammar, htest⟩ := Grammar.exists_of_passes hpasses
  simp only [Bool.and_eq_true, Option.any_eq_true, decide_eq_true_eq] at htest
  obtain ⟨hend, ⟨tokens, behind⟩, hfound, hinside, htexts⟩ := htest
  obtain ⟨front, last, after, htokens, -, hfront, -, hlast⟩ :=
    tokenize_openText hgrammar hend "x(())(x"
  obtain ⟨rfl, rfl⟩ := Prod.mk.inj (Option.some.inj (hfound.symm.trans htokens))
  have hsplit : front.map (·.payload.text?) ++ [last.payload.text?] =
      [some "x", some "(())"] ++ [some ""] := List.map_append.symm.trans htexts
  obtain ⟨hfrontTexts, -⟩ := List.append_inj' hsplit rfl
  exact ⟨grammar, front, last, behind, hgrammar, hend, htokens, hfront, hfrontTexts, hinside,
    (hlast.resolve_right (by rw [hinside]; nofun)).2⟩

end Lexer

end GoldTables
