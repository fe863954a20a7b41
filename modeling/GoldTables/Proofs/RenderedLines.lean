import GoldTables.Proofs.TreeWalks
import GoldTables.Tree.Render

/-!
# Every token is shown on a line of its own

A tree is shown as one line for each token. The texts and values of its tokens
may hold line breaks, but their labels do not: texts and the strings of JSON
values are escaped, numbers are spelled without a break, and the signs around
the names of symbols are none. So the lines can be told apart again, unless a
symbol has a name with a line break.

Results:
* `Text.oneLine_quoted`, `Json.oneLine_quote`: an escaped text has no line break.
* `Json.oneLine_compact`: neither has a JSON value without blanks.
* `Tables.HasPlainNames.oneLine_tokenLabel`: neither has the label of a token.
* `Tables.splitOn_renderTree`: the lines of a tree.
-/

namespace GoldTables

/-! ## Texts without line breaks -/

/-- The text has no line break. -/
def OneLine (text : String) : Prop := '\n' ∉ text.toList

instance (text : String) : Decidable (OneLine text) :=
  inferInstanceAs (Decidable ('\n' ∉ text.toList))

section OneLine

variable {s t : String}

theorem OneLine.append (hs : OneLine s) (ht : OneLine t) : OneLine (s ++ t) := by
  rw [OneLine, String.toList_append, List.mem_append, not_or]
  exact ⟨hs, ht⟩

/-- A text in quotes is on one line if every character is escaped to what has no break. -/
theorem oneLine_escaped {escape : Char → List Char} (h : ∀ c, '\n' ∉ escape c) (s : String) :
    OneLine (String.ofList ('"' :: s.toList.flatMap escape ++ ['"'])) := by
  rw [OneLine, String.toList_ofList, List.cons_append, List.mem_cons, List.mem_append,
    List.mem_flatMap]
  rintro (hquote | ⟨c, -, hc⟩ | hquote)
  · exact absurd hquote (by decide)
  · exact h c hc
  · exact absurd hquote (by decide)

theorem notMem_ite {p : Prop} [Decidable p] {cs ds : List Char} (hcs : '\n' ∉ cs)
    (hds : '\n' ∉ ds) : '\n' ∉ if p then cs else ds := by
  split
  · exact hcs
  · exact hds

theorem ne_digitChar : ∀ d < 16, '\n' ≠ Nat.digitChar d := by decide

/-- No digit is a line break. -/
theorem notMem_toDigits {base : Nat} (hbase : 1 < base) (hle : base ≤ 16) (n : Nat) :
    '\n' ∉ Nat.toDigits base n := by
  induction n using Nat.strongRecOn with
  | ind n ih =>
    rw [Nat.toDigits_eq_if hbase]
    split
    · next hlt =>
      rw [List.mem_singleton]
      exact ne_digitChar n (by omega)
    · next hge =>
      have hless : n / base < n := Nat.div_lt_self (by omega) hbase
      have hmod := Nat.mod_lt n (Nat.zero_lt_of_lt hbase)
      rw [List.mem_append, List.mem_singleton, not_or]
      exact ⟨ih _ hless, ne_digitChar _ (by omega)⟩

theorem oneLine_repr (n : Nat) : OneLine (Nat.repr n) := by
  rw [OneLine, Nat.toList_repr]
  exact notMem_toDigits (by decide) (by decide) n

theorem oneLine_toString (n : Int) : OneLine (toString n) := by
  cases n with
  | ofNat n => exact oneLine_repr n
  | negSucc n => exact OneLine.append (s := "-") (by decide) (oneLine_repr (n + 1))

end OneLine

/-! ## Lines one below the other -/

section Lines

variable {α : Type} {lines : List α} {line : α → List Char}

/-- Lines that end with a line break are found again, and nothing behind them. -/
theorem splitOn_flatMap (h : ∀ item ∈ lines, '\n' ∉ line item) :
    (lines.flatMap fun item => line item ++ ['\n']).splitOn '\n' = lines.map line ++ [[]] := by
  have hjoin : lines.flatMap (fun item => line item ++ ['\n']) =
      ['\n'].intercalate (lines.map line ++ [[]]) := by
    clear h
    induction lines with
    | nil => rfl
    | cons item lines ih =>
      have hne : lines.map line ++ [[]] ≠ [] := List.append_ne_nil_of_right_ne_nil _ (by simp)
      obtain ⟨next, more, hmore⟩ := List.exists_cons_of_ne_nil hne
      rw [List.flatMap_cons, ih, List.map_cons, List.cons_append, hmore,
        List.intercalate_cons_cons]
  rw [hjoin]
  refine List.splitOn_intercalate '\n' (fun text htext => ?_) (by simp)
  rcases List.mem_append.1 htext with hline | hlast
  · obtain ⟨item, hitem, rfl⟩ := List.mem_map.1 hline
    exact h item hitem
  · rw [List.mem_singleton.1 hlast]
    exact List.not_mem_nil

/-- There are as many line breaks as lines. -/
theorem count_flatMap (h : ∀ item ∈ lines, '\n' ∉ line item) :
    (lines.flatMap fun item => line item ++ ['\n']).count '\n' = lines.length := by
  induction lines with
  | nil => rfl
  | cons item lines ih =>
    obtain ⟨hitem, hlines⟩ := List.forall_mem_cons.1 h
    rw [List.flatMap_cons, List.count_append, List.count_append, List.count_eq_zero.2 hitem,
      ih hlines, List.length_cons, List.count_singleton_self]
    omega

end Lines

/-! ## Escaped texts -/

namespace Text

theorem oneLine_quoted (s : String) : OneLine (quoted s) := by
  refine oneLine_escaped (fun c => ?_) s
  have hcode : '\n' ∉ ['\\', 'u', '\x7b'] ++ hexDigits c.toNat ++ ['\x7d'] := by
    rw [List.mem_append, List.mem_append, not_or, not_or]
    exact ⟨⟨by decide, notMem_toDigits (by decide) (by decide) c.toNat⟩, by decide⟩
  -- a character that stands for itself is no line break, since that one has an escape
  by_cases hc : '\n' = c
  · rw [← hc]
    decide
  · have hself : '\n' ∉ [c] := fun hmem => hc (List.mem_singleton.1 hmem)
    exact notMem_ite (by decide) <| notMem_ite (by decide) <| notMem_ite (by decide) <|
      notMem_ite (by decide) <| notMem_ite (by decide) <| notMem_ite (by decide) <|
      notMem_ite hself <| notMem_ite hself hcode

end Text

theorem Text.notMem_hexByte (b : UInt8) : '\n' ∉ hexByte b := by
  have hlt := b.toNat_lt
  rw [hexByte, List.mem_cons, List.mem_singleton, not_or]
  exact ⟨ne_digitChar _ (by omega), ne_digitChar _ (by omega)⟩

namespace Json

theorem oneLine_quote (s : String) : OneLine (quote s) := by
  refine oneLine_escaped (fun c => ?_) s
  have hcode : '\n' ∉ ['\\', 'u', '0', '0'] ++ Text.hexByte (UInt8.ofNat c.toNat) := by
    rw [List.mem_append, not_or]
    exact ⟨by decide, Text.notMem_hexByte _⟩
  by_cases hc : '\n' = c
  · rw [← hc]
    decide
  · have hself : '\n' ∉ [c] := fun hmem => hc (List.mem_singleton.1 hmem)
    exact notMem_ite (by decide) <| notMem_ite (by decide) <| notMem_ite (by decide) <|
      notMem_ite (by decide) <| notMem_ite (by decide) <| notMem_ite (by decide) <|
      notMem_ite (by decide) <| notMem_ite hcode hself

/-! ## Values -/

theorem oneLine_numeral (numeral : Numeral) : OneLine numeral.text := by
  intro hmem
  exact absurd (List.all_eq_true.1 numeral.isNumeral _ hmem) (by decide)

mutual

theorem oneLine_compact (value : Json) : OneLine value.compact := by
  match value with
  | null | bool true | bool false | arr [] | obj [] | unreadable =>
    rw [compact]
    decide
  | int n =>
    rw [compact]
    exact oneLine_toString n
  | fraction numeral =>
    rw [compact]
    exact oneLine_numeral numeral
  | str s =>
    rw [compact]
    exact oneLine_quote s
  | arr (item :: items) =>
    rw [compact]
    have hfirst : OneLine ("[" ++ item.compact) := .append (by decide) (oneLine_compact item)
    exact (oneLine_compactItems items hfirst).append (by decide)
  | obj ((key, member) :: members) =>
    rw [compact]
    have hkey : OneLine ("\x7b" ++ quote key ++ ":") :=
      .append (.append (by decide) (oneLine_quote key)) (by decide)
    exact (oneLine_compactMembers members (hkey.append (oneLine_compact member))).append (by decide)

theorem oneLine_compactItems (items : List Json) {done : String} (h : OneLine done) :
    OneLine (compactItems done items) := by
  match items with
  | [] =>
    rw [compactItems]
    exact h
  | item :: items =>
    rw [compactItems]
    have hcomma : OneLine (done ++ ",") := h.append (by decide)
    exact oneLine_compactItems items (hcomma.append (oneLine_compact item))

theorem oneLine_compactMembers (members : List (String × Json)) {done : String}
    (h : OneLine done) : OneLine (compactMembers done members) := by
  match members with
  | [] =>
    rw [compactMembers]
    exact h
  | (key, member) :: members =>
    rw [compactMembers]
    have hkey : OneLine (done ++ "," ++ quote key ++ ":") :=
      ((h.append (by decide)).append (oneLine_quote key)).append (by decide)
    exact oneLine_compactMembers members (hkey.append (oneLine_compact member))

end

end Json

/-! ## Labels -/

theorem Symbol.oneLine_text {symbol : Symbol} (h : OneLine symbol.name) : OneLine symbol.text := by
  have hquoted (before after : String) (hbefore : OneLine before) (hafter : OneLine after) :
      OneLine (before ++ symbol.name ++ after) := (hbefore.append h).append hafter
  rw [Symbol.text, Symbol.delimited]
  split
  · exact hquoted _ _ (by decide) (by decide)
  · rw [literalText]
    split
    · decide
    · split
      · exact hquoted _ _ (by decide) (by decide)
      · exact h
  · exact hquoted _ _ (by decide) (by decide)

namespace Tables

/-- No symbol has a line break in its name. -/
def HasPlainNames (tables : Tables) : Prop := ∀ symbol ∈ tables.symbols, OneLine symbol.name

instance (tables : Tables) : Decidable tables.HasPlainNames :=
  inferInstanceAs (Decidable (∀ symbol ∈ tables.symbols, OneLine symbol.name))

variable {tables : Tables}

theorem HasPlainNames.oneLine_symbolLabel (h : tables.HasPlainNames) (index : UInt16) :
    OneLine (tables.symbolLabel index) := by
  rw [symbolLabel]
  split
  · next symbol hsymbol =>
    exact Symbol.oneLine_text (h symbol (Array.mem_of_getElem? hsymbol))
  · exact OneLine.append (s := "#") (by decide) (oneLine_repr index.toNat)

theorem HasPlainNames.oneLine_productionText (h : tables.HasPlainNames) (production : Production) :
    OneLine (tables.productionText production) := by
  rw [productionText]
  have hhead : OneLine (tables.symbolLabel production.head ++ " ::=") :=
    (h.oneLine_symbolLabel _).append (by decide)
  refine List.foldlRecOn production.body _ hhead fun text htext symbol _ => ?_
  exact (htext.append (by decide)).append (h.oneLine_symbolLabel symbol)

theorem HasPlainNames.oneLine_tokenLabel (h : tables.HasPlainNames) (token : Token) :
    OneLine (tables.tokenLabel token) := by
  have hsymbol := h.oneLine_symbolLabel token.symbol
  rw [tokenLabel]
  split
  · next text _ => exact (hsymbol.append (by decide)).append (Text.oneLine_quoted text)
  · next index _ _ =>
    cases tables.production? index with
    | none => exact (by decide : OneLine "")
    | some production => exact h.oneLine_productionText production
  · next value _ => exact (hsymbol.append (by decide)).append value.oneLine_compact

/-! ## Lines -/

/-- A token on a line of its own: two blanks for each level above it, and its label. -/
def shownToken (tables : Tables) (depth : Nat) (token : Token) : List Char :=
  List.replicate (2 * depth) ' ' ++ (tables.tokenLabel token).toList

theorem HasPlainNames.notMem_shownToken (h : tables.HasPlainNames) (depth : Nat) (token : Token) :
    '\n' ∉ tables.shownToken depth token := by
  rw [shownToken, List.mem_append, not_or]
  refine ⟨fun hblank => ?_, h.oneLine_tokenLabel token⟩
  exact absurd (List.eq_of_mem_replicate hblank) (by decide)

theorem toList_renderTree (tables : Tables) (root : Token) :
    (tables.renderTree root).toList = root.walk.flatMap fun visit =>
      tables.shownToken visit.1 visit.2 ++ ['\n'] := by
  rw [renderTree, String.toList_join, List.flatMap_map]
  refine congrArg root.walk.flatMap (funext fun visit => ?_)
  show (tables.tokenLine visit.1 visit.2).toList = _
  rw [tokenLine, String.toList_append, String.toList_append, String.toList_ofList]
  rfl

/-- If no symbol has a line break in its name, a tree is shown as one line for each token that a
    walk visits, in this order, and each line ends with a line break. The walk visits the root first,
    and then the trees below it, one level deeper. -/
theorem splitOn_renderTree (tables : Tables) (root : Token) (h : tables.HasPlainNames) :
    (tables.renderTree root).toList.splitOn '\n' =
        (root.walk.map fun visit => tables.shownToken visit.1 visit.2) ++ [[]] ∧
      (tables.renderTree root).toList.count '\n' = root.walk.length ∧
      root.walk = (0, root) ::
        root.children.flatMap fun child => child.walk.map fun visit => (visit.1 + 1, visit.2) := by
  have hlines : ∀ visit ∈ root.walk, '\n' ∉ tables.shownToken visit.1 visit.2 :=
    fun visit _ => h.notMem_shownToken visit.1 visit.2
  rw [toList_renderTree]
  exact ⟨splitOn_flatMap hlines, count_flatMap hlines, root.walk_eq⟩

/-- Tables with a nonterminal and a terminal that needs no quotes. -/
def wordTables : Tables where
  header := ""
  properties := .empty
  symbols := #[⟨0, "List", .nonterminal, none⟩, ⟨1, "Word", .content, none⟩]
  characterSets := #[]
  productions := #[⟨0, 0, [1, 0]⟩]
  dfaStates := #[]
  lrStates := #[]
  groups := #[]
  dfaInitial := 0
  lrInitial := 0

/-- Line breaks in a text, in a string and in a key, and no such symbol or production. -/
def brokenWords : Token :=
  ⟨0, .reduction 0
    [⟨1, .text "a\nb", .start, 0⟩,
      ⟨0, .reduction 7
        [⟨9, .value (.obj [("\n", .arr [.str "\r\n", .int (-5), .fraction "2e3"])]), .start, 0⟩],
        .start, 0⟩],
    .start, 0⟩

theorem splitOn_renderTree_brokenWords : wordTables.HasPlainNames ∧
    (wordTables.renderTree brokenWords).toList.splitOn '\n' =
      ["<List> ::= Word <List>", "  Word \"a\\nb\"", "  ",
        "    #9 = \x7b\"\\n\":[\"\\r\\n\",-5,2e3]\x7d", ""].map String.toList ∧
    (wordTables.renderTree brokenWords).toList.count '\n' = 4 := by
  have hplain : wordTables.HasPlainNames := by decide
  obtain ⟨hlines, hcount, -⟩ := splitOn_renderTree wordTables brokenWords hplain
  refine ⟨hplain, hlines.trans ?_, hcount.trans ?_⟩
  · decide +kernel
  · decide +kernel

end Tables

end GoldTables
