import GoldTables.Proofs.BatchMachine

/-!
# Errors that are skipped

A consumer may discard a token that no terminal matches, and go on. The parse is
then the one in which the token was never there: an error is reported before
the parser takes any step on it, and nothing but the queue held it. So the
messages end as the batch machine does on the tokens that are neither noise nor
errors, and leave the same stack.

The machine takes the body of a production from its stack, and then looks where
the head goes. If it goes nowhere, the body is off the stack in the end.

Results:
* `Batch.run_eq_map_finish`: the machine with its stack in the end is the machine.
* `exists_skipErrors_iff`: calls that skip errors, step by step.
* `Aligned.joint`: what the parser and the machine make of the next step.
* `skipErrors_iff_batch`: both come to the same end, or to none.
-/

namespace GoldTables

/-! ## Tokens that are neither noise nor errors -/

namespace Lexer

variable {grammar : Grammar} {reading : Reading} {readings : List Reading}

/-- The tokens that are neither noise nor errors. -/
def matched (grammar : Grammar) (readings : List Reading) : List Reading :=
  (significant grammar readings).filter fun reading =>
    grammar.kind? reading.token.symbol ≠ some .error

theorem matched_cons (hnoise : grammar.kind? reading.token.symbol ≠ some .noise)
    (herror : grammar.kind? reading.token.symbol ≠ some .error) :
    matched grammar (reading :: readings) = reading :: matched grammar readings := by
  rw [matched, significant_cons reading hnoise, List.filter_cons_of_pos (by simpa using herror)]
  rfl

theorem matched_cons_noise (h : grammar.kind? reading.token.symbol = some .noise) :
    matched grammar (reading :: readings) = matched grammar readings := by
  rw [matched, significant_cons_noise reading h]
  rfl

theorem matched_cons_error (h : grammar.kind? reading.token.symbol = some .error) :
    matched grammar (reading :: readings) = matched grammar readings := by
  have hnoise : grammar.kind? reading.token.symbol ≠ some .noise := by
    rw [h]
    nofun
  rw [matched, significant_cons reading hnoise, List.filter_cons_of_neg (by simpa using h)]
  rfl

end Lexer

/-! ## The machine and its stack in the end -/

namespace Batch

/-- What is reported with an answer. -/
def report : Except ParseError Token → Message
  | .ok _ => .accept
  | .error (.lexical _ _) => .lexicalError
  | .error (.unexpected _ _ _) => .syntaxError
  | .error (.group _) => .groupError
  | .error (.internal _) => .internalError
  | .error .notLoaded => .notLoaded

/-- The production that the machine is to apply in front of a token. -/
def applied? (grammar : Grammar) (stack : Stack) (reading : Lexer.Reading) : Option Production :=
  if reading.inGroup || grammar.kind? reading.token.symbol = some .error then none
  else
    match stack with
    | [] => none
    | (state, _) :: _ =>
      match firstAction? grammar state reading.token.symbol with
      | some (.reduce index) => grammar.production? index
      | _ => none

/-- The stack behind a step that ends the run. A production has taken its body from the stack, if
    there were enough tokens for it. -/
def left (grammar : Grammar) (stack : Stack) (reading : Lexer.Reading) : Stack :=
  match applied? grammar stack reading with
  | some production =>
    if production.body.length < stack.length then stack.drop production.body.length else stack
  | none => stack

/-- Runs the machine on tokens, for at most a number of steps: its answer, and the stack in the
    end. -/
def finish (grammar : Grammar) (trim : Bool) :
    Nat → List Lexer.Reading → Stack → Option (Except ParseError Token × Stack)
  | 0, _, _ => none
  | _ + 1, [], _ => none
  | n + 1, reading :: rest, stack =>
    match step grammar trim stack reading with
    | .halt answer => some (answer, left grammar stack reading)
    | .shift stack => finish grammar trim n rest stack
    | .reduce stack => finish grammar trim n (reading :: rest) stack

/-- The answer is that of `run`. -/
theorem run_eq_map_finish (grammar : Grammar) (trim : Bool) (n : Nat)
    (readings : List Lexer.Reading) (stack : Stack) :
    run grammar trim n readings stack =
      (finish grammar trim n readings stack).map Prod.fst := by
  induction n generalizing readings stack with
  | zero => rfl
  | succ n ih =>
    cases readings with
    | nil => rfl
    | cons reading rest =>
      rw [run, finish]
      cases step grammar trim stack reading with
      | halt answer => rfl
      | shift stack => exact ih rest stack
      | reduce stack => exact ih (reading :: rest) stack

end Batch

namespace Parser

variable {grammar : Grammar} {parser next last : Parser} {message : Message} {trim : Bool}

/-! ## Calls that skip errors -/

/-- Calls `parse` up to a final message, at most a number of times. A lexical error is not the end:
    its token is discarded. -/
def skipErrors (grammar : Grammar) : Nat → Parser → Option (Message × Parser)
  | 0, _ => none
  | n + 1, parser => do
    let (message, parser) ← parser.parse grammar
    if message = .lexicalError then skipErrors grammar n parser.discardCurrentToken.2
    else if message.isFinal then return (message, parser)
    else skipErrors grammar n parser

/-- The same step by step, with at most a number of steps. -/
def skipSteps (grammar : Grammar) : Nat → Parser → Option (Message × Parser)
  | 0, _ => none
  | n + 1, parser =>
    match parser.step grammar with
    | (none, next) => skipSteps grammar n next
    | (some message, next) =>
      if message = .lexicalError then skipSteps grammar n next.discardCurrentToken.2
      else if message.isFinal then some (message, next)
      else skipSteps grammar n next

section

variable {n limit : Nat} {found : Message × Parser}

theorem skipSteps_final (hstep : parser.step grammar = (some message, next))
    (hfinal : message.isFinal = true) (herror : message ≠ .lexicalError) :
    skipSteps grammar (n + 1) parser = some (message, next) := by
  rw [skipSteps, hstep]
  simp only [if_neg herror, hfinal, if_true]

theorem skipSteps_goesOn {first : Option Message} (hstep : parser.step grammar = (first, next))
    (hgoes : GoesOn first) : skipSteps grammar (n + 1) parser = skipSteps grammar n next := by
  rw [skipSteps, hstep]
  cases first with
  | none => rfl
  | some message =>
    have hmore := hgoes message rfl
    have herror : message ≠ .lexicalError := by
      rintro rfl
      cases hmore
    simp only [if_neg herror, hmore, Bool.false_eq_true, if_false]

theorem skipSteps_lexicalError (hstep : parser.step grammar = (some .lexicalError, next)) :
    skipSteps grammar (n + 1) parser = skipSteps grammar n next.discardCurrentToken.2 := by
  rw [skipSteps, hstep]
  simp only [if_true]

theorem skipErrors_of_parse (hparse : parser.parse grammar = some (message, next)) :
    skipErrors grammar (n + 1) parser =
      if message = .lexicalError then skipErrors grammar n next.discardCurrentToken.2
      else if message.isFinal then some (message, next)
      else skipErrors grammar n next := by
  rw [skipErrors, hparse]
  rfl

theorem exists_skipSteps_of_silent (hsilent : Silent grammar parser last)
    (h : ∃ n, skipSteps grammar n last = some found) :
    ∃ n, skipSteps grammar n parser = some found := by
  induction hsilent with
  | refl => exact h
  | step hstep _ ih =>
    obtain ⟨n, hn⟩ := ih h
    exact ⟨n + 1, by rw [skipSteps_goesOn hstep goesOn_none]; exact hn⟩

/-- Behind the calls there are the steps. -/
theorem exists_skipSteps_of_skipErrors (h : skipErrors grammar limit parser = some found) :
    ∃ n, skipSteps grammar n parser = some found := by
  induction limit generalizing parser with
  | zero => cases h
  | succ limit ih =>
    obtain ⟨⟨message, next⟩, hparse, -⟩ := Option.bind_eq_some_iff.1 h
    obtain ⟨last, hsilent, hlast⟩ := parse_eq_some_iff.1 hparse
    refine exists_skipSteps_of_silent hsilent ?_
    rw [skipErrors_of_parse hparse] at h
    split at h
    · next herror =>
      subst herror
      obtain ⟨n, hn⟩ := ih h
      exact ⟨n + 1, by rw [skipSteps_lexicalError hlast]; exact hn⟩
    · next herror =>
      split at h
      · next hfinal => exact ⟨1, by rw [skipSteps_final hlast hfinal herror]; exact h⟩
      · next hmore =>
        obtain ⟨n, hn⟩ := ih h
        have hgoes : GoesOn (some message) := by
          rintro _ ⟨⟩
          exact Bool.eq_false_iff.2 hmore
        exact ⟨n + 1, by rw [skipSteps_goesOn hlast hgoes]; exact hn⟩

/-- The calls take the steps, given enough of them. -/
theorem exists_skipErrors_of_skipSteps (h : skipSteps grammar n parser = some found) :
    ∃ limit, skipErrors grammar limit parser = some found := by
  induction n generalizing parser with
  | zero => cases h
  | succ n ih =>
    cases hstep : parser.step grammar with
    | mk first next =>
      cases first with
      | none =>
        rw [skipSteps_goesOn hstep goesOn_none] at h
        obtain ⟨limit, hlimit⟩ := ih h
        cases limit with
        | zero => cases hlimit
        | succ limit =>
          refine ⟨limit + 1, ?_⟩
          rw [skipErrors, parse_of_silent hstep]
          exact hlimit
      | some message =>
        have hparse := parse_of_message hstep
        by_cases herror : message = .lexicalError
        · subst herror
          rw [skipSteps_lexicalError hstep] at h
          obtain ⟨limit, hlimit⟩ := ih h
          exact ⟨limit + 1, by rw [skipErrors_of_parse hparse, if_pos rfl]; exact hlimit⟩
        cases hfinal : message.isFinal with
        | true =>
          rw [skipSteps_final hstep hfinal herror] at h
          exact ⟨1, by rw [skipErrors_of_parse hparse, if_neg herror, if_pos hfinal]; exact h⟩
        | false =>
          have hgoes : GoesOn (some message) := by
            rintro _ ⟨⟩
            exact hfinal
          rw [skipSteps_goesOn hstep hgoes] at h
          obtain ⟨limit, hlimit⟩ := ih h
          refine ⟨limit + 1, ?_⟩
          rw [skipErrors_of_parse hparse, if_neg herror, if_neg (Bool.eq_false_iff.1 hfinal)]
          exact hlimit

theorem exists_skipErrors_iff :
    (∃ limit, skipErrors grammar limit parser = some found) ↔
      ∃ n, skipSteps grammar n parser = some found :=
  ⟨fun ⟨_, h⟩ => exists_skipSteps_of_skipErrors h, fun ⟨_, h⟩ => exists_skipErrors_of_skipSteps h⟩

end

/-! ## Where both end -/

/-- The answer to a final message says which it was. -/
theorem report_answer (hfinal : message.isFinal = true)
    (hstack : message = .accept → parser.stack ≠ []) :
    Batch.report (parser.answer grammar message).1 = message := by
  cases message with
  | tokenRead => cases hfinal
  | reduction => cases hfinal
  | accept =>
    obtain ⟨root, below, hcons⟩ := List.exists_cons_of_ne_nil (hstack rfl)
    simp only [answer, if_true, hcons]
    rfl
  | _ => rfl

/-- The machine applies the production that the parser does. -/
theorem Handles.applied?_eq {lookahead : Token} {rest : List Token} (hloaded : grammar.Loaded)
    (haligned : Aligned grammar trim parser) (h : Handles grammar parser lookahead rest) :
    Batch.applied? grammar (entries parser.stack) ⟨lookahead, parser.lexer.inGroup⟩ =
      match grammar.action? parser.lrState lookahead.symbol with
      | some (.reduce index) => grammar.production? index
      | _ => none := by
  obtain ⟨top, below, hstack, hstate⟩ := haligned.state
  obtain ⟨kind, hkind, -, herror⟩ := h.kind
  have hno : grammar.kind? lookahead.symbol ≠ some .error := by
    rw [hkind]
    exact fun heq => herror (Option.some.inj heq)
  unfold Batch.applied?
  simp only [h.outside, hno, decide_false, Bool.or_self, Bool.false_eq_true, if_false, hstack,
    ← hstate]
  rw [entries, List.map_cons]
  simp only [hloaded.firstAction?_eq]

theorem left_of_applied? {stack : Batch.Stack} {reading : Lexer.Reading}
    (h : Batch.applied? grammar stack reading = none) :
    Batch.left grammar stack reading = stack := by
  rw [Batch.left, h]

/-- A body that is lost is off the stack. -/
theorem left_of_lost {lookahead exposed : Token} {rest children below : List Token}
    {index : UInt16} {production : Production} (hloaded : grammar.Loaded)
    (haligned : Aligned grammar trim parser)
    (h : Reduces grammar parser lookahead rest index production)
    (hstack : parser.stack = children.reverse ++ exposed :: below)
    (hlength : children.length = production.body.length) :
    Batch.left grammar (entries parser.stack) ⟨lookahead, parser.lexer.inGroup⟩ =
      entries (exposed :: below) := by
  have hentries : entries parser.stack =
      entries children.reverse ++ entries (exposed :: below) := by
    rw [hstack, entries, List.map_append]
    rfl
  have hreverse : production.body.length = (entries children.reverse).length := by
    rw [entries, List.length_map, List.length_reverse, hlength]
  have hlt : production.body.length < (entries parser.stack).length := by
    rw [hentries, List.length_append, ← hreverse]
    exact Nat.lt_add_of_pos_right (Nat.succ_pos _)
  rw [Batch.left, h.toHandles.applied?_eq hloaded haligned, h.action]
  simp only [h.production, if_pos hlt]
  rw [hentries, hreverse, List.drop_left]

/-- Where the parser ends, its stack is the one that is left to the machine. -/
theorem left_of_final {lookahead : Token} (hloaded : grammar.Loaded)
    (haligned : Aligned grammar trim parser) (hinput : parser.input = [lookahead])
    (hfinal : message.isFinal = true) (herror : message ≠ .lexicalError)
    (hstep : Step grammar parser (some message) next) :
    Batch.left grammar (entries parser.stack) ⟨lookahead, parser.lexer.inGroup⟩ =
      entries next.stack := by
  have hsame : ∀ {other : Token} {rest : List Token}, parser.input = other :: rest →
      other = lookahead := by
    intro other rest hother
    rw [hinput] at hother
    cases hother
    rfl
  cases hstep with
  | notLoaded hclosed =>
    rw [haligned.opened] at hclosed
    cases hclosed
  | tokenRead => cases hfinal
  | groupError _ _ hgroup =>
    refine left_of_applied? ?_
    unfold Batch.applied?
    simp only [hgroup, Bool.true_or, if_true]
  | unknownSymbol _ hother _ hkind =>
    obtain rfl := hsame hother
    obtain ⟨kind, hknown⟩ := (haligned.input _ (by rw [hinput]; exact List.mem_cons_self)).1
    rw [hkind] at hknown
    cases hknown
  | lexicalError => exact absurd rfl herror
  | syntaxError hhandles haction =>
    obtain rfl := hsame hhandles.input
    refine left_of_applied? ?_
    rw [hhandles.applied?_eq hloaded haligned]
    rcases haction with haction | haction
    · rw [haction]
    · rw [haction]
  | accept hhandles haction =>
    obtain rfl := hsame hhandles.input
    exact left_of_applied? (by rw [hhandles.applied?_eq hloaded haligned, haction])
  | strayGoto hhandles haction =>
    obtain rfl := hsame hhandles.input
    exact left_of_applied? (by rw [hhandles.applied?_eq hloaded haligned, haction])
  | unknownProduction hhandles haction hproduction =>
    obtain rfl := hsame hhandles.input
    refine left_of_applied? ?_
    rw [hhandles.applied?_eq hloaded haligned, haction]
    exact hproduction
  | @underflow _ _ index production hreduces hstack =>
    obtain rfl := hsame hreduces.input
    have hge : ¬production.body.length < (entries parser.stack).length := by
      rw [entries, List.length_map]
      exact Nat.not_lt.2 hstack
    rw [Batch.left, hreduces.toHandles.applied?_eq hloaded haligned, hreduces.action]
    simp only [hreduces.production, if_neg hge]
    rfl
  | @renameLost _ top exposed _ below index production hreduces htrim hstack hgoto =>
    obtain rfl := hsame hreduces.input
    have hlength : [top].length = production.body.length :=
      (Tables.length_body_of_isChain (Bool.and_eq_true_iff.1 htrim).2).symm
    have happend : parser.stack = [top].reverse ++ exposed :: below := hstack
    exact left_of_lost hloaded haligned hreduces happend hlength
  | reduction => cases hfinal
  | reductionLost hreduces htrim hstack hlength hgoto =>
    obtain rfl := hsame hreduces.input
    exact left_of_lost hloaded haligned hreduces hstack hlength

/-! ## Steps of both -/

/-- The parser reports an error token, and goes on without it. -/
theorem Aligned.lexicalError {lookahead : Token} (h : Aligned grammar trim parser)
    (hinput : parser.input = [lookahead])
    (herror : grammar.kind? lookahead.symbol = some .error) :
    ∃ next, parser.step grammar = (some .lexicalError, next) ∧
      Aligned grammar trim next.discardCurrentToken.2 ∧
      next.discardCurrentToken.2.stack = parser.stack ∧
      next.discardCurrentToken.2.lexer = parser.lexer ∧
      next.discardCurrentToken.2.input = [] := by
  have houtside : parser.lexer.inGroup = false := h.outside hinput (by rw [herror]; nofun)
  have hnone : parser.input.tail = [] := by rw [hinput]; rfl
  refine ⟨_, (Step.lexicalError h.opened hinput houtside herror).step_eq, ?_, rfl, rfl, hnone⟩
  have hdropped : (parser.lookAt lookahead).discardCurrentToken.2.input = [] := hnone
  refine ⟨h.opened, h.trim, h.state, h.groups, ?_, ?_⟩
  · rw [hdropped]
    exact Nat.zero_le 1
  · rw [hdropped]
    exact fun _ hmem => absurd hmem List.not_mem_nil

/-- The tokens that are neither noise nor errors and that a parser has yet to handle, as far as
    they are read. -/
def awaited (grammar : Grammar) (parser : Parser) (n : Nat) : List Lexer.Reading :=
  Lexer.matched grammar (parser.pending ++ parser.lexer.readings grammar n)

theorem awaited_of_nil (hinput : parser.input = []) (n : Nat) :
    parser.awaited grammar n = Lexer.matched grammar (parser.lexer.readings grammar n) := by
  rw [awaited, pending, hinput]
  rfl

theorem awaited_of_singleton {lookahead : Token} (hinput : parser.input = [lookahead]) (n : Nat) :
    parser.awaited grammar n =
      Lexer.matched grammar
        (⟨lookahead, parser.lexer.inGroup⟩ :: parser.lexer.readings grammar n) := by
  rw [awaited, pending, hinput]
  rfl

/-- What a parser that skips errors and the machine make of the next step. -/
inductive Joint (grammar : Grammar) (trim : Bool) (parser : Parser) : Prop where
  /-- The parser reads a token, which the machine has already. -/
  | reads {next : Parser} (hnext : Aligned grammar trim next) (hinput : parser.input = [])
    (hread : next.input.length = 1) (hstack : next.stack = parser.stack)
    (hsteps : ∀ k, skipSteps grammar (k + 1) parser = skipSteps grammar k next)
    (hawaited : ∀ n, parser.awaited grammar (n + 1) = next.awaited grammar n)
  /-- The parser drops a token, which the machine does not have. -/
  | drops {next : Parser} (hnext : Aligned grammar trim next)
    (hinput : next.input.length < parser.input.length) (hstack : next.stack = parser.stack)
    (hsteps : ∀ k, skipSteps grammar (k + 1) parser = skipSteps grammar k next)
    (hawaited : ∀ n, parser.awaited grammar n = next.awaited grammar n)
  /-- Both shift the lookahead, or apply a production. -/
  | moves {next : Parser} (hnext : Aligned grammar trim next)
    (hsteps : ∀ k, skipSteps grammar (k + 1) parser = skipSteps grammar k next)
    (hbatch : ∀ k n,
      Batch.finish grammar trim (k + 1) (parser.awaited grammar n) (entries parser.stack) =
        Batch.finish grammar trim k (next.awaited grammar n) (entries next.stack))
  /-- Both end. -/
  | ends {message : Message} {last : Parser}
    (hsteps : ∀ k, skipSteps grammar (k + 1) parser = some (message, last))
    (hbatch : ∀ k n,
      Batch.finish grammar trim (k + 1) (parser.awaited grammar n) (entries parser.stack) =
        some ((last.answer grammar message).1, entries last.stack))
    (hreport : Batch.report (last.answer grammar message).1 = message)

/-- A parser that goes along with the machine takes its next step with it. -/
theorem Aligned.joint (hloaded : grammar.Loaded) (h : Aligned grammar trim parser) :
    Joint grammar trim parser := by
  rcases h.input_cases with hinput | ⟨lookahead, hinput⟩
  · obtain ⟨next, hstep, hnext, hstack, hlexer, hread⟩ := h.tokenRead hloaded hinput
    refine .reads hnext hinput (by rw [hread]; rfl) hstack
      (fun _ => skipSteps_goesOn hstep (by rintro _ ⟨⟩; rfl)) fun n => ?_
    rw [awaited_of_nil hinput, awaited_of_singleton hread, Lexer.readings, hlexer]
  have hlength : parser.input.length = 1 := by rw [hinput]; rfl
  by_cases hnoise : grammar.kind? lookahead.symbol = some .noise
  · obtain ⟨next, hstep, hnext, hstack, hlexer, hdropped⟩ := h.noise hinput hnoise
    refine .drops hnext (by rw [hdropped, hlength]; exact Nat.one_pos) hstack
      (fun _ => skipSteps_goesOn hstep goesOn_none) fun n => ?_
    rw [awaited_of_singleton hinput, Lexer.matched_cons_noise hnoise, awaited_of_nil hdropped,
      hlexer]
  by_cases herror : grammar.kind? lookahead.symbol = some .error
  · obtain ⟨next, hstep, hnext, hstack, hlexer, hdropped⟩ := h.lexicalError hinput herror
    refine .drops hnext (by rw [hdropped, hlength]; exact Nat.one_pos) hstack
      (fun _ => skipSteps_lexicalError hstep) fun n => ?_
    rw [awaited_of_singleton hinput, Lexer.matched_cons_error herror, awaited_of_nil hdropped,
      hlexer]
  have hawaited : ∀ {other : Parser}, other.input = [lookahead] → ∀ n,
      other.awaited grammar n = ⟨lookahead, other.lexer.inGroup⟩ ::
        Lexer.matched grammar (other.lexer.readings grammar n) := by
    intro other hother n
    rw [awaited_of_singleton hother, Lexer.matched_cons hnoise herror]
  obtain ⟨message, next, hstep⟩ := exists_step grammar parser
  cases step_aligned hloaded h hinput hnoise hstep with
  | @ends final next hfinal hbatch =>
    have hother : final ≠ .lexicalError := by
      rintro rfl
      cases hstep with
      | lexicalError _ hsame _ hkind =>
        rw [hinput] at hsame
        cases hsame
        exact herror hkind
    have hstack : final = .accept → next.stack ≠ [] := by
      rintro rfl
      obtain ⟨top, below, hcons, -⟩ := h.state
      cases hstep with
      | accept => exact ne_of_eq_of_ne hcons (List.cons_ne_nil _ _)
    refine .ends (fun _ => skipSteps_final hstep.step_eq hfinal hother) (fun k n => ?_)
      (report_answer hfinal hstack)
    rw [hawaited hinput, Batch.finish, hbatch]
    simp only [left_of_final hloaded h hinput hfinal hother hstep]
  | shifts hnext hlexer hshifted hbatch =>
    refine .moves hnext (fun _ => skipSteps_goesOn hstep.step_eq goesOn_none) fun k n => ?_
    rw [hawaited hinput, Batch.finish, hbatch, awaited_of_nil hshifted, hlexer]
  | reduces hgoes hnext hlexer hkept hbatch =>
    refine .moves hnext (fun _ => skipSteps_goesOn hstep.step_eq hgoes) fun k n => ?_
    rw [hawaited hinput, Batch.finish, hbatch, hawaited hkept, hlexer]

/-! ## Runs of both -/

/-- Where the parser ends, the machine ends. -/
theorem Aligned.finish_of_skipSteps (hloaded : grammar.Loaded) {k : Nat}
    (h : Aligned grammar trim parser) (hrun : skipSteps grammar k parser = some (message, last)) :
    ∃ n steps,
      Batch.finish grammar trim steps (parser.awaited grammar n) (entries parser.stack) =
        some ((last.answer grammar message).1, entries last.stack) ∧
      Batch.report (last.answer grammar message).1 = message := by
  induction k generalizing parser with
  | zero => cases hrun
  | succ k ih =>
    cases h.joint hloaded with
    | reads hnext _ _ hstack hsteps hawaited =>
      obtain ⟨n, steps, hfinish, hreport⟩ := ih hnext ((hsteps k).symm.trans hrun)
      exact ⟨n + 1, steps, by rw [hawaited, ← hstack]; exact hfinish, hreport⟩
    | drops hnext _ hstack hsteps hawaited =>
      obtain ⟨n, steps, hfinish, hreport⟩ := ih hnext ((hsteps k).symm.trans hrun)
      exact ⟨n, steps, by rw [hawaited, ← hstack]; exact hfinish, hreport⟩
    | moves hnext hsteps hbatch =>
      obtain ⟨n, steps, hfinish, hreport⟩ := ih hnext ((hsteps k).symm.trans hrun)
      exact ⟨n, steps + 1, by rw [hbatch]; exact hfinish, hreport⟩
    | ends hsteps hbatch hreport =>
      cases (hsteps k).symm.trans hrun
      exact ⟨0, 1, hbatch 0 0, hreport⟩

/-- Where the machine ends, the parser ends. -/
theorem Aligned.skipSteps_of_finish {parser : Parser} (hloaded : grammar.Loaded) {n steps : Nat}
    {answer : Except ParseError Token} {stack : Batch.Stack} (h : Aligned grammar trim parser)
    (hfinish : Batch.finish grammar trim steps (parser.awaited grammar n) (entries parser.stack) =
      some (answer, stack)) :
    ∃ k message last, skipSteps grammar k parser = some (message, last) ∧
      (last.answer grammar message).1 = answer ∧ Batch.report answer = message ∧
      entries last.stack = stack := by
  -- the machine stands still while tokens are read and dropped: one yet to be read counts for two,
  -- one that waits for one
  cases h.joint hloaded with
  | @reads next hnext hinput hread hstack hsteps hawaited =>
    cases n with
    | zero =>
      rw [awaited_of_nil hinput] at hfinish
      cases steps with
      | zero => cases hfinish
      | succ steps => cases hfinish
    | succ n =>
      rw [hawaited, ← hstack] at hfinish
      obtain ⟨k, message, last, hrun, hanswer⟩ := hnext.skipSteps_of_finish hloaded hfinish
      exact ⟨k + 1, message, last, by rw [hsteps]; exact hrun, hanswer⟩
  | @drops next hnext hdropped hstack hsteps hawaited =>
    rw [hawaited, ← hstack] at hfinish
    obtain ⟨k, message, last, hrun, hanswer⟩ := hnext.skipSteps_of_finish hloaded hfinish
    exact ⟨k + 1, message, last, by rw [hsteps]; exact hrun, hanswer⟩
  | @moves next hnext hsteps hbatch =>
    cases steps with
    | zero => cases hfinish
    | succ steps =>
      rw [hbatch] at hfinish
      obtain ⟨k, message, last, hrun, hanswer⟩ := hnext.skipSteps_of_finish hloaded hfinish
      exact ⟨k + 1, message, last, by rw [hsteps]; exact hrun, hanswer⟩
  | @ends message last hsteps hbatch hreport =>
    cases steps with
    | zero => cases hfinish
    | succ steps =>
      cases (hbatch steps n).symm.trans hfinish
      exact ⟨1, message, last, hsteps 0, rfl, hreport, rfl⟩
termination_by (steps, 2 * n + parser.input.length)
decreasing_by
  · rw [hread, hinput]
    exact Prod.Lex.right _ (by simp only [List.length_nil]; omega)
  · exact Prod.Lex.right _ (by omega)
  · exact Prod.Lex.left _ _ (by omega)

/-- Calls of `parse` on a text that discard the token of every lexical error come to an end if and
    only if the batch machine does, on the tokens that the lexer reads without the noise and the
    errors. They end with the message that the machine reports, with the answer that it gives, and
    with its stack. -/
theorem skipErrors_iff_batch {bytes : List UInt8} {grammar : Grammar}
    (h : Grammar.ofBytes bytes = .ok grammar) (parser : Parser) (trim : Bool) (text : String)
    (message : Message) (answer : Except ParseError Token) (stack : Batch.Stack) :
    (∃ limit last,
        skipErrors grammar limit ((parser.setTrim trim).openText grammar text) =
          some (message, last) ∧
        (last.answer grammar message).1 = answer ∧ entries last.stack = stack) ↔
      ∃ n steps,
        Batch.finish grammar trim steps
            (Lexer.matched grammar ((Lexer.openText text).readings grammar n))
            (Batch.start grammar) = some (answer, stack) ∧
          Batch.report answer = message := by
  have hloaded := Grammar.loaded_of_ofBytes h
  have haligned := aligned_openText grammar parser trim text
  have hawaited : ∀ n, ((parser.setTrim trim).openText grammar text).awaited grammar n =
      Lexer.matched grammar ((Lexer.openText text).readings grammar n) :=
    fun n => awaited_of_nil rfl n
  constructor
  · rintro ⟨limit, last, hskip, rfl, rfl⟩
    obtain ⟨k, hrun⟩ := exists_skipErrors_iff.1 ⟨limit, hskip⟩
    obtain ⟨n, steps, hfinish, hreport⟩ := haligned.finish_of_skipSteps hloaded hrun
    rw [hawaited] at hfinish
    exact ⟨n, steps, hfinish, hreport⟩
  · rintro ⟨n, steps, hfinish, rfl⟩
    rw [← hawaited] at hfinish
    obtain ⟨k, message, last, hrun, hanswer, rfl, hstack⟩ :=
      haligned.skipSteps_of_finish hloaded hfinish
    obtain ⟨limit, hskip⟩ := exists_skipErrors_iff.2 ⟨k, hrun⟩
    exact ⟨limit, last, hskip, hanswer, hstack⟩

/-- Errors on both sides of the letter are skipped, and the machine never has them. -/
theorem skipErrors_iff_batch_sampleFile :
    ∃ grammar last answer n steps, Grammar.ofBytes sampleFile = .ok grammar ∧
      skipErrors grammar 8 (((start grammar).setTrim true).openText grammar "?a!") =
        some (.accept, last) ∧
      Batch.finish grammar true steps
          (Lexer.matched grammar ((Lexer.openText "?a!").readings grammar n))
          (Batch.start grammar) = some (answer, entries last.stack) ∧
        Batch.report answer = .accept := by
  have hpasses : Grammar.passes sampleFile (fun grammar =>
      (skipErrors grammar 8 (((start grammar).setTrim true).openText grammar "?a!")).any
        fun found => found.1 = .accept) = true := by decide +kernel
  obtain ⟨grammar, hgrammar, htest⟩ := Grammar.exists_of_passes hpasses
  simp only [Option.any_eq_true, decide_eq_true_eq] at htest
  obtain ⟨⟨message, last⟩, hskip, rfl⟩ := htest
  obtain ⟨n, steps, hfinish, hreport⟩ :=
    (skipErrors_iff_batch hgrammar (start grammar) true "?a!" .accept
      (last.answer grammar .accept).1 (entries last.stack)).1 ⟨8, last, hskip, rfl, rfl⟩
  exact ⟨grammar, last, _, n, steps, hgrammar, hskip, hfinish, hreport⟩

end Parser

end GoldTables
