import PythonOutline.Proofs.Grammar.Module
import PythonOutline.Proofs.Lexer.Failure

/-! # Where statements end

The last token of every line of statements is a line break or a dedent, also in a token sequence
that has an invalid token: whatever a statement passes over, it does not end there. -/

namespace PythonOutline

/-- An index behind a line break or a dedent. -/
def Tokens.EndsLine (tokens : Tokens) (index : Nat) : Prop :=
  ∃ last, index = last + 1 ∧
    ((tokens.get last).kind = .newline ∨ (tokens.get last).kind = .dedent)

namespace Parser

variable {tokens : Tokens} {before after : Place} {stmts : List Stmt} {stmt : Stmt}

/-- What a parser reads ends with a line break or a dedent. -/
def EndsLines {α : Type} (parser : Parser α) (tokens : Tokens) : Prop :=
  ∀ ⦃before value after⦄, parser.Reads tokens before value after → tokens.EndsLine after.next

private theorem simpleStmts_endsLines : simpleStmts.EndsLines tokens := by
  intro before stmts after hreads
  obtain ⟨first, middle, others, last, -, -, hline, rfl, -⟩ := reads_simpleStmts hreads
  exact ⟨last.next, rfl, .inl hline⟩

section

variable {block : Parser (List Stmt)} (hblock : block.EndsLines tokens)

include hblock

/-- An `else` that is not there ends where it would stand. -/
theorem elseBlock_endsLine (hreads : (elseBlock block).Reads tokens before stmts after)
    (hbefore : tokens.EndsLine before.next) : tokens.EndsLine after.next := by
  rw [reads_elseBlock] at hreads
  split at hreads
  · exact hblock hreads
  · obtain ⟨-, rfl⟩ := hreads
    exact hbefore

private theorem ifClause_endsLines : (ifClause block).EndsLines tokens := by
  intro before clause after hreads
  obtain ⟨-, test, middle, -, body, hbody, -⟩ := reads_ifClause.mp hreads
  exact hblock hbody

/-- Clauses are completed behind the end of a line. -/
theorem Completes.endsLine {clause : IfClause}
    (hcompletes : Completes block tokens clause before stmt after)
    (hbefore : tokens.EndsLine before.next) : tokens.EndsLine after.next := by
  induction hcompletes with
  | last _ helse => exact elseBlock_endsLine hblock helse hbefore
  | elif _ hnext _ ih => exact ih (ifClause_endsLines hblock hnext)

private theorem handlers_endsLine {handlers : List (Handler × Bool)}
    (hrepeats : Repeats (nextIs .keywordExcept) (handler block) tokens before handlers after)
    (hbefore : tokens.EndsLine before.next) : tokens.EndsLine after.next := by
  induction hrepeats with
  | stop hstop =>
    obtain ⟨-, rfl⟩ := reads_nextIs.mp hstop
    exact hbefore
  | item _ hhandler _ ih =>
    obtain ⟨start, exception, middle, name, header, body, -, -, -, hbody, -⟩ :=
      reads_handler hhandler
    exact ih (hblock hbody)

private theorem tryStmt_endsLines : (tryStmt block).EndsLines tokens := by
  intro before stmt after hreads
  obtain ⟨-, body, middle, handlers, last, hbody, hhandlers, orElse, finalBody, -, hrest⟩ :=
    reads_tryStmt hreads
  have hlast := handlers_endsLine hblock hhandlers (hblock hbody)
  split at hrest
  · exact hblock hrest.2.2
  · obtain ⟨final, helse, hrest⟩ := hrest
    split at hrest
    · exact hblock hrest
    · have hfinal := elseBlock_endsLine hblock helse hlast
      obtain ⟨-, rfl⟩ := hrest
      exact hfinal

private theorem definition_endsLines : (definition block).EndsLines tokens := by
  intro before stmt after hreads
  obtain ⟨decorators, middle, form, -, -, ⟨-, hform⟩ | ⟨-, hform⟩⟩ := reads_definition hreads
  · obtain ⟨name, start, params, last, arguments, header, body, -, -, -, -, hbody, -⟩ :=
      reads_classDef hform
    exact hblock hbody
  · obtain ⟨isAsync, start, name, list, params, last, parameters, result, returns, header, body,
      -, -, -, -, -, -, -, hbody, -⟩ := reads_functionDef hform
    exact hblock hbody

/-- A compound statement ends at the end of a line. -/
theorem ReadsCompound.endsLine (hreads : ReadsCompound block tokens before stmt after) :
    tokens.EndsLine after.next := by
  cases hreads with
  | definition _ hreads => exact definition_endsLines hblock hreads
  | loop _ hreads =>
    obtain ⟨isAsync, start, target, middle, iterable, header, body, last, orElse, -, -, -, -, -,
      hbody, helse, -⟩ := reads_forStmt hreads
    exact elseBlock_endsLine hblock helse (hblock hbody)
  | context _ hreads =>
    obtain ⟨isAsync, start, items, middle, body, -, -, -, hbody, -⟩ := reads_withStmt hreads
    exact hblock hbody
  | conditional _ hreads =>
    obtain ⟨first, middle, hfirst, hcompletes⟩ := reads_ifStmt hreads
    exact hcompletes.endsLine hblock (ifClause_endsLines hblock hfirst)
  | attempt _ hreads => exact tryStmt_endsLines hblock hreads
  | whileLoop _ hreads =>
    obtain ⟨-, test, middle, -, body, last, hbody, orElse, helse, -⟩ := reads_whileStmt.mp hreads
    exact elseBlock_endsLine hblock helse (hblock hbody)
  | cases _ hreads =>
    obtain ⟨subject, middle, cases, last, -, -, hdedent, rfl, -⟩ := reads_matchStmt?_some hreads
    exact ⟨last.next, rfl, .inr hdedent⟩

private theorem stmtLineOver_endsLines : (stmtLineOver block).EndsLines tokens := by
  intro before stmts after hreads
  rcases reads_stmtLineOver hreads with ⟨stmt, -, hcompound⟩ | ⟨-, start, -, hsimple⟩
  · exact hcompound.endsLine hblock
  · exact simpleStmts_endsLines hsimple

end

private theorem blockOver_endsLines {line : Parser (List Stmt)} :
    (blockOver line).EndsLines tokens := by
  intro before stmts after hreads
  obtain ⟨-, hrest⟩ := reads_blockOver.mp hreads
  split at hrest
  · obtain ⟨-, last, -, hdedent, rfl⟩ := hrest
    exact ⟨last.next, rfl, .inr hdedent⟩
  · exact simpleStmts_endsLines hrest

/-- A block ends at the end of a line. -/
theorem blockWithin_endsLines (depth : Nat) : (blockWithin depth).EndsLines tokens := by
  cases depth with
  | zero =>
    intro before stmts after hreads
    exact (reads_failNext.mp hreads).elim
  | succ depth => exact blockOver_endsLines

private theorem stmtLine_endsLines : stmtLine.EndsLines tokens :=
  stmtLineOver_endsLines (blockWithin_endsLines _)

/-- Lines of statements never pass an index that no line ends behind. -/
theorem Lines.next_le {line : Parser (List Stmt)} {stop : TokenKind} {index : Nat}
    (hline : line.EndsLines tokens) (hends : ∀ later, index < later → ¬tokens.EndsLine later)
    (hlines : Lines line stop tokens before stmts after) (hbefore : before.next ≤ index) :
    after.next ≤ index ∧ tokens.kindAt after = stop := by
  induction hlines with
  | stop hstop => exact ⟨hbefore, hstop⟩
  | line _ _ hreads _ ih =>
    have hmiddle := hline hreads
    exact ih (Nat.le_of_not_lt fun hlt => hends _ hlt hmiddle)

/-- A module with an invalid token is not read. -/
theorem module_fails {index : Nat} {failure : SyntaxError} (hfails : tokens.FailsAt index failure) :
    ∃ error place, Parser.module tokens .start = .error error place := by
  cases hmodule : Parser.module tokens .start with
  | error error place => exact ⟨error, place, rfl⟩
  | ok value place =>
    obtain ⟨body, last, hbody, hend, -, -⟩ := reads_module.mp hmodule
    have hkind : ∀ later, index ≤ later → (tokens.get later).kind = .invalid ∨
        (tokens.get later).kind = .endOfInput := by
      intro later hle
      rcases Nat.eq_or_lt_of_le hle with rfl | hlt
      · exact .inl (by rw [hfails.get_eq])
      · exact .inr (by rw [hfails.ended later hlt]; rfl)
    have hends : ∀ later, index < later → ¬tokens.EndsLine later := by
      rintro _ hlt ⟨later, rfl, hline⟩
      rcases hkind later (by omega) with hlater | hlater <;> rw [hlater] at hline <;>
        rcases hline with hline | hline <;> cases hline
    obtain ⟨hle, -⟩ := (reads_stmtsOver hbody).next_le stmtLine_endsLines hends (Nat.zero_le _)
    -- The end of the input would stand at or in front of the invalid token.
    rcases Nat.eq_or_lt_of_le hle with heq | hlt
    · rw [Tokens.kindAt, heq, hfails.get_eq] at hend
      cases hend
    · exact absurd hend (hfails.readable _ hlt).2

end Parser

end PythonOutline
