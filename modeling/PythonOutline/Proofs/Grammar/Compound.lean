import PythonOutline.Parser.Compound
import PythonOutline.Proofs.Grammar.Simple
import PythonOutline.Proofs.Lexer.Extent

/-! # The grammar of compound statements

What the parsers of compound statements read over the parser of a block, one rule a parser.
-/

namespace PythonOutline.Parser

variable {tokens : Tokens} {before after : Place} {stmt : Stmt} {block : Parser (List Stmt)}

/-- The block of an `else` that is not there is empty. -/
theorem reads_elseBlock {stmts : List Stmt} :
    (elseBlock block).Reads tokens before stmts after ↔
      if tokens.kindAt before = .keywordElse then block.Reads tokens before.step stmts after
      else stmts = [] ∧ after = before.look 0 := by
  simp [elseBlock]

/-! ## Conditionals -/

/-- A clause is its keyword, its condition, and a block. -/
theorem reads_ifClause {clause : IfClause} :
    (ifClause block).Reads tokens before clause after ↔
      (tokens.kindAt before = .keywordIf ∨ tokens.kindAt before = .keywordElif) ∧
        ∃ test middle, namedExpr.Reads tokens before.step test middle ∧
          ∃ body, block.Reads tokens middle body after ∧ clause = ⟨before.next, test, body⟩ := by
  by_cases hkind : tokens.kindAt before = .keywordIf ∨ tokens.kindAt before = .keywordElif
  · simp [ifClause, hkind]
  · simp [ifClause, hkind]

/-- A clause with its alternate as a statement that reaches up to an index. -/
def IfClause.close (tokens : Tokens) (stop : Nat) (clause : IfClause) (alternate : List Stmt) :
    Stmt :=
  ⟨tokens.spanBetween clause.start stop, .conditional clause.test clause.body alternate⟩

/-- A clause becomes a statement by what follows it: an `else` or nothing, or another clause, whose
statement is its alternate. -/
inductive Completes (block : Parser (List Stmt)) (tokens : Tokens) :
    IfClause → Place → Stmt → Place → Prop where
  | last {clause : IfClause} {before after : Place} {alternate : List Stmt}
      (helif : tokens.kindAt before ≠ .keywordElif)
      (helse : (elseBlock block).Reads tokens (before.look 0) alternate after) :
      Completes block tokens clause before (clause.close tokens after.next alternate) after
  | elif {clause next : IfClause} {before middle after : Place} {inner : Stmt}
      (helif : tokens.kindAt before = .keywordElif)
      (hnext : (ifClause block).Reads tokens (before.look 0) next middle)
      (hrest : Completes block tokens next middle inner after) :
      Completes block tokens clause before (clause.close tokens after.next [inner]) after

/-- An `if` statement is its first clause, completed by the clauses behind it. -/
theorem reads_ifStmt (hreads : (ifStmt block).Reads tokens before stmt after) :
    ∃ first middle, (ifClause block).Reads tokens before first middle ∧
      Completes block tokens first middle stmt after := by
  simp only [ifStmt, reads_bind, reads_iterate, reads_read, reads_mark, reads_pure, existsAndEq,
    true_and, and_true] at hreads
  obtain ⟨first, middle, hfirst, result, final, ⟨count, -, hiterates⟩, alternate, helse, hstmt⟩ :=
    hreads
  refine ⟨first, middle, hfirst, ?_⟩
  -- The statements of the clauses in front are built round that of the last clause they carry.
  suffices hclose : ∀ {state : List IfClause × IfClause},
      Iterates _ tokens count state middle result final →
      ∃ inner, Completes block tokens state.2 middle inner after ∧
        result.1.foldl (fun inner clause => clause.close tokens after.next [inner])
            (result.2.close tokens after.next alternate) =
          state.1.foldl (fun inner clause => clause.close tokens after.next [inner]) inner by
    obtain ⟨inner, hcompletes, hfold⟩ := hclose hiterates
    rw [hstmt]
    exact hfold ▸ hcompletes
  clear hiterates hfirst hstmt
  intro state hiterates
  induction hiterates with
  | @done state before final result hstep =>
    obtain ⟨helif, rfl, rfl⟩ : tokens.kindAt before ≠ .keywordElif ∧
        result = (state.1, state.2) ∧ final = before.look 0 := by
      simpa using hstep
    exact ⟨_, .last helif helse, rfl⟩
  | @next _ state state' before middle _ _ hstep _ ih =>
    obtain ⟨helif, next, hnext, rfl⟩ : tokens.kindAt before = .keywordElif ∧
        ∃ next, (ifClause block).Reads tokens (before.look 0) next middle ∧
          state' = (state.2 :: state.1, next) := by
      simpa using hstep
    obtain ⟨inner, hcompletes, hfold⟩ := ih helse
    exact ⟨_, .elif helif hnext hcompletes, hfold⟩

/-! ## Loops -/

/-- A `while` loop is its condition, its block, and the block of its `else`. -/
theorem reads_whileStmt :
    (whileStmt block).Reads tokens before stmt after ↔
      tokens.kindAt before = .keywordWhile ∧
        ∃ test middle, namedExpr.Reads tokens before.step test middle ∧
          ∃ body last, block.Reads tokens middle body last ∧
            ∃ orElse, (elseBlock block).Reads tokens last orElse after ∧
              stmt = ⟨tokens.spanBetween before.next after.next,
                .whileLoop test body orElse⟩ := by
  simp [whileStmt, and_assoc]

/-- A `for` loop binds its targets to what an expression brings. -/
theorem reads_forStmt (hreads : (forStmt block).Reads tokens before stmt after) :
    ∃ isAsync start target middle iterable header body last orElse,
      (accept .keywordAsync).Reads tokens before isAsync start ∧
      tokens.kindAt start = .keywordFor ∧
      Level.outermost.targetList.Reads tokens start.step target middle ∧
      tokens.kindAt middle = .keywordIn ∧ starExprs.Reads tokens middle.step iterable header ∧
      block.Reads tokens header body last ∧ (elseBlock block).Reads tokens last orElse after ∧
      stmt = ⟨tokens.spanBetween before.next after.next,
        .forLoop isAsync target iterable body orElse⟩ := by
  simp only [forStmt, reads_spanned, reads_bind, reads_expect, reads_pure, existsAndEq,
    and_true] at hreads
  obtain ⟨isAsync, start, target, middle, iterable, header, body, last, orElse, ⟨hasync, hfor,
    htarget, hin, hiterable, hbody, horElse⟩, rfl⟩ := hreads
  exact ⟨isAsync, start, target, middle, iterable, header, body, last, orElse, hasync, hfor, htarget,
    hin, hiterable, hbody, horElse, rfl⟩

/-! ## Exceptions -/

/-- A handler may name an exception, and only what it has caught may be bound to a name. -/
theorem reads_handler {handled : Handler} {star : Bool}
    (hreads : (handler block).Reads tokens before (handled, star) after) :
    ∃ start exception middle name header body,
      (accept .asterisk).Reads tokens before.step star start ∧
      (if tokens.kindAt start = .colon then exception = none ∧ middle = start.look 0
        else ∃ value, expr.Reads tokens (start.look 0) value middle ∧ exception = some value) ∧
      (if exception.isSome then (ifAccepted .keywordAs identifier).Reads tokens middle name header
        else name = none ∧ header = middle) ∧
      block.Reads tokens header body after ∧
      handled = ⟨tokens.spanBetween before.next after.next, exception, name, body⟩ := by
  simp only [handler, ite_bind, reads_bind, reads_mark, reads_take, reads_nextIs, reads_spanSince,
    reads_pure, existsAndEq, true_and, and_true] at hreads
  obtain ⟨_, start, hstar, exception, middle, hexception, name, header, hname, body, hbody, hpair⟩ :=
    hreads
  cases hpair
  exact ⟨start, exception, middle, name, header, body, hstar, by simpa using hexception,
    by simpa only [reads_ite, reads_pure] using hname, hbody, rfl⟩

/-- A `try` statement has handlers, or a `finally` without an `else`. -/
theorem reads_tryStmt (hreads : (tryStmt block).Reads tokens before stmt after) :
    tokens.kindAt before = .keywordTry ∧
      ∃ body middle handlers last, block.Reads tokens before.step body middle ∧
        Repeats (nextIs .keywordExcept) (handler block) tokens middle handlers last ∧
        ∃ orElse finalBody, stmt = ⟨tokens.spanBetween before.next after.next,
            .tryBlock body (handlers.map Prod.fst) orElse finalBody (handlers.any Prod.snd)⟩ ∧
          if handlers.isEmpty then
            tokens.kindAt last = .keywordFinally ∧ orElse = [] ∧
              block.Reads tokens last.step finalBody after
          else
            ∃ final, (elseBlock block).Reads tokens last orElse final ∧
              if tokens.kindAt final = .keywordFinally then
                block.Reads tokens final.step finalBody after
              else finalBody = [] ∧ after = final.look 0 := by
  simp only [tryStmt, ite_bind, reads_spanned, reads_bind, reads_expect, reads_repeatWhile,
    existsAndEq, and_true] at hreads
  obtain ⟨make, ⟨htry, body, middle, hbody, handlers, last, ⟨-, hhandlers⟩, hrest⟩, rfl⟩ := hreads
  refine ⟨htry, body, middle, handlers, last, hbody, hhandlers, ?_⟩
  cases handlers with
  | nil =>
    obtain ⟨hfinally, finalBody, hfinal, rfl⟩ : tokens.kindAt last = .keywordFinally ∧
        ∃ finalBody, block.Reads tokens last.step finalBody after ∧
          make = fun span => ⟨span, .tryBlock body [] [] finalBody false⟩ := by
      simpa using hrest
    exact ⟨[], finalBody, rfl, hfinally, rfl, hfinal⟩
  | cons first others =>
    simp only [List.isEmpty_cons, Bool.false_eq_true, reduceIte, reads_bind, reads_pure,
      existsAndEq, and_true] at hrest
    obtain ⟨orElse, final, hor, finally?, start, hfinally, finalBody, hfinal, rfl⟩ := hrest
    refine ⟨orElse, finalBody, rfl, final, hor, ?_⟩
    rw [reads_accept] at hfinally
    split at hfinally
    · rename_i hkeyword
      obtain ⟨rfl, rfl⟩ := hfinally
      rw [if_pos hkeyword]
      exact hfinal
    · rename_i hkeyword
      obtain ⟨rfl, rfl⟩ := hfinally
      rw [if_neg hkeyword]
      exact reads_pure.mp hfinal

/-! ## Contexts -/

/-- A context of a `with` statement is an expression that may be bound to a target. -/
theorem reads_withItem {item : WithItem} :
    withItem.Reads tokens before item after ↔
      ∃ context middle, expr.Reads tokens before context middle ∧
        ∃ target, (ifAccepted .keywordAs Level.outermost.target).Reads tokens middle target after ∧
          item = ⟨tokens.spanBetween before.next after.next, context, target⟩ := by
  simp [withItem, -reads_ifAccepted, and_assoc]

/-- Contexts in parentheses are some, and a colon follows them. -/
theorem reads_groupedWithItems? {items : List WithItem}
    (hreads : groupedWithItems?.Reads tokens before (some items) after) :
    ∃ last, (listUntil .parenthesisClose withItem).Reads tokens before.step items last ∧
      items ≠ [] ∧ tokens.kindAt last = .colon ∧ after = last.look 0 := by
  simpa [groupedWithItems?] using hreads

/-- The contexts of a `with` statement are grouped in parentheses, or stand alone behind each
other. -/
theorem reads_withItems {items : List WithItem}
    (hreads : withItems.Reads tokens before items after) :
    (tokens.kindAt before = .parenthesisOpen ∧
        groupedWithItems?.Reads tokens (before.look 0) (some items) after) ∨
      ∃ start, start.next = before.next ∧
        (commaSeparated withItem).Reads tokens start items after := by
  simp only [withItems, reads_bind, reads_nextIs, existsAndEq, true_and, and_true] at hreads
  split at hreads
  · rename_i hparen
    obtain ⟨items?, middle, hgrouped, hrest⟩ := reads_bind.mp hreads
    cases items? with
    | some grouped =>
      obtain ⟨rfl, rfl⟩ := reads_pure.mp hrest
      exact .inl ⟨by simpa using hparen, hgrouped⟩
    | none =>
      have hnext : middle.next = (before.look 0).next := reads_attempt_none hgrouped
      exact .inr ⟨middle, hnext, hrest⟩
  · exact .inr ⟨before.look 0, rfl, hreads⟩

/-- A `with` statement is its contexts and a block. -/
theorem reads_withStmt (hreads : (withStmt block).Reads tokens before stmt after) :
    ∃ isAsync start items middle body, (accept .keywordAsync).Reads tokens before isAsync start ∧
      tokens.kindAt start = .keywordWith ∧ withItems.Reads tokens start.step items middle ∧
      block.Reads tokens middle body after ∧
      stmt = ⟨tokens.spanBetween before.next after.next, .withBlock isAsync items body⟩ := by
  simp only [withStmt, reads_spanned, reads_bind, reads_expect, reads_pure, existsAndEq,
    and_true] at hreads
  obtain ⟨isAsync, start, items, middle, body, ⟨hasync, hwith, hitems, hbody⟩, rfl⟩ := hreads
  exact ⟨isAsync, start, items, middle, body, hasync, hwith, hitems, hbody, rfl⟩

/-! ## Matches -/

/-- A pattern is a run of tokens that are made of text. -/
theorem reads_patternSpan? {span : Option Span}
    (hreads : patternSpan?.Reads tokens before span after) :
    before.next ≤ after.next ∧ ∀ index, before.next ≤ index → index < after.next →
      (tokens.get index).kind.IsSolid := by
  simp only [patternSpan?, reads_iterate] at hreads
  obtain ⟨count, -, hiterates⟩ := hreads
  generalize (0, none) = state at hiterates
  induction hiterates with
  | @done state before after result hstep =>
    have hend : after.next = before.next := by
      simp at hstep
      obtain ⟨-, -, rfl⟩ := hstep
      rfl
    exact ⟨Nat.le_of_eq hend.symm, fun index hle hlt => absurd hlt (by omega)⟩
  | @next _ state state' before middle after _ hstep _ ih =>
    have htaken : (tokens.get before.next).kind.IsSolid ∧ middle.next = before.next + 1 := by
      simp at hstep
      obtain ⟨-, ⟨hend, hvalid, hsignificant⟩, rfl, -⟩ := hstep
      exact ⟨⟨hsignificant, hend, hvalid⟩, rfl⟩
    obtain ⟨hle, hall⟩ := ih
    refine ⟨by omega, fun index hindex hlt => ?_⟩
    rcases Nat.eq_or_lt_of_le hindex with rfl | hindex
    · exact htaken.1
    · exact hall index (by omega) hlt

/-- A pattern is kept as it is written. -/
theorem reads_casePattern {pattern : String} :
    casePattern.Reads tokens before pattern after ↔
      ∃ span, patternSpan?.Reads tokens before (some span) after ∧
        pattern = String.ofList (Text.slice tokens.source span.start span.stop) := by
  simp only [casePattern, reads_bind]
  constructor
  · rintro ⟨span?, middle, hspan, hrest⟩
    cases span? with
    | some span =>
      obtain ⟨rfl, rfl⟩ : after = middle ∧
          pattern = String.ofList (Text.slice tokens.source span.start span.stop) := by
        simpa using hrest
      exact ⟨span, hspan, rfl⟩
    | none => simp at hrest
  · rintro ⟨span, hspan, rfl⟩
    exact ⟨some span, after, hspan, by simp⟩

/-- A case is a pattern that a condition may guard, and a block. -/
theorem reads_matchCase {case : MatchCase} :
    (matchCase block).Reads tokens before case after ↔
      ∃ pattern middle, casePattern.Reads tokens before.step pattern middle ∧
        ∃ guard header, (ifAccepted .keywordIf namedExpr).Reads tokens middle guard header ∧
          ∃ body, block.Reads tokens header body after ∧
            case = ⟨tokens.spanBetween before.next after.next, pattern, guard, body⟩ := by
  simp [matchCase, -reads_ifAccepted, and_assoc]

/-- A line is the header of a match statement if a block that starts with a case follows its
colon. -/
theorem reads_matchSubject? {subject : Expr} :
    matchSubject?.Reads tokens before (some subject) after ↔
      ∃ last, Level.outermost.starNamedExprs.Reads tokens before.step subject last ∧
        tokens.kindAt last = .colon ∧ tokens.kindAt last.step = .newline ∧
        tokens.kindAt last.step.step = .indent ∧
        isWord "case" (tokens.get last.step.step.step.next) ∧
        after = last.step.step.step.look 0 := by
  simp [matchSubject?]

/-- A match statement is its subject and its cases, up to where the block of cases ends. -/
theorem reads_matchStmt?_some (hreads : (matchStmt? block).Reads tokens before (some stmt) after) :
    ∃ subject middle cases last, matchSubject?.Reads tokens before (some subject) middle ∧
      Repeats (nextIsWord "case") (matchCase block) tokens middle cases last ∧
      tokens.kindAt last = .dedent ∧ after = last.step ∧
      stmt = ⟨tokens.spanBetween before.next after.next, .matchCases subject cases⟩ := by
  simp only [matchStmt?, reads_bind, reads_mark, existsAndEq, true_and, and_true] at hreads
  obtain ⟨subject?, middle, hsubject, hrest⟩ := hreads
  cases subject? with
  | none => simp at hrest
  | some subject =>
    simp only [reads_bind, reads_repeatWhile, reads_expect, reads_spanSince, reads_pure,
      existsAndEq, true_and, and_true, Option.some.injEq] at hrest
    obtain ⟨cases, last, ⟨-, hcases⟩, hdedent, rfl, rfl⟩ := hrest
    exact ⟨subject, middle, cases, last, hsubject, hcases, hdedent, rfl, rfl⟩

/-- Where no match statement stands nothing is taken. -/
theorem reads_matchStmt?_none (hreads : (matchStmt? block).Reads tokens before none after) :
    after.next = before.next := by
  simp only [matchStmt?, reads_bind, reads_mark, existsAndEq, true_and, and_true] at hreads
  obtain ⟨subject?, middle, hsubject, hrest⟩ := hreads
  cases subject? with
  | none =>
    obtain ⟨-, rfl⟩ := reads_pure.mp hrest
    exact reads_attempt_none hsubject
  | some subject => simp at hrest

end PythonOutline.Parser
