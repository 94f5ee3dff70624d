import PythonOutline.Proofs.Outline.Lines

/-! # Definitions and the lines they start at

Every statement is a run of whole lines, and the lines of its blocks lie deeper. So the lines at the
depth of a statement that start definitions are those of the definitions among the statements there,
in order.
-/

namespace PythonOutline.Parser

variable {tokens : Tokens} {before after : Place}

/-- What a parser reads is whole lines that start the definitions among the statements. -/
def OutlinesStmts (parser : Parser (List Stmt)) (tokens : Tokens) : Prop :=
  ∀ ⦃before stmts after⦄, parser.Reads tokens before stmts after →
    tokens.Outlines before.next after.next (stmts.filterMap Stmt.definition?)

/-- A parser reads a colon, the rest of its line, and deeper lines. -/
def NestsStmts (parser : Parser (List Stmt)) (tokens : Tokens) : Prop :=
  ∀ ⦃before stmts after⦄, parser.Reads tokens before stmts after →
    tokens.kindAt before = .colon ∧ tokens.Nests before.step.next after.next

private theorem startsDefinition_of_opensCompound {kind : TokenKind}
    (hsimple : opensCompound kind = false) :
    startsDefinition kind = false := by
  unfold startsDefinition
  split <;> first | rfl | cases hsimple

/-! ## Simple statements -/

/-- No simple statement is a definition. -/
theorem simpleStmts_definition? {stmts : List Stmt}
    (hreads : simpleStmts.Reads tokens before stmts after) :
    stmts.filterMap Stmt.definition? = [] := by
  refine List.filterMap_eq_nil_iff.mpr fun stmt hstmt => ?_
  have hsimple := simpleStmts_isCompound hreads stmt hstmt
  unfold Stmt.definition?
  split <;> rename_i hform <;> first | rfl | (rw [hform] at hsimple; cases hsimple)

private theorem simpleStmts_nests (hordered : tokens.Ordered) {stmts : List Stmt}
    (hreads : simpleStmts.Reads tokens before stmts after) :
    tokens.Nests before.next after.next := by
  obtain ⟨last, hline, rfl, hfits⟩ := simpleStmts_fits hordered hreads
  exact .line hfits hline

/-- A line of simple statements starts no definition, unless its first token may start one. -/
theorem simpleStmts_outlines (hordered : tokens.Ordered) {stmts : List Stmt}
    (hreads : simpleStmts.Reads tokens before stmts after)
    (hfirst : opensCompound (tokens.kindAt before) = false) :
    tokens.Outlines before.next after.next (stmts.filterMap Stmt.definition?) := by
  rw [simpleStmts_definition? hreads]
  obtain ⟨last, hline, rfl, hfits⟩ := simpleStmts_fits hordered hreads
  have hlt : before.next < last.next := by
    obtain ⟨first, middle, others, _, -, -, -, -, rfl⟩ := reads_simpleStmts hreads
    exact hfits.lt (List.mem_cons_self ..)
  have hbreak : tokens.Nests last.next last.step.next := .line (.nil _ _ _) hline
  exact hbreak.outlines_nil hfits hlt rfl (startsDefinition_of_opensCompound hfirst)

section

variable {block : Parser (List Stmt)} (hordered : tokens.Ordered)
  (hblock : block.NestsStmts tokens)

include hordered hblock

/-! ## Clauses -/

/-- A clause is one line and deeper ones. Whether it starts a definition is told by its tokens up to
the colon. -/
theorem ReadsClause.outlines {start : Nat} {header : List Node} {body : List Stmt}
    (hclause : ReadsClause block tokens start header body after)
    {definitions : List (DeclarationKind × Name)}
    (hstarts : ∀ middle rest, start < middle → (tokens.get middle).kind = .colon →
      List.Forall₂ Header.Starts
        (header? (tokens.get start :: tokens.get (start + 1) ::
          (tokens.run (start + 2) (middle + 1) ++ rest))).toList definitions) :
    tokens.Outlines start after.next definitions := by
  obtain ⟨middle, hlt, hheader, hbody⟩ := hclause
  obtain ⟨hcolon, hnests⟩ := hblock hbody
  have hfits := hheader.thenToken hordered hcolon (by decide)
  refine Tokens.Nests.outlines hfits hnests fun rest => ?_
  rw [Tokens.run_cons (Nat.lt_succ_of_lt hlt), Tokens.run_cons (Nat.succ_lt_succ hlt),
    List.cons_append, List.cons_append]
  exact hstarts middle.next rest hlt hcolon

/-- A clause that starts with a keyword of its own starts no definition. -/
theorem ReadsClause.outlines_nil {start : Nat} {header : List Node} {body : List Stmt}
    (hclause : ReadsClause block tokens start header body after) {kind : TokenKind}
    (hkind : (tokens.get start).kind = kind) (hother : startsDefinition kind = false) :
    tokens.Outlines start after.next [] := by
  refine hclause.outlines hordered hblock fun middle rest _ _ => ?_
  rw [header?_eq_none hkind hother]
  exact .nil

/-- A clause that may be async starts no definition if a keyword of its own follows the `async`. -/
theorem ReadsClause.outlines_async {header : List Node} {body : List Stmt} {kind : TokenKind}
    (hclause : ReadsClause block tokens before.next header body after)
    (hkind : tokens.kindAt before = kind ∨
      tokens.kindAt before = .keywordAsync ∧ tokens.kindAt before.step = kind)
    (hother : startsDefinition kind = false) : tokens.Outlines before.next after.next [] := by
  have hdef : kind ≠ .keywordDef := by
    rintro rfl
    cases hother
  rcases hkind with hkind | ⟨hfirst, hsecond⟩
  · exact hclause.outlines_nil hordered hblock hkind hother
  · refine hclause.outlines hordered hblock fun middle rest _ _ => ?_
    have hnone : header? (tokens.get before.next :: tokens.get (before.next + 1) ::
        (tokens.run (before.next + 2) (middle + 1) ++ rest)) = none := by
      simp [header?, hfirst, hsecond, hdef]
    rw [hnone]
    exact .nil

private theorem elseBlock_outlines {stmts : List Stmt}
    (hreads : (elseBlock block).Reads tokens before stmts after) :
    tokens.Outlines before.next after.next [] := by
  rcases reads_elseBlock_clause hreads with ⟨-, rfl⟩ | ⟨hkind, hclause⟩
  · exact .nil _ _
  · exact hclause.outlines_nil hordered hblock hkind rfl

/-! ## Conditionals and loops -/

private theorem ifClause_outlines {clause : IfClause}
    (hreads : (ifClause block).Reads tokens before clause after) :
    tokens.Outlines before.next after.next [] := by
  obtain ⟨hkind, -, hclause⟩ := reads_ifClause_clause hordered hreads
  rcases hkind with hkind | hkind
  · exact hclause.outlines_nil hordered hblock hkind rfl
  · exact hclause.outlines_nil hordered hblock hkind rfl

/-- The clauses of an `if` statement hold deeper lines, and define nothing. -/
theorem Completes.outlines {clause : IfClause} {stmt : Stmt}
    (hcompletes : Completes block tokens clause before stmt after) :
    tokens.Outlines before.next after.next [] := by
  induction hcompletes with
  | last _ helse =>
    have houtlines := elseBlock_outlines hordered hblock helse
    exact houtlines
  | elif _ hnext _ ih =>
    have hclause := ifClause_outlines hordered hblock hnext
    exact hclause.append ih

/-- An `if` statement defines nothing. -/
theorem ifStmt_outlines {stmt : Stmt} (hreads : (ifStmt block).Reads tokens before stmt after) :
    stmt.definition? = none ∧ tokens.Outlines before.next after.next [] := by
  obtain ⟨first, middle, hfirst, hcompletes⟩ := reads_ifStmt hreads
  refine ⟨?_, (ifClause_outlines hordered hblock hfirst).append
    (hcompletes.outlines hordered hblock)⟩
  cases hcompletes <;> rfl

/-- A `while` loop defines nothing. -/
theorem whileStmt_outlines {stmt : Stmt}
    (hreads : (whileStmt block).Reads tokens before stmt after)
    (hkind : tokens.kindAt before = .keywordWhile) :
    stmt.definition? = none ∧ tokens.Outlines before.next after.next [] := by
  obtain ⟨test, body, last, orElse, hclause, horElse, rfl⟩ := reads_whileStmt_clause hordered hreads
  exact ⟨rfl,
    (hclause.outlines_nil hordered hblock hkind rfl).append
      (elseBlock_outlines hordered hblock horElse)⟩

/-- A `for` loop defines nothing. -/
theorem forStmt_outlines {stmt : Stmt}
    (hreads : (forStmt block).Reads tokens before stmt after)
    (hkind : tokens.kindAt before = .keywordFor ∨
      tokens.kindAt before = .keywordAsync ∧ tokens.kindAt before.step = .keywordFor) :
    stmt.definition? = none ∧ tokens.Outlines before.next after.next [] := by
  obtain ⟨isAsync, target, iterable, body, last, orElse, hclause, horElse, rfl⟩ :=
    reads_forStmt_clause hordered hreads
  exact ⟨rfl,
    (hclause.outlines_async hordered hblock hkind rfl).append
      (elseBlock_outlines hordered hblock horElse)⟩

/-! ## Exceptions, contexts and matches -/

private theorem handlers_outlines {handlers : List (Handler × Bool)}
    (hrepeats : Repeats (nextIs .keywordExcept) (handler block) tokens before handlers after) :
    tokens.Outlines before.next after.next [] := by
  induction hrepeats with
  | stop hstop =>
    obtain ⟨-, rfl⟩ := reads_nextIs.mp hstop
    exact .nil _ _
  | @item _ _ _ _ handled _ hstart hhandler _ ih =>
    simp only [reads_nextIs, Bool.true_eq, beq_iff_eq] at hstart
    obtain ⟨hkind, rfl⟩ := hstart
    obtain ⟨-, hclause⟩ := reads_handler_clause hordered hhandler hkind
    have hfirst := hclause.outlines_nil hordered hblock hkind rfl
    exact hfirst.append ih

/-- A `try` statement defines nothing. -/
theorem tryStmt_outlines {stmt : Stmt} (hreads : (tryStmt block).Reads tokens before stmt after) :
    stmt.definition? = none ∧ tokens.Outlines before.next after.next [] := by
  obtain ⟨htry, body, middle, handlers, last, hbody, hhandlers, orElse, finalBody, rfl, hrest⟩ :=
    reads_tryStmt hreads
  have hfinally : ∀ {place : Place}, tokens.kindAt place = .keywordFinally →
      block.Reads tokens place.step finalBody after → tokens.Outlines place.next after.next [] := by
    intro place hkind hfinal
    exact (readsClause_token hkind (by decide) hfinal).outlines_nil hordered hblock hkind
      rfl
  have hending : tokens.Outlines last.next after.next [] := by
    split at hrest
    · obtain ⟨hkind, -, hfinal⟩ := hrest
      exact hfinally hkind hfinal
    · obtain ⟨final, horElse, hrest⟩ := hrest
      have helse := elseBlock_outlines hordered hblock horElse
      split at hrest
      · rename_i hkind
        exact helse.append (hfinally hkind hrest)
      · obtain ⟨-, rfl⟩ := hrest
        exact helse
  have hfirst := (readsClause_token htry (by decide) hbody).outlines_nil hordered hblock htry
    rfl
  exact ⟨rfl, (hfirst.append (handlers_outlines hordered hblock hhandlers)).append hending⟩

/-- A `with` statement defines nothing. -/
theorem withStmt_outlines {stmt : Stmt}
    (hreads : (withStmt block).Reads tokens before stmt after)
    (hkind : tokens.kindAt before = .keywordWith ∨
      tokens.kindAt before = .keywordAsync ∧ tokens.kindAt before.step = .keywordWith) :
    stmt.definition? = none ∧ tokens.Outlines before.next after.next [] := by
  obtain ⟨isAsync, items, body, hclause, rfl⟩ := reads_withStmt_clause hordered hreads
  exact ⟨rfl, hclause.outlines_async hordered hblock hkind rfl⟩

private theorem matchCases_outlines {cases : List MatchCase}
    (hrepeats : Repeats (nextIsWord "case") (matchCase block) tokens before cases after) :
    tokens.Outlines before.next after.next [] := by
  induction hrepeats with
  | stop hstop =>
    obtain ⟨-, rfl⟩ := reads_nextIsWord.mp hstop
    exact .nil _ _
  | item hstart hcase _ ih =>
    obtain ⟨hword, rfl⟩ := reads_nextIsWord.mp hstart
    have hkind := kind_of_isWord hword.symm
    obtain ⟨-, hclause⟩ := reads_matchCase_clause hordered hcase hkind
    have hfirst := hclause.outlines_nil hordered hblock hkind rfl
    exact hfirst.append ih

/-- A match statement defines nothing. -/
theorem matchStmt?_outlines {stmt : Stmt}
    (hreads : (matchStmt? block).Reads tokens before (some stmt) after)
    (hkind : tokens.kindAt before = .identifier) :
    stmt.definition? = none ∧ tokens.Outlines before.next after.next [] := by
  obtain ⟨subject, middle, cases, last, hreadsSubject, hcases, hdedent, rfl, rfl⟩ :=
    reads_matchStmt?_some hreads
  obtain ⟨colon, hsubject, hcolon, hline, hindent, -, rfl⟩ := reads_matchSubject?.mp hreadsSubject
  have hmatched := (Level.starNamedExprs_lays hordered (Level.outermost_lays hordered)
    hsubject).behindToken hordered hkind (by decide)
  have hnests := Tokens.Nests.block hline hindent (matchCases_outlines hordered hblock hcases)
    hdedent
  exact ⟨rfl, hnests.outlines_nil (hmatched.thenToken hordered hcolon (by decide))
    (Nat.lt_succ_of_lt (hmatched.lt (List.mem_singleton_self _))) hkind rfl⟩

/-! ## Definitions -/

omit hblock in
/-- Decorators define nothing by themselves. -/
theorem decorators_outlines {decorators : List Decorator}
    (hreads : Parser.decorators.Reads tokens before decorators after) :
    tokens.Outlines before.next after.next [] := by
  have hrepeats := reads_decorators hreads
  clear hreads
  induction hrepeats with
  | stop hstop =>
    obtain ⟨-, rfl⟩ := reads_nextIs.mp hstop
    exact .nil _ _
  | @item before _ _ _ _ _ hstart hdecorator _ ih =>
    obtain ⟨-, rfl⟩ := reads_nextIs.mp hstart
    obtain ⟨hat, expression, last, hexpression, hline, rfl, -⟩ := reads_decorator.mp hdecorator
    have hfits := (namedExpr_lays hordered hexpression).behindToken hordered hat (by decide)
    have hbreak : tokens.Nests last.next last.step.next := .line (.nil _ _ _) hline
    have hfirst := hbreak.outlines_nil hfits (hfits.lt (List.mem_singleton_self _)) hat rfl
    exact hfirst.append ih

private theorem classDef_outlines (span : Span) {decorators : List Decorator} {form : StmtForm}
    (hreads : (classDef block decorators).Reads tokens before form after) :
    tokens.Outlines before.next after.next (Stmt.definition? ⟨span, form⟩).toList := by
  obtain ⟨params, arguments, body, hclass, hname, hclause, rfl⟩ :=
    reads_classDef_clause hordered hreads
  refine hclause.outlines hordered hblock fun middle rest _ _ => ?_
  have hheader : header? (tokens.get before.next :: tokens.get (before.next + 1) ::
      (tokens.run (before.next + 2) (middle + 1) ++ rest)) =
      some ⟨.classType, tokens.get (before.next + 1) ::
        (tokens.run (before.next + 2) (middle + 1) ++ rest)⟩ := by
    simp [header?, hclass]
  rw [hheader]
  exact .cons (Tokens.starts_name hname _ _) .nil

private theorem functionDef_outlines (span : Span) {decorators : List Decorator} {form : StmtForm}
    (hreads : (functionDef block decorators).Reads tokens before form after) :
    tokens.Outlines before.next after.next (Stmt.definition? ⟨span, form⟩).toList := by
  obtain ⟨isAsync, start, params, parameters, returns, body, hasync, hdef, hname, hclause, rfl⟩ :=
    reads_functionDef_clause hordered hreads
  refine hclause.outlines hordered hblock fun middle rest hlt hcolon => ?_
  rw [reads_accept] at hasync
  split at hasync
  · rename_i hkind
    obtain ⟨rfl, rfl⟩ := hasync
    -- The token behind `async` is no colon, so the name is still in front of it.
    have hmiddle : before.next + 2 < middle + 1 := by
      have hne : before.next + 1 ≠ middle := by
        rintro rfl
        exact absurd (hdef.symm.trans hcolon) (by decide)
      omega
    have hheader : header? (tokens.get before.next :: tokens.get (before.next + 1) ::
        (tokens.run (before.next + 2) (middle + 1) ++ rest)) =
        some ⟨.asyncFunction, tokens.get (before.next + 2) ::
          (tokens.run (before.next + 3) (middle + 1) ++ rest)⟩ := by
      rw [Tokens.run_cons hmiddle]
      simp [header?, hkind, hdef]
    rw [hheader]
    exact .cons (Tokens.starts_name hname _ _) .nil
  · obtain ⟨rfl, rfl⟩ := hasync
    have hheader : header? (tokens.get before.next :: tokens.get (before.next + 1) ::
        (tokens.run (before.next + 2) (middle + 1) ++ rest)) =
        some ⟨.function, tokens.get (before.next + 1) ::
          (tokens.run (before.next + 2) (middle + 1) ++ rest)⟩ := by
      have hfirst : tokens.kindAt before = .keywordDef := hdef
      simp [header?, hfirst]
    rw [hheader]
    exact .cons (Tokens.starts_name hname _ _) .nil

/-- A definition has one header at its depth, its own. -/
theorem definition_outlines {stmt : Stmt}
    (hreads : (definition block).Reads tokens before stmt after) :
    tokens.Outlines before.next after.next stmt.definition?.toList := by
  obtain ⟨decorators, middle, form, hdecorators, rfl, hform⟩ := reads_definition hreads
  have hlines := decorators_outlines hordered hdecorators
  rcases hform with ⟨-, hclass⟩ | ⟨-, hfunction⟩
  · have hrest := classDef_outlines hordered hblock (tokens.spanBetween before.next after.next)
      hclass
    exact hlines.append hrest
  · have hrest := functionDef_outlines hordered hblock (tokens.spanBetween before.next after.next)
      hfunction
    exact hlines.append hrest

/-! ## Blocks -/

/-- A compound statement is outlined as the definition it is, or as none. -/
private theorem compound_outlines {stmt : Stmt}
    (hcompound : ReadsCompound block tokens before stmt after) :
    tokens.Outlines before.next after.next stmt.definition?.toList := by
  have hother : stmt.definition? = none ∧ tokens.Outlines before.next after.next [] →
      tokens.Outlines before.next after.next stmt.definition?.toList := by
    rintro ⟨hnone, houtlines⟩
    rw [hnone]
    exact houtlines
  cases hcompound with
  | definition _ hreads =>
    have houtlines := definition_outlines hordered hblock hreads
    exact houtlines
  | loop hkind hreads =>
    have houtlines := forStmt_outlines hordered hblock hreads hkind
    exact hother houtlines
  | context hkind hreads =>
    have houtlines := withStmt_outlines hordered hblock hreads hkind
    exact hother houtlines
  | conditional _ hreads =>
    have houtlines := ifStmt_outlines hordered hblock hreads
    exact hother houtlines
  | attempt _ hreads =>
    have houtlines := tryStmt_outlines hordered hblock hreads
    exact hother houtlines
  | whileLoop hkind hreads =>
    have houtlines := whileStmt_outlines hordered hblock hreads hkind
    exact hother houtlines
  | cases hkind hreads =>
    have houtlines := matchStmt?_outlines hordered hblock hreads hkind
    exact hother houtlines

/-- The headers of a line and what is nested in it are its definition, if it is one. -/
theorem stmtLineOver_outlines : (stmtLineOver block).OutlinesStmts tokens := by
  intro before stmts after hreads
  rcases reads_stmtLineOver hreads with ⟨stmt, rfl, hcompound⟩ | ⟨hfirst, start, hstart, hsimple⟩
  · have houtlines := compound_outlines hordered hblock hcompound
    cases hdefinition : stmt.definition? <;> simpa [hdefinition] using houtlines
  · rw [← hstart]
    refine simpleStmts_outlines hordered hsimple ?_
    rwa [Tokens.kindAt, hstart]

end

private theorem stmtsOver_outlines {line : Parser (List Stmt)} {stop : TokenKind}
    (hline : line.OutlinesStmts tokens) : (stmtsOver line stop).OutlinesStmts tokens := by
  intro before stmts after hreads
  have hlines := reads_stmtsOver hreads
  clear hreads
  induction hlines with
  | stop => exact .nil _ _
  | line _ _ hfirst _ ih =>
    have houtlines := hline hfirst
    rw [List.filterMap_append]
    exact houtlines.append ih

private theorem blockOver_nests (hordered : tokens.Ordered) {line : Parser (List Stmt)}
    (hline : line.OutlinesStmts tokens) : (blockOver line).NestsStmts tokens := by
  intro before stmts after hreads
  obtain ⟨hcolon, hrest⟩ := reads_blockOver.mp hreads
  refine ⟨hcolon, ?_⟩
  split at hrest
  · rename_i hbreak
    obtain ⟨hindent, last, hstmts, hdedent, rfl⟩ := hrest
    exact .block hbreak hindent (stmtsOver_outlines hline hstmts) hdedent
  · have hnests := simpleStmts_nests hordered hrest
    exact hnests

/-- A block is nested in the line of its colon. -/
theorem blockWithin_nests (hordered : tokens.Ordered) (depth : Nat) :
    (blockWithin depth).NestsStmts tokens := by
  induction depth with
  | zero =>
    intro before stmts after hreads
    exact (reads_failNext.mp hreads).elim
  | succ depth ih => exact blockOver_nests hordered (stmtLineOver_outlines hordered ih)

/-- The lines of a module that start definitions are those of the definitions among its
statements. -/
theorem stmts_outlines (hordered : tokens.Ordered) (stop : TokenKind) :
    (Parser.stmts stop).OutlinesStmts tokens :=
  stmtsOver_outlines (stmtLineOver_outlines hordered (blockWithin_nests hordered _))

end PythonOutline.Parser
