import PythonOutline.Proofs.Tree.Clause

/-! # Modules are laminar

Every parser of a compound statement lays out a laminar tree if the parser of its blocks does. So
the parser of blocks does, by induction on how deep they nest, and with it the parser of modules. -/

namespace PythonOutline

/-- Text is readable. -/
theorem TokenKind.IsSolid.isReadable {kind : TokenKind} (hsolid : kind.IsSolid) :
    kind.IsReadable :=
  ⟨hsolid.2.2, hsolid.2.1⟩

/-- A statement with the span of a run of tokens that starts with text, and with children within
it. -/
theorem Tokens.Fits.stmt {tokens : Tokens} (hordered : tokens.InOrder) {start stop : Nat}
    {form : StmtForm} (hfits : tokens.Fits TokenKind.IsReadable start stop form.children)
    (hlt : start < stop) (hsolid : (tokens.get start).kind.IsSolid) :
    tokens.Fits TokenKind.IsReadable start stop
      [Stmt.node ⟨tokens.spanBetween start stop, form⟩] := by
  rw [Stmt.node]
  exact hfits.node hordered (fun _ hreadable => hreadable) _ (Nat.le_refl _) hlt hsolid

@[simp]
theorem Stmt.node_span (stmt : Stmt) : stmt.node.span = stmt.span := by
  cases stmt
  rfl

namespace Parser

variable {tokens : Tokens} {before after : Place}

/-- A parser lays out the statement it reads. -/
def LaysStmt (parser : Parser Stmt) (tokens : Tokens) : Prop :=
  parser.Lays tokens TokenKind.IsReadable fun stmt => [stmt.node]

/-- A parser lays out the statements it reads. -/
def LaysStmts (parser : Parser (List Stmt)) (tokens : Tokens) : Prop :=
  parser.Lays tokens TokenKind.IsReadable fun stmts => stmts.map Stmt.node

/-- The statements of a line are nodes behind each other. -/
theorem simpleStmts_lays (hordered : tokens.InOrder) : simpleStmts.LaysStmts tokens := by
  intro before stmts after hreads
  obtain ⟨last, hline, rfl, hfits⟩ := simpleStmts_fits hordered hreads
  exact (hfits.weaken fun _ hsolid => hsolid.isReadable).thenToken hordered hline (by decide)

section

variable {block : Parser (List Stmt)} (hordered : tokens.InOrder)
  (hblock : block.LaysStmts tokens)

include hordered hblock

/-- The block of a clause is laid out behind its header. -/
theorem ReadsClause.fits {start : Nat} {header : List Node} {body : List Stmt}
    (hclause : ReadsClause block tokens start header body after) :
    tokens.Fits TokenKind.IsReadable start after.next (header ++ body.map Stmt.node) ∧
      start < after.next := by
  obtain ⟨middle, hlt, hheader, hbody⟩ := hclause
  have hstmts := hblock hbody
  exact ⟨(hheader.weaken fun _ hsolid => hsolid.isReadable).append hordered hstmts,
    Nat.lt_of_lt_of_le hlt hstmts.le⟩

/-- The statements of an `else` are nodes behind each other. -/
theorem elseBlock_lays : (elseBlock block).LaysStmts tokens := by
  intro before stmts after hreads
  rcases reads_elseBlock_clause hreads with ⟨rfl, rfl⟩ | ⟨-, hclause⟩
  · exact .nil _ _ _
  · exact (hclause.fits hordered hblock).1

/-! ## Conditionals and loops -/

/-- The clauses of an `if` statement and what is in them do not overlap. -/
theorem Completes.fits {clause : IfClause} {stmt : Stmt}
    (hcompletes : Completes block tokens clause before stmt after)
    (hclause : ReadsClause block tokens clause.start [clause.test.node] clause.body before) :
    tokens.Fits TokenKind.IsReadable clause.start after.next [stmt.node] := by
  induction hcompletes with
  | last _ helse =>
    obtain ⟨hfirst, hlt⟩ := hclause.fits hordered hblock
    have hrest := (elseBlock_lays hordered hblock).look helse
    have hall := hfirst.append hordered hrest
    refine .stmt hordered ?_ (Nat.lt_of_lt_of_le hlt hrest.le) hclause.isSolid
    simpa [StmtForm.children] using hall
  | elif _ hnext _ ih =>
    obtain ⟨hfirst, hlt⟩ := hclause.fits hordered hblock
    obtain ⟨-, hstart, hclauseNext⟩ := reads_ifClause_clause hordered hnext
    have hrest := ih (hstart ▸ hclauseNext)
    rw [hstart] at hrest
    have hall := hfirst.append hordered hrest
    refine .stmt hordered ?_ (Nat.lt_of_lt_of_le hlt hrest.le) hclause.isSolid
    simpa [StmtForm.children] using hall

/-- An `if` statement is a node around its clauses. -/
theorem ifStmt_lays : (ifStmt block).LaysStmt tokens := by
  intro before stmt after hreads
  obtain ⟨first, middle, hfirst, hcompletes⟩ := reads_ifStmt hreads
  obtain ⟨-, hstart, hclause⟩ := reads_ifClause_clause hordered hfirst
  rw [← hstart] at hclause ⊢
  exact hcompletes.fits hordered hblock hclause

/-- A `while` loop is a node around its condition and its blocks. -/
theorem whileStmt_lays : (whileStmt block).LaysStmt tokens := by
  intro before stmt after hreads
  obtain ⟨test, body, last, orElse, hclause, horElse, rfl⟩ := reads_whileStmt_clause hordered hreads
  obtain ⟨hloop, hlt⟩ := hclause.fits hordered hblock
  have hrest := elseBlock_lays hordered hblock horElse
  refine .stmt hordered ?_ (Nat.lt_of_lt_of_le hlt hrest.le) hclause.isSolid
  simpa [StmtForm.children] using hloop.append hordered hrest

/-- A `for` loop is a node around its targets, what they run over, and its blocks. -/
theorem forStmt_lays : (forStmt block).LaysStmt tokens := by
  intro before stmt after hreads
  obtain ⟨isAsync, target, iterable, body, last, orElse, hclause, horElse, rfl⟩ :=
    reads_forStmt_clause hordered hreads
  obtain ⟨hloop, hlt⟩ := hclause.fits hordered hblock
  have hrest := elseBlock_lays hordered hblock horElse
  refine .stmt hordered ?_ (Nat.lt_of_lt_of_le hlt hrest.le) hclause.isSolid
  simpa [StmtForm.children] using hloop.append hordered hrest

/-! ## Exceptions -/

private theorem handlers_fits {handlers : List (Handler × Bool)}
    (hrepeats : Repeats (nextIs .keywordExcept) (handler block) tokens before handlers after) :
    tokens.Fits TokenKind.IsReadable before.next after.next
      ((handlers.map Prod.fst).map Handler.node) := by
  rw [List.map_map]
  refine Lays.repeats hordered (fun _ _ hstop => lays_nextIs hstop) ?_ hrepeats
  intro before start handled after hexcept hhandler
  simp only [reads_nextIs, Bool.true_eq, beq_iff_eq] at hexcept
  obtain ⟨hkind, rfl⟩ := hexcept
  obtain ⟨hspan, hclause⟩ := reads_handler_clause hordered hhandler hkind
  obtain ⟨hfits, hlt⟩ := hclause.fits hordered hblock
  simp only [Function.comp_apply, Handler.node, hspan, exprNode?_eq, stmtNodes_eq]
  exact hfits.node hordered (fun _ hreadable => hreadable) _ (Nat.le_refl _) hlt hclause.isSolid

/-- A `try` statement is a node around its blocks and handlers. -/
theorem tryStmt_lays : (tryStmt block).LaysStmt tokens := by
  intro before stmt after hreads
  obtain ⟨htry, body, middle, handlers, last, hbody, hhandlers, orElse, finalBody, rfl, hrest⟩ :=
    reads_tryStmt hreads
  have hclause := readsClause_token htry (by decide) hbody
  obtain ⟨hfirst, hlt⟩ := hclause.fits hordered hblock
  have hguarded := hfirst.append hordered (handlers_fits hordered hblock hhandlers)
  have hending : tokens.Fits TokenKind.IsReadable last.next after.next
      (orElse.map Stmt.node ++ finalBody.map Stmt.node) := by
    split at hrest
    · obtain ⟨hfinally, rfl, hfinal⟩ := hrest
      exact (hblock hfinal).behindToken hordered hfinally (by decide)
    · obtain ⟨final, horElse, hrest⟩ := hrest
      have helse := elseBlock_lays hordered hblock horElse
      split at hrest
      · rename_i hfinally
        exact helse.append hordered ((hblock hrest).behindToken hordered hfinally (by decide))
      · obtain ⟨rfl, rfl⟩ := hrest
        simpa using helse
  have hall := hguarded.append hordered hending
  refine .stmt hordered ?_ ?_ hclause.isSolid
  · simpa [StmtForm.children] using hall
  · exact Nat.lt_of_lt_of_le (Nat.lt_of_lt_of_le hlt
      (handlers_fits hordered hblock hhandlers).le) hending.le

/-! ## Contexts and matches -/

/-- A `with` statement is a node around its contexts and its block. -/
theorem withStmt_lays : (withStmt block).LaysStmt tokens := by
  intro before stmt after hreads
  obtain ⟨isAsync, items, body, hclause, rfl⟩ := reads_withStmt_clause hordered hreads
  obtain ⟨hfits, hlt⟩ := hclause.fits hordered hblock
  refine .stmt hordered ?_ hlt hclause.isSolid
  simpa [StmtForm.children] using hfits

/-- Cases are nodes behind each other. -/
theorem matchCases_fits {cases : List MatchCase}
    (hrepeats : Repeats (nextIsWord "case") (matchCase block) tokens before cases after) :
    tokens.Fits TokenKind.IsReadable before.next after.next (cases.map MatchCase.node) := by
  refine Lays.repeats hordered ?_ ?_ hrepeats
  · intro before after hstop
    obtain ⟨-, rfl⟩ := reads_nextIsWord.mp hstop
    exact .nil _ _ _
  · intro before start case after hstart hcase
    obtain ⟨hword, rfl⟩ := reads_nextIsWord.mp hstart
    obtain ⟨hspan, hclause⟩ := reads_matchCase_clause hordered hcase (kind_of_isWord hword.symm)
    obtain ⟨hfits, hlt⟩ := hclause.fits hordered hblock
    simp only [MatchCase.node, hspan, exprNode?_eq, stmtNodes_eq]
    exact hfits.node hordered (fun _ hreadable => hreadable) _ (Nat.le_refl _) hlt hclause.isSolid

private theorem matchStmt?_fits {stmt : Stmt}
    (hreads : (matchStmt? block).Reads tokens before (some stmt) after)
    (hkind : tokens.kindAt before = .identifier) :
    tokens.Fits TokenKind.IsReadable before.next after.next [stmt.node] := by
  obtain ⟨subject, middle, cases, last, hreadsSubject, hcases, hdedent, rfl, rfl⟩ :=
    reads_matchStmt?_some hreads
  obtain ⟨colon, hsubject, hcolon, hline, hindent, -, rfl⟩ := reads_matchSubject?.mp hreadsSubject
  have hmatched := (Level.starNamedExprs_lays hordered (Level.outermost_lays hordered)
    hsubject).behindToken hordered hkind (by decide)
  have hheader := (((hmatched.weaken fun _ hsolid => hsolid.isReadable).thenToken hordered hcolon
    (by decide)).thenToken hordered hline (by decide)).thenToken hordered hindent (by decide)
  have hall := (hheader.append hordered (matchCases_fits hordered hblock hcases)).thenToken hordered
    hdedent (by decide)
  refine .stmt hordered ?_ (hall.lt (List.mem_cons_self ..)) ?_
  · simpa [StmtForm.children] using hall
  · show (tokens.kindAt before).IsSolid
    rw [hkind]
    decide

/-! ## Definitions -/

omit hblock in
/-- Decorators are nodes behind each other. -/
theorem decorators_lays :
    Parser.decorators.Lays tokens TokenKind.IsReadable fun decorators =>
      decorators.map Decorator.node := by
  intro before decorators after hreads
  refine Lays.repeats hordered (fun _ _ hstop => lays_nextIs hstop) ?_ (reads_decorators hreads)
  intro before start decorator after hstart hdecorator
  obtain ⟨-, rfl⟩ := reads_nextIs.mp hstart
  obtain ⟨hat, expression, last, hexpression, hline, rfl, rfl⟩ := reads_decorator.mp hdecorator
  have hfits := (namedExpr_lays hordered hexpression).behindToken hordered hat (by decide)
  have hall := (hfits.weaken fun _ hsolid => hsolid.isReadable).thenToken hordered hline (by decide)
  refine hall.node hordered (fun _ hreadable => hreadable) _ (Nat.le_refl _)
    (hall.lt (List.mem_singleton_self _)) ?_
  show (tokens.kindAt (before.look 0)).IsSolid
  rw [hat]
  decide

/-- A definition is laid out if its header and body are the children behind its decorators. -/
theorem definition_fits {start : Nat} {decorators : List Decorator} {header : List Node}
    {body : List Stmt} {form : StmtForm}
    (hdecorators : tokens.Fits TokenKind.IsReadable start before.next
      (decorators.map Decorator.node))
    (hclause : ReadsClause block tokens before.next header body after)
    (hform : form.children = decorators.map Decorator.node ++ (header ++ body.map Stmt.node)) :
    tokens.Fits TokenKind.IsReadable start after.next
      [Stmt.node ⟨tokens.spanBetween start after.next, form⟩] := by
  obtain ⟨hfits, hlt⟩ := hclause.fits hordered hblock
  have hall := hdecorators.append hordered hfits
  rw [Stmt.node, hform]
  exact hall.node hordered (fun _ hreadable => hreadable) _ hdecorators.le hlt hclause.isSolid

/-- A definition is a node around its decorators, its header and its block. -/
theorem definition_lays : (definition block).LaysStmt tokens := by
  intro before stmt after hreads
  obtain ⟨decorators, middle, form, hreadsDecorators, rfl, hform⟩ := reads_definition hreads
  have hdecorators := decorators_lays hordered hreadsDecorators
  rcases hform with ⟨-, hclass⟩ | ⟨-, hfunction⟩
  · obtain ⟨params, arguments, body, -, -, hclause, rfl⟩ := reads_classDef_clause hordered hclass
    exact definition_fits hordered hblock hdecorators hclause
      (by simp [StmtForm.children, Name.node])
  · obtain ⟨isAsync, start, params, parameters, returns, body, -, -, -, hclause, rfl⟩ :=
      reads_functionDef_clause hordered hfunction
    exact definition_fits hordered hblock hdecorators hclause
      (by simp [StmtForm.children, Name.node])

/-- A compound statement is one node. -/
theorem compound_fits {stmt : Stmt} (hcompound : ReadsCompound block tokens before stmt after) :
    tokens.Fits TokenKind.IsReadable before.next after.next [stmt.node] := by
  cases hcompound with
  | definition _ hreads => exact (definition_lays hordered hblock).look hreads
  | loop _ hreads => exact (forStmt_lays hordered hblock).look hreads
  | context _ hreads => exact (withStmt_lays hordered hblock).look hreads
  | conditional _ hreads => exact (ifStmt_lays hordered hblock).look hreads
  | attempt _ hreads => exact (tryStmt_lays hordered hblock).look hreads
  | whileLoop _ hreads => exact (whileStmt_lays hordered hblock).look hreads
  | cases hkind hreads =>
    have hfits := matchStmt?_fits hordered hblock hreads hkind
    exact hfits

/-! ## Blocks -/

/-- The statements of a line are nodes behind each other, whatever is nested in it. -/
theorem stmtLineOver_lays : (stmtLineOver block).LaysStmts tokens := by
  intro before stmts after hreads
  rcases reads_stmtLineOver hreads with ⟨stmt, rfl, hcompound⟩ | ⟨-, start, hstart, hsimple⟩
  · exact compound_fits hordered hblock hcompound
  · rw [← hstart]
    exact simpleStmts_lays hordered hsimple

end

/-- The statements of lines are nodes behind each other. -/
theorem stmtsOver_lays (hordered : tokens.InOrder) {line : Parser (List Stmt)} {stop : TokenKind}
    (hline : line.LaysStmts tokens) : (stmtsOver line stop).LaysStmts tokens := by
  intro before stmts after hreads
  have hlines := reads_stmtsOver hreads
  clear hreads
  induction hlines with
  | stop => exact .nil _ _ _
  | line _ _ hfirst _ ih =>
    simp only [List.map_append]
    exact (hline.look hfirst).append hordered ih

private theorem blockOver_lays (hordered : tokens.InOrder) {line : Parser (List Stmt)}
    (hline : line.LaysStmts tokens) : (blockOver line).LaysStmts tokens := by
  intro before stmts after hreads
  obtain ⟨hcolon, hrest⟩ := reads_blockOver.mp hreads
  split at hrest
  · rename_i hbreak
    obtain ⟨hindent, last, hstmts, hdedent, rfl⟩ := hrest
    have hlines := (stmtsOver_lays hordered hline hstmts).thenToken hordered hdedent (by decide)
    exact ((hlines.behindToken hordered hindent (by decide)).behindToken hordered hbreak
      (by decide)).behindToken hordered hcolon (by decide)
  · exact ((simpleStmts_lays hordered).look hrest).behindToken hordered hcolon (by decide)

/-- The statements of a block are nodes behind each other. -/
theorem blockWithin_lays (hordered : tokens.InOrder) (depth : Nat) :
    (blockWithin depth).LaysStmts tokens := by
  induction depth with
  | zero =>
    intro before stmts after hreads
    exact (reads_failNext.mp hreads).elim
  | succ depth ih => exact blockOver_lays hordered (stmtLineOver_lays hordered ih)

/-- The statements of a module are nodes behind each other. -/
theorem stmts_lays (hordered : tokens.InOrder) (stop : TokenKind) :
    (Parser.stmts stop).LaysStmts tokens :=
  stmtsOver_lays hordered (stmtLineOver_lays hordered (blockWithin_lays hordered _))

end Parser

/-- The spans of a module's tree are laminar: every node but the module itself has a span that holds
text of the source and starts and ends at character boundaries, lies within the span of its parent,
and has no byte in common with the span of a sibling. -/
theorem parseModule_laminar (source : String) (module : Module)
    (hparse : parseModule source = .ok module) : module.node.Laminar source.toList := by
  obtain ⟨body, last, hbody, -, hordered, rfl⟩ := reads_of_parseModule hparse
  have hfits := Parser.stmts_lays hordered .endOfInput hbody
  rw [Module.node, stmtNodes_eq]
  refine .mk ?_ ?_ hfits.apart ?_
  · intro child hchild
    exact (hfits.sits child hchild).isProper hordered
  · intro child hchild
    refine ⟨Nat.zero_le _, ?_⟩
    dsimp only
    rw [Text.utf8ByteSize_eq_byteLength]
    exact ((hfits.sits child hchild).isProper hordered).stop_le
  · intro child hchild
    exact (hfits.sits child hchild).1

/-- A decorated function with a parameter and an expression in its block. -/
theorem parseModule_laminar_decorated :
    ∃ module, parseModule "@d\ndef f(x):\n    return x + 1\n" = .ok module ∧
      module.node.Laminar "@d\ndef f(x):\n    return x + 1\n".toList := by
  have hparses : (parseModule "@d\ndef f(x):\n    return x + 1\n").isOk := by decide +kernel
  cases hparse : parseModule "@d\ndef f(x):\n    return x + 1\n" with
  | error failure =>
    rw [hparse] at hparses
    cases hparses
  | ok module => exact ⟨module, rfl, parseModule_laminar _ module hparse⟩

end PythonOutline
