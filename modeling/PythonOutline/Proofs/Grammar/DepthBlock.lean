import PythonOutline.Proofs.Lexer.Levels
import PythonOutline.Proofs.Parser.Inside
import PythonOutline.Proofs.Tree.LaminarStmt

/-! # How deep blocks nest

A block that stands inside another one has one more level of indentation around it, and only so
many levels are ever open. So the parser of blocks is the same for every depth that the levels of
a source do not reach: the bound on its recursion is not what ends it.
-/

namespace PythonOutline.Parser

variable {tokens : Tokens} {level : Int} {place : Place} {block block' : Parser (List Stmt)}

/-- No token but a dedent closes a level. -/
theorem keeps_atLevel : tokens.Keeps (· ≠ .dedent) (tokens.AtLevel level) := by
  intro index hlevel hkind
  have hchange := Tokens.levelChange_nonneg hkind
  rw [Tokens.AtLevel] at hlevel ⊢
  rw [Tokens.levelAt]
  omega

/-- Two parsers do the same wherever a number of levels is open, and leave so many open. -/
abbrev SameLevel {α : Type} (tokens : Tokens) (level : Int) (parser parser' : Parser α) : Prop :=
  SameInside tokens (tokens.AtLevel level) parser parser'

private theorem sameLevel_accept {kind : TokenKind} (hkind : kind ≠ .dedent) :
    SameLevel tokens level (accept kind) (accept kind) :=
  sameInside_accept keeps_atLevel hkind

private theorem sameLevel_expect {kind : TokenKind} (hkind : kind ≠ .dedent) :
    SameLevel tokens level (expect kind) (expect kind) :=
  sameInside_expect keeps_atLevel hkind

/-- What is laid out in solid tokens closes no level. -/
theorem Lays.sameLevel {α : Type} {parser : Parser α} {nodes : α → List Node}
    (hlays : parser.Lays tokens TokenKind.IsSolid nodes) :
    SameLevel tokens level parser parser :=
  hlays.sameInside keeps_atLevel fun _ hsolid => hsolid.ne (by decide)

section

variable (hordered : tokens.InOrder)

include hordered

private theorem simpleStmts_sameLevel : SameLevel tokens level simpleStmts simpleStmts := by
  intro place hplace
  refine ⟨rfl, fun stmts after hreads => ?_⟩
  obtain ⟨last, hline, rfl, hfits⟩ := simpleStmts_fits hordered hreads
  have hlast : tokens.AtLevel level last.next :=
    keeps_atLevel.run hfits.le
      (fun index hle hlt => (hfits.kinds index hle hlt).ne (by decide)) hplace
  exact keeps_atLevel.step hlast (by rw [hline]; decide)

private theorem decorators_sameLevel : SameLevel tokens level decorators decorators := by
  have hdecorator : SameLevel tokens level decorator decorator :=
    .spanned <| (sameLevel_expect (by decide)).bind fun _ =>
      (namedExpr_lays hordered).sameLevel.bind fun _ =>
        (sameLevel_expect (by decide)).bind fun _ => .pure _
  exact hdecorator.repeatWhile (sameInside_nextIs _)

/-! ## Compound statements -/

section

variable (hblock : SameLevel tokens level block block')

include hblock

omit hordered in
private theorem elseBlock_sameLevel : SameLevel tokens level (elseBlock block) (elseBlock block') :=
  (sameLevel_accept (by decide)).bind fun _ => .ite hblock (.pure _)

private theorem ifClause_sameLevel : SameLevel tokens level (ifClause block) (ifClause block') := by
  refine sameInside_mark.bind fun start place hplace => ?_
  refine .bind rfl fun token after htoken => ?_
  obtain ⟨rfl, rfl⟩ := reads_take.mp htoken
  split
  · rename_i hkind
    have hafter : tokens.AtLevel level place.step.next := keeps_atLevel.step hplace <| by
      rw [← Tokens.get_kind]
      rcases hkind with hkind | hkind <;> rw [hkind] <;> decide
    exact ((namedExpr_lays hordered).sameLevel.bind fun _ => hblock.bind fun _ => .pure _) hafter
  · exact ⟨rfl, fun _ _ hreads => by simp at hreads⟩

private theorem ifStmt_sameLevel : SameLevel tokens level (ifStmt block) (ifStmt block') := by
  have hclause := ifClause_sameLevel hordered hblock
  refine hclause.bind fun first => (sameInside_iterate ?_ _).bind ?_
  · rintro ⟨outer, last⟩
    exact (sameInside_nextIs _).bind fun _ => .ite (hclause.bind fun _ => .pure _) (.pure _)
  · rintro ⟨outer, last⟩
    exact (elseBlock_sameLevel hblock).bind fun alternate place hplace =>
      ⟨rfl, fun stmt after hreads => by cases hreads; exact hplace⟩

private theorem whileStmt_sameLevel : SameLevel tokens level (whileStmt block) (whileStmt block') :=
  .spanned <| (sameLevel_expect (by decide)).bind fun _ =>
    (namedExpr_lays hordered).sameLevel.bind fun _ => hblock.bind fun _ =>
      (elseBlock_sameLevel hblock).bind fun _ => .pure _

private theorem forStmt_sameLevel : SameLevel tokens level (forStmt block) (forStmt block') :=
  .spanned <| (sameLevel_accept (by decide)).bind fun _ =>
    (sameLevel_expect (by decide)).bind fun _ =>
      (Level.targetList_lays hordered (Level.outermost_lays hordered)).sameLevel.bind fun _ =>
        (sameLevel_expect (by decide)).bind fun _ =>
          (starExprs_lays hordered).sameLevel.bind fun _ => hblock.bind fun _ =>
            (elseBlock_sameLevel hblock).bind fun _ => .pure _

private theorem handler_sameAt (hplace : tokens.AtLevel level place.next)
    (hkind : tokens.kindAt place = .keywordExcept) :
    SameAt tokens (tokens.AtLevel level) (handler block) (handler block') place := by
  refine .bind rfl fun start before hstart => .bind rfl fun token after htoken => ?_
  obtain ⟨-, rfl⟩ := reads_mark.mp hstart
  obtain ⟨-, rfl⟩ := reads_take.mp htoken
  have hafter : tokens.AtLevel level before.step.next :=
    keeps_atLevel.step hplace (by rw [hkind]; decide)
  refine ((sameLevel_accept (by decide)).bind fun star => (sameInside_nextIs _).bind fun _ =>
    .iteBind (.pure _) (.map _ (expr_lays hordered).sameLevel) fun exception => ?_) hafter
  exact .iteBind (boundName_lays hordered).sameLevel (.pure _) fun _ => hblock.bind fun _ =>
    sameInside_since _

private theorem tryStmt_sameLevel : SameLevel tokens level (tryStmt block) (tryStmt block') := by
  refine .spanned <| (sameLevel_expect (by decide)).bind fun _ => hblock.bind fun body =>
    (sameInside_repeatWhile (sameInside_nextIs _) ?_).bind fun handlers => ?_
  · intro before start hbefore hreads
    obtain ⟨hkind, rfl⟩ := reads_nextIs.mp hreads
    exact handler_sameAt hordered hblock hbefore (by simpa using hkind)
  · refine .ite ((sameInside_expectOr keeps_atLevel (by decide) _).bind fun _ =>
      hblock.bind fun _ => .pure _) ?_
    exact (elseBlock_sameLevel hblock).bind fun _ => (sameLevel_accept (by decide)).bind fun _ =>
      .iteBind hblock (.pure _) fun _ => .pure _

private theorem withStmt_sameLevel : SameLevel tokens level (withStmt block) (withStmt block') :=
  .spanned <| (sameLevel_accept (by decide)).bind fun _ =>
    (sameLevel_expect (by decide)).bind fun _ =>
      (withItems_lays hordered).sameLevel.bind fun _ => hblock.bind fun _ => .pure _

private theorem matchCase_sameAt (hplace : tokens.AtLevel level place.next)
    (hkind : tokens.kindAt place = .identifier) :
    SameAt tokens (tokens.AtLevel level) (matchCase block) (matchCase block') place := by
  have hpattern : casePattern.Lays tokens TokenKind.IsSolid fun _ => [] := by
    intro before pattern after hreads
    obtain ⟨span, hspan, -⟩ := reads_casePattern.mp hreads
    obtain ⟨hle, hkinds⟩ := reads_patternSpan? hspan
    exact ⟨hle, hkinds, by simp, .nil⟩
  have hguard : (ifAccepted .keywordIf namedExpr).Lays tokens TokenKind.IsSolid fun guard =>
      guard.toList.map Expr.node :=
    (namedExpr_lays hordered).ifAccepted hordered (by decide)
  refine .spanned <| .bind rfl fun token after htoken => ?_
  obtain ⟨-, rfl⟩ := reads_take.mp htoken
  exact (hpattern.sameLevel.bind fun _ => hguard.sameLevel.bind fun _ => hblock.bind fun _ =>
    .pure _) (keeps_atLevel.step hplace (by rw [hkind]; decide))

private theorem classDef_sameLevel (decorators : List Decorator) :
    SameLevel tokens level (classDef block decorators) (classDef block' decorators) := by
  have hname : SameLevel tokens level definedName definedName :=
    .spanned <| lays_identifier.sameLevel.bind fun _ => .pure _
  exact (sameLevel_expect (by decide)).bind fun _ => hname.bind fun _ =>
    (typeParams_lays hordered).sameLevel.bind fun _ => (sameLevel_accept (by decide)).bind fun _ =>
      .iteBind (Level.arguments_lays hordered (Level.outermost_lays hordered)).sameLevel (.pure _)
        fun _ => hblock.bind fun _ => .pure _

private theorem functionDef_sameLevel (decorators : List Decorator) :
    SameLevel tokens level (functionDef block decorators) (functionDef block' decorators) := by
  have hname : SameLevel tokens level definedName definedName :=
    .spanned <| lays_identifier.sameLevel.bind fun _ => .pure _
  have hreturns : (ifAccepted .hyphenChevronRight expr).Lays tokens TokenKind.IsSolid fun returns =>
      returns.toList.map Expr.node :=
    (expr_lays hordered).ifAccepted hordered (by decide)
  exact (sameLevel_accept (by decide)).bind fun _ => (sameLevel_expect (by decide)).bind fun _ =>
    hname.bind fun _ => (typeParams_lays hordered).sameLevel.bind fun _ =>
      (sameLevel_expect (by decide)).bind fun _ =>
        (Level.params_lays hordered (Level.outermost_lays hordered) (by decide)).sameLevel.bind
          fun _ => hreturns.sameLevel.bind fun _ => hblock.bind fun _ => .pure _

private theorem definition_sameLevel :
    SameLevel tokens level (definition block) (definition block') := by
  refine .spanned <| (decorators_sameLevel hordered).bind fun decorators =>
    sameInside_peek.bind fun token => ?_
  split
  · exact (classDef_sameLevel hordered hblock decorators).bind fun _ => .pure _
  · exact (functionDef_sameLevel hordered hblock decorators).bind fun _ => .pure _
  · exact (functionDef_sameLevel hordered hblock decorators).bind fun _ => .pure _
  · exact .throw

end

/-! ## Matches -/

/-- The cases of a match statement stand one level inside it. -/
theorem matchSubject?_inside {subject : Expr} {after : Place}
    (hplace : tokens.AtLevel level place.next) (hkind : tokens.kindAt place = .identifier)
    (hreads : matchSubject?.Reads tokens place (some subject) after) :
    tokens.AtLevel (level + 1) after.next := by
  obtain ⟨last, hsubject, hcolon, hline, hindent, -, rfl⟩ := reads_matchSubject?.mp hreads
  have hstart : tokens.AtLevel level place.step.next :=
    keeps_atLevel.step hplace (by rw [hkind]; decide)
  have hlays := Level.starNamedExprs_lays hordered (Level.outermost_lays hordered)
  have hlast : tokens.AtLevel level last.next := (hlays.sameLevel hstart).2 hsubject
  have hcolon := keeps_atLevel.step hlast (by rw [hcolon]; decide)
  have hline := keeps_atLevel.step hcolon (by rw [hline]; decide)
  exact hline.indent hindent

private theorem matchStmt?_sameAt (hblock : SameLevel tokens (level + 1) block block')
    (hplace : tokens.AtLevel level place.next) (hkind : tokens.kindAt place = .identifier) :
    SameAt tokens (tokens.AtLevel level) (matchStmt? block) (matchStmt? block') place := by
  refine .bind rfl fun start before hstart => .bind rfl fun subject? middle hsubject => ?_
  obtain ⟨-, rfl⟩ := reads_mark.mp hstart
  cases subject? with
  | none =>
    refine SameInside.pure _ ?_
    rw [reads_attempt_none hsubject]
    exact hplace
  | some subject =>
    have hcases : SameLevel tokens (level + 1) (repeatWhile (nextIsWord "case") (matchCase block))
        (repeatWhile (nextIsWord "case") (matchCase block')) := by
      refine sameInside_repeatWhile
        (sameInside_of_stays fun _ _ _ hreads => by rw [(reads_nextIsWord.mp hreads).2]; rfl) ?_
      intro before start hbefore hstart
      obtain ⟨hword, rfl⟩ := reads_nextIsWord.mp hstart
      exact matchCase_sameAt hordered hblock hbefore (kind_of_isWord hword.symm)
    have hmiddle := matchSubject?_inside hordered hplace hkind hsubject
    refine .bind (hcases hmiddle).1 fun cases last hreads => .bind rfl fun token after htoken => ?_
    obtain ⟨hdedent, -, rfl⟩ := reads_expect.mp htoken
    have hlast : tokens.AtLevel (level + 1) last.next := (hcases hmiddle).2 hreads
    exact sameInside_since start (hlast.dedent hdedent)

/-! ## Blocks -/

/-- A block that nests a number of blocks, the innermost of which another parser reads. -/
def blockNesting (innermost : Parser (List Stmt)) : (depth : Nat) → Parser (List Stmt)
  | 0 => innermost
  | depth + 1 => blockOver (stmtLineOver (blockNesting innermost depth))

omit hordered in
private theorem blockNesting_failNext (depth : Nat) :
    blockNesting (failNext .nestingTooDeep) depth = blockWithin depth := by
  induction depth with
  | zero => rfl
  | succ depth ih => rw [blockNesting, blockWithin, ih]

/-- Lines are the same inside a level if their blocks are, also those that stand inside a match
statement. -/
theorem stmtLineOver_sameLevel (hblock : SameLevel tokens level block block')
    (hinner : SameLevel tokens (level + 1) block block') :
    SameLevel tokens level (stmtLineOver block) (stmtLineOver block') := by
  have hone : ∀ {parser parser' : Parser Stmt}, SameLevel tokens level parser parser' →
      SameLevel tokens level (parser >>= fun stmt => pure [stmt])
        (parser' >>= fun stmt => pure [stmt]) :=
    fun hparser => hparser.bind fun _ => .pure _
  intro place hplace
  refine .bind rfl fun pair middle hpair => ?_
  obtain ⟨rfl, rfl⟩ := reads_peekTwo.mp hpair
  have hmiddle : tokens.AtLevel level (place.look 1).next := hplace
  dsimp only
  split
  case h_1 | h_2 | h_3 => exact hone (definition_sameLevel hordered hblock) hmiddle
  case h_4 =>
    split
    · exact hone (definition_sameLevel hordered hblock) hmiddle
    · exact hone (forStmt_sameLevel hordered hblock) hmiddle
    · exact hone (withStmt_sameLevel hordered hblock) hmiddle
    · exact SameInside.throw hmiddle
  case h_5 => exact hone (forStmt_sameLevel hordered hblock) hmiddle
  case h_6 => exact hone (ifStmt_sameLevel hordered hblock) hmiddle
  case h_7 => exact hone (tryStmt_sameLevel hordered hblock) hmiddle
  case h_8 => exact hone (whileStmt_sameLevel hordered hblock) hmiddle
  case h_9 => exact hone (withStmt_sameLevel hordered hblock) hmiddle
  case h_10 hkind =>
    split
    · have hmatch := matchStmt?_sameAt hordered hinner hmiddle hkind
      refine hmatch.andThen fun stmt? => ?_
      cases stmt? with
      | some stmt => exact .pure _
      | none => exact simpleStmts_sameLevel hordered
    · exact simpleStmts_sameLevel hordered hmiddle
  case h_11 => exact simpleStmts_sameLevel hordered hmiddle

omit hordered in
/-- Statements up to a stop depend on the lines that they are made of only. -/
theorem stmtsOver_sameLevel {line line' : Parser (List Stmt)}
    (hline : SameLevel tokens level line line') (stop : TokenKind) :
    SameLevel tokens level (stmtsOver line stop) (stmtsOver line' stop) :=
  sameInside_iterate (fun _ => sameInside_peek.bind fun _ => .ite (.pure _) <| .ite .throw <|
    hline.bind fun _ => .pure _) _

/-- The lines of a block are one level deeper than what is around it. -/
theorem blockOver_sameLevel {line line' : Parser (List Stmt)}
    (hline : SameLevel tokens (level + 1) line line') :
    SameLevel tokens level (blockOver line) (blockOver line') := by
  refine (sameLevel_expect (by decide)).bind fun _ => (sameLevel_accept (by decide)).bind fun _ =>
    .ite ?_ (simpleStmts_sameLevel hordered)
  intro place hplace
  refine .bind rfl fun _ start hstart => ?_
  obtain ⟨hindent, rfl⟩ := reads_expectOr.mp hstart
  have hstart : tokens.AtLevel (level + 1) place.step.next :=
    Tokens.AtLevel.indent hplace hindent
  have hbody := stmtsOver_sameLevel hline .dedent hstart
  refine .bind hbody.1 fun body last hreads => .bind rfl fun token after htoken => ?_
  obtain ⟨hdedent, -, rfl⟩ := reads_expect.mp htoken
  exact SameInside.pure _ ((hbody.2 hreads).dedent hdedent)

/-- Blocks that nest deeper than there are levels are the same, whatever reads the innermost
ones. -/
theorem blockNesting_sameLevel {innermost innermost' : Parser (List Stmt)} {depth depth' : Nat}
    (hdepth : ∀ index, tokens.levelAt index < level + depth)
    (hdepth' : ∀ index, tokens.levelAt index < level + depth') :
    SameLevel tokens level (blockNesting innermost depth)
      (blockNesting innermost' depth') := by
  -- The lines of a block stand one level further in, and those of a match are two levels further in.
  induction depth generalizing depth' level with
  | zero =>
    intro place hplace
    have hlt := hdepth place.next
    exact absurd hplace (by unfold Tokens.AtLevel; omega)
  | succ depth ih =>
    cases depth' with
    | zero =>
      intro place hplace
      have hlt := hdepth' place.next
      exact absurd hplace (by unfold Tokens.AtLevel; omega)
    | succ depth' =>
      have hinner : ∀ {inner : Int}, level + 1 ≤ inner →
          SameLevel tokens inner (blockNesting innermost depth)
            (blockNesting innermost' depth') := by
        intro inner hle
        refine ih (fun index => ?_) fun index => ?_
        · have hlt := hdepth index
          omega
        · have hlt := hdepth' index
          omega
      exact blockOver_sameLevel hordered
        (stmtLineOver_sameLevel hordered (hinner (Int.le_refl _)) (hinner (by omega)))

end

/-- A module whose blocks nest a number of blocks, the innermost of which another parser reads. -/
def moduleNesting (innermost : Parser (List Stmt)) (depth : Nat) : Parser Module := do
  let body ← stmtsOver (stmtLineOver (blockNesting innermost depth)) .endOfInput
  let _ ← expect .endOfInput
  return ⟨⟨0, (← read).size⟩, body⟩

/-- The module of the grammar is the one whose innermost blocks are refused. -/
theorem moduleNesting_failNext :
    moduleNesting (failNext .nestingTooDeep) maxIndentLevels = module := by
  rw [moduleNesting, blockNesting_failNext]
  rfl

/-- Modules whose blocks nest deeper than there are levels are the same, whatever reads the
innermost blocks. -/
theorem moduleNesting_eq (hordered : tokens.InOrder) {innermost innermost' : Parser (List Stmt)}
    {depth depth' : Nat} (hdepth : ∀ index, tokens.levelAt index < depth)
    (hdepth' : ∀ index, tokens.levelAt index < depth') :
    moduleNesting innermost' depth' tokens .start =
      moduleNesting innermost depth tokens .start := by
  have hblock : ∀ {level : Int}, 0 ≤ level → SameLevel tokens level
      (blockNesting innermost depth) (blockNesting innermost' depth') := by
    intro level hlevel
    refine blockNesting_sameLevel hordered (fun index => ?_) fun index => ?_
    · have hlt := hdepth index
      omega
    · have hlt := hdepth' index
      omega
  have hstart : tokens.AtLevel 0 Place.start.next := Int.le_refl _
  have hline := stmtLineOver_sameLevel hordered (hblock (Int.le_refl 0)) (hblock (by decide))
  have hbody := stmtsOver_sameLevel hline .endOfInput hstart
  rw [moduleNesting, moduleNesting, bind_apply, bind_apply, hbody.1]

end PythonOutline.Parser
