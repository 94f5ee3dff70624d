import PythonOutline.Parser.Module
import PythonOutline.Proofs.Grammar.ParallelDisplay

/-! # Statements side by side

From token sequences that are alike, every statement is read with the same shape, and so is the
whole module. -/

namespace PythonOutline.Parser

variable {like : Likeness} {tokens tokens' : Tokens}

/-- A parser reads statements of one shape from two token sequences. -/
abbrev ParallelStmts (parser : Parser (List Stmt)) (like : Likeness) (tokens tokens' : Tokens) :
    Prop :=
  Parallel tokens tokens' (List.Forall₂ (Stmt.Alike like)) parser parser

/-- A parser reads a statement of one shape from two token sequences. -/
abbrev ParallelStmt (parser : Parser Stmt) (like : Likeness) (tokens tokens' : Tokens) : Prop :=
  Parallel tokens tokens' (Stmt.Alike like) parser parser

section

variable (halike : tokens.Alike like tokens')

include halike

theorem expr_parallel : expr.ParallelExpr like tokens tokens' :=
  Level.expr_parallel halike (Level.outermost_parallel halike)

theorem namedExpr_parallel : namedExpr.ParallelExpr like tokens tokens' :=
  Level.namedExpr_parallel halike (Level.outermost_parallel halike)

theorem starExprs_parallel : starExprs.ParallelExpr like tokens tokens' :=
  Level.starExprs_parallel halike (Level.outermost_parallel halike)

theorem yieldOrStarExprs_parallel : yieldOrStarExprs.ParallelExpr like tokens tokens' :=
  Level.yieldOrStarExprs_parallel halike (Level.outermost_parallel halike)

theorem target_parallel : Level.outermost.target.ParallelExpr like tokens tokens' :=
  Level.target_parallel halike (Level.outermost_parallel halike)

/-! ## Imports -/

omit halike in
/-- Names that are read one by one are the same. -/
theorem names_parallel {names : Parser (List String)}
    (hnames : Parallel tokens tokens' (List.Forall₂ Eq) names names) :
    Parallel tokens tokens' Eq names names :=
  hnames.mono fun _ _ hnames => by rwa [List.forall₂_eq_eq_eq] at hnames

private theorem dottedName_parallel : Parallel tokens tokens' Eq dottedName dottedName :=
  (parallel_identifier halike).bindEq fun _ =>
    (names_parallel (parallel_repeatWhile halike (parallel_accept halike .dot)
      (parallel_identifier halike))).bindEq fun _ => .pure rfl

private theorem boundName_parallel :
    Parallel tokens tokens' Eq (ifAccepted .keywordAs identifier)
      (ifAccepted .keywordAs identifier) :=
  (parallel_ifAccepted halike .keywordAs (parallel_identifier halike)).mono fun _ _ hname => by
    cases hname with
    | some hname => rw [hname]
    | none => rfl

private theorem importAlias_parallel {name : Parser String}
    (hname : Parallel tokens tokens' Eq name name) :
    Parallel tokens tokens' (ImportAlias.Alike like) (importAlias name) (importAlias name) :=
  parallel_spanned halike <| hname.bindEq fun _ => (boundName_parallel halike).bindEq fun _ =>
    .pure fun hspan => .mk hspan

private theorem importModules_parallel : importModules.ParallelStmt like tokens tokens' :=
  parallel_spanned halike <| (parallel_expect halike .keywordImport).bind fun _ _ _ =>
    (parallel_commaSeparated halike (importAlias_parallel halike (dottedName_parallel halike))).bind
      fun _ _ hnames => .pure fun hspan => .mk hspan (.importModules hnames)

private theorem leadingDots_parallel : Parallel tokens tokens' Eq leadingDots leadingDots := by
  refine parallel_iterate halike Eq rfl fun hlevel => ?_
  subst hlevel
  exact (parallel_accept halike .dot).bindEq fun _ => .ite (.pure (.next rfl)) <|
    (parallel_accept halike .dotDotDot).bindEq fun _ =>
      .ite (.pure (.next rfl)) (.pure (.done rfl))

omit halike in
/-- Lists of one shape are both empty or none is. -/
theorem isEmpty_eq {α : Type} {related : α → α → Prop} {items items' : List α}
    (hitems : List.Forall₂ related items items') : items'.isEmpty = items.isEmpty := by
  cases hitems <;> rfl

private theorem importedNames_parallel :
    Parallel tokens tokens' (ImportedNames.Alike like) importedNames importedNames := by
  have hname := importAlias_parallel halike (parallel_identifier halike)
  refine (parallel_accept halike .asterisk).bindEq fun _ => .ite (.pure .all) <|
    (parallel_accept halike .parenthesisOpen).bindEq fun _ => .ite
      ((parallel_listUntil halike .parenthesisClose hname).bind fun names names' hnames => ?_)
      ((parallel_commaSeparated halike hname).bind fun _ _ hnames => .pure (.specific hnames))
  rw [isEmpty_eq hnames]
  exact .check halike (.pure (.specific hnames))

private theorem importFrom_parallel : importFrom.ParallelStmt like tokens tokens' := by
  refine parallel_spanned halike <| (parallel_expect halike .keywordFrom).bind fun _ _ _ =>
    (leadingDots_parallel halike).bindEq fun level => (parallel_nextIs halike .identifier).bindEq
      fun _ => .iteBind Eq (.map (dottedName_parallel halike) ?_) (.pure rfl) ?_
  · rintro name _ rfl
    rfl
  · rintro module _ rfl
    exact .check halike <| (parallel_expect halike .keywordImport).bind fun _ _ _ =>
      (importedNames_parallel halike).bind fun _ _ hnames =>
        .pure fun hspan => .mk hspan (.importFrom hnames)

/-! ## Simple statements -/

private theorem typeParamKind_parallel : Parallel tokens tokens' Eq typeParamKind typeParamKind :=
  (parallel_accept halike .asterisk).bindEq fun _ => .ite (.pure rfl) <|
    (parallel_accept halike .asteriskAsterisk).bindEq fun _ => .ite (.pure rfl) (.pure rfl)

private theorem typeParam_parallel :
    Parallel tokens tokens' (TypeParam.Alike like) typeParam typeParam :=
  parallel_spanned halike <| (typeParamKind_parallel halike).bindEq fun _ =>
    (parallel_identifier halike).bindEq fun _ =>
      .iteBind _ (parallel_ifAccepted halike .colon (expr_parallel halike)) (.pure .none)
        fun _ _ hbound => (parallel_ifAccepted halike .equals
          (Level.starExpr_parallel halike (Level.outermost_parallel halike))).bind
          fun _ _ hdefault => .pure fun hspan => .mk hspan hbound hdefault

private theorem typeParams_parallel :
    Parallel tokens tokens' (List.Forall₂ (TypeParam.Alike like)) typeParams typeParams := by
  refine (parallel_accept halike .bracketOpen).bindEq fun _ => .ite
    ((parallel_listUntil halike .bracketClose (typeParam_parallel halike)).bind
      fun params params' hparams => ?_) (.pure .nil)
  rw [isEmpty_eq hparams]
  exact .check halike (.pure hparams)

private theorem assertStmt_parallel : assertStmt.ParallelStmt like tokens tokens' :=
  parallel_spanned halike <| (parallel_expect halike .keywordAssert).bind fun _ _ _ =>
    (expr_parallel halike).bind fun _ _ htest =>
      (parallel_ifAccepted halike .comma (expr_parallel halike)).bind fun _ _ hmessage =>
        .pure fun hspan => .mk hspan (.assert htest hmessage)

private theorem deleteStmt_parallel : deleteStmt.ParallelStmt like tokens tokens' := by
  refine parallel_spanned halike <| (parallel_expect halike .keywordDel).bind fun _ _ _ =>
    (target_parallel halike).bind fun first first' hfirst =>
      .bindBy (List.Forall₂ (Expr.Alike like)) ?_ fun _ _ htargets =>
        .pure fun hspan => .mk hspan (.delete htargets)
  exact parallel_iterate halike (List.Forall₂ (Expr.Alike like)) (.cons hfirst .nil)
    fun htargets => (parallel_accept halike .comma).bindEq fun _ =>
      .ite ((parallel_peekKind halike).bindEq fun _ =>
        .ite ((target_parallel halike).bind fun _ _ htarget =>
          .pure (.next (.cons htarget htargets)))
          (.pure (.done (List.forall₂_reverse_iff.mpr htargets))))
        (.pure (.done (List.forall₂_reverse_iff.mpr htargets)))

private theorem raiseStmt_parallel : raiseStmt.ParallelStmt like tokens tokens' :=
  parallel_spanned halike <| (parallel_expect halike .keywordRaise).bind fun _ _ _ =>
    (parallel_peekKind halike).bindEq fun _ =>
      .ite ((expr_parallel halike).bind fun _ _ hexception =>
        (parallel_ifAccepted halike .keywordFrom (expr_parallel halike)).bind fun _ _ hcause =>
          .pure fun hspan => .mk hspan (.raise (.some hexception) hcause))
        (.pure fun hspan => .mk hspan (.raise .none .none))

private theorem returnStmt_parallel : returnStmt.ParallelStmt like tokens tokens' :=
  parallel_spanned halike <| (parallel_expect halike .keywordReturn).bind fun _ _ _ =>
    (parallel_peekKind halike).bindEq fun _ =>
      .ite ((starExprs_parallel halike).bind fun _ _ hvalue =>
        .pure fun hspan => .mk hspan (.return (.some hvalue)))
        (.pure fun hspan => .mk hspan (.return .none))

private theorem typeAliasStmt_parallel : typeAliasStmt.ParallelStmt like tokens tokens' :=
  parallel_spanned halike <| (parallel_take halike).bind fun _ _ _ =>
    (parallel_identifier halike).bindEq fun _ => (typeParams_parallel halike).bind fun _ _ hparams =>
      (parallel_expect halike .equals).bind fun _ _ _ => (expr_parallel halike).bind fun _ _ hvalue =>
        .pure fun hspan => .mk hspan (.typeAlias hparams hvalue)

private theorem keywordStmt_parallel {form : StmtForm} (hform : form.Alike like form) :
    (keywordStmt form).ParallelStmt like tokens tokens' :=
  parallel_spanned halike <| (parallel_take halike).bind fun _ _ _ =>
    .pure fun hspan => .mk hspan hform

private theorem namesStmt_parallel {form : List String → StmtForm}
    (hform : ∀ names, (form names).Alike like (form names)) :
    (namesStmt form).ParallelStmt like tokens tokens' :=
  parallel_spanned halike <| (parallel_take halike).bind fun _ _ _ =>
    (names_parallel (parallel_commaSeparated halike (parallel_identifier halike))).bindEq
      fun names => .pure fun hspan => .mk hspan (hform names)

omit halike in
private theorem checkSingleTarget_parallel {target target' : Expr}
    (htarget : target.Alike like target') :
    Parallel tokens tokens' Eq (checkSingleTarget target) (checkSingleTarget target') := by
  rw [checkSingleTarget, checkSingleTarget, htarget.isSingleTarget_eq]
  exact .ite (.pure rfl) .throw

private theorem assignedValues_parallel {first first' : Expr} (hfirst : first.Alike like first') :
    Parallel tokens tokens'
      (fun values values' => List.Forall₂ (Expr.Alike like) values.1 values'.1 ∧
        values.2.Alike like values'.2) (assignedValues first) (assignedValues first') :=
  parallel_iterate halike
    (fun values values' => List.Forall₂ (Expr.Alike like) values.1 values'.1 ∧
      values.2.Alike like values'.2)
    ⟨.nil, hfirst⟩ fun hvalues => (parallel_accept halike .equals).bindEq fun _ =>
      .ite ((yieldOrStarExprs_parallel halike).bind fun _ _ hnext =>
        .pure (.next ⟨.cons hvalues.2 hvalues.1, hnext⟩))
        (.pure (.done ⟨List.forall₂_reverse_iff.mpr hvalues.1, hvalues.2⟩))

omit halike in
/-- Whether a target cannot be assigned to depends on the shape of the targets only. -/
theorem findInvalid_alike {targets targets' : List Expr}
    (htargets : List.Forall₂ (Expr.Alike like) targets targets') :
    Option.Rel (fun _ _ => True) (targets.find? fun target => !target.isTarget)
      (targets'.find? fun target => !target.isTarget) := by
  induction htargets with
  | nil => exact .none
  | cons htarget _ ih =>
    rw [List.find?_cons, List.find?_cons, htarget.isTarget_eq]
    split
    · exact .some trivial
    · exact ih

private theorem expressionStmt_parallel : expressionStmt.ParallelStmt like tokens tokens' := by
  refine parallel_spanned halike <| (yieldOrStarExprs_parallel halike).bind
    fun first first' hfirst => (parallel_peekKind halike).bindEq fun kind => .ite ?_ ?_
  · exact (parallel_take halike).bind fun _ _ _ => (checkSingleTarget_parallel hfirst).bindEq fun _ =>
      (expr_parallel halike).bind fun _ _ hhint =>
        (parallel_ifAccepted halike .equals (yieldOrStarExprs_parallel halike)).bind
          fun _ _ hvalue => .pure fun hspan => .mk hspan (.annotate hfirst hhint hvalue)
  split
  · exact (parallel_take halike).bind fun _ _ _ => (checkSingleTarget_parallel hfirst).bindEq fun _ =>
      (yieldOrStarExprs_parallel halike).bind fun _ _ hvalue =>
        .pure fun hspan => .mk hspan (.augment hfirst hvalue)
  refine .ite ((assignedValues_parallel halike hfirst).bind ?_)
    (.pure fun hspan => .mk hspan (.expression hfirst))
  rintro ⟨targets, value⟩ ⟨targets', value'⟩ ⟨htargets, hvalue⟩
  have hinvalid := findInvalid_alike htargets
  dsimp only
  generalize (targets.find? _) = invalid, (targets'.find? _) = invalid' at hinvalid ⊢
  cases hinvalid with
  | some => exact .throw
  | none => exact .pure fun hspan => .mk hspan (.assign htargets hvalue)

private theorem simpleStmt_parallel : simpleStmt.ParallelStmt like tokens tokens' := by
  refine .peekThree halike fun {first first' second second' third third'} hfirst hsecond hthird => ?_
  dsimp only
  rw [hfirst.kind_eq]
  split
  case h_1 => exact assertStmt_parallel halike
  case h_2 => exact keywordStmt_parallel halike .break
  case h_3 => exact keywordStmt_parallel halike .continue
  case h_4 => exact deleteStmt_parallel halike
  case h_5 => exact importFrom_parallel halike
  case h_6 => exact namesStmt_parallel halike fun _ => .global
  case h_7 => exact importModules_parallel halike
  case h_8 => exact namesStmt_parallel halike fun _ => .nonlocal
  case h_9 => exact keywordStmt_parallel halike .pass
  case h_10 => exact raiseStmt_parallel halike
  case h_11 => exact returnStmt_parallel halike
  case h_12 hkind =>
    have hstarts : startsTypeAlias first' second' third' = startsTypeAlias first second third := by
      rw [startsTypeAlias, startsTypeAlias, hsecond.kind_eq, hthird.kind_eq,
        hfirst.text_eq (.inl hkind)]
    rw [hstarts]
    exact .ite (typeAliasStmt_parallel halike) (expressionStmt_parallel halike)
  case h_13 => exact expressionStmt_parallel halike

private theorem simpleStmts_parallel : simpleStmts.ParallelStmts like tokens tokens' := by
  refine (simpleStmt_parallel halike).bind fun first first' hfirst =>
    .bindBy (List.Forall₂ (Stmt.Alike like)) ?_ fun _ _ hstmts =>
      (parallel_expect halike .newline).bind fun _ _ _ => .pure hstmts
  exact parallel_iterate halike (List.Forall₂ (Stmt.Alike like)) (.cons hfirst .nil)
    fun hstmts => (parallel_accept halike .semicolon).bindEq fun _ =>
      .ite ((parallel_nextIs halike .newline).bindEq fun _ =>
        .ite (.pure (.done (List.forall₂_reverse_iff.mpr hstmts)))
          ((simpleStmt_parallel halike).bind fun _ _ hstmt => .pure (.next (.cons hstmt hstmts))))
        (.pure (.done (List.forall₂_reverse_iff.mpr hstmts)))

/-! ## Compound statements -/

omit halike in
/-- Two clauses of conditional statements are of one shape. -/
inductive IfClause.Alike (like : Likeness) : IfClause → IfClause → Prop
  | mk {start : Nat} {test test' : Expr} {body body' : List Stmt} (htest : test.Alike like test')
      (hbody : List.Forall₂ (Stmt.Alike like) body body') :
    IfClause.Alike like ⟨start, test, body⟩ ⟨start, test', body'⟩

variable {block : Parser (List Stmt)} (hblock : block.ParallelStmts like tokens tokens')

include hblock

private theorem elseBlock_parallel : (elseBlock block).ParallelStmts like tokens tokens' :=
  (parallel_accept halike .keywordElse).bindEq fun _ => .ite hblock (.pure .nil)

private theorem ifClause_parallel :
    Parallel tokens tokens' (IfClause.Alike like) (ifClause block) (ifClause block) := by
  refine parallel_mark.bindEq fun start => (parallel_take halike).bind fun token token' htoken => ?_
  rw [htoken.kind_eq]
  exact .ite ((namedExpr_parallel halike).bind fun _ _ htest => hblock.bind fun _ _ hbody =>
    .pure (.mk htest hbody)) .throwBind

omit hblock in
/-- A chain of clauses around a statement. -/
theorem closeClauses_alike (stop : Nat) {outer outer' : List IfClause} {inner inner' : Stmt}
    (houter : List.Forall₂ (IfClause.Alike like) outer outer') (hinner : inner.Alike like inner') :
    (outer.foldl (fun inner clause => ⟨tokens.spanBetween clause.start stop,
        .conditional clause.test clause.body [inner]⟩) inner).Alike like
      (outer'.foldl (fun inner clause => ⟨tokens'.spanBetween clause.start stop,
        .conditional clause.test clause.body [inner]⟩) inner') := by
  induction houter generalizing inner inner' with
  | nil => exact hinner
  | cons hclause _ ih =>
    obtain ⟨htest, hbody⟩ := hclause
    exact ih (.mk (halike.span _ _) (.conditional htest hbody (.cons hinner .nil)))

private theorem ifStmt_parallel : (ifStmt block).ParallelStmt like tokens tokens' := by
  let Clauses (clauses clauses' : List IfClause × IfClause) : Prop :=
    List.Forall₂ (IfClause.Alike like) clauses.1 clauses'.1 ∧ clauses.2.Alike like clauses'.2
  refine (ifClause_parallel halike hblock).bind fun first first' hfirst =>
    .bindBy Clauses (parallel_iterate halike Clauses ⟨.nil, hfirst⟩ fun hclauses =>
      (parallel_nextIs halike .keywordElif).bindEq fun _ =>
        .ite ((ifClause_parallel halike hblock).bind fun _ _ hclause =>
          .pure (.next ⟨.cons hclauses.2 hclauses.1, hclause⟩)) (.pure (.done hclauses))) ?_
  rintro ⟨outer, last⟩ ⟨outer', last'⟩ ⟨houter, hlast⟩
  refine (elseBlock_parallel halike hblock).bind fun alternate alternate' halternate place =>
    ⟨closeClauses_alike halike place.next houter ?_, rfl⟩
  obtain ⟨htest, hbody⟩ := hlast
  exact .mk (halike.span _ _) (.conditional htest hbody halternate)

private theorem whileStmt_parallel : (whileStmt block).ParallelStmt like tokens tokens' :=
  parallel_spanned halike <| (parallel_expect halike .keywordWhile).bind fun _ _ _ =>
    (namedExpr_parallel halike).bind fun _ _ htest => hblock.bind fun _ _ hbody =>
      (elseBlock_parallel halike hblock).bind fun _ _ horElse =>
        .pure fun hspan => .mk hspan (.whileLoop htest hbody horElse)

private theorem forStmt_parallel : (forStmt block).ParallelStmt like tokens tokens' :=
  parallel_spanned halike <| (parallel_accept halike .keywordAsync).bindEq fun _ =>
    (parallel_expect halike .keywordFor).bind fun _ _ _ =>
      (Level.targetList_parallel halike (Level.outermost_parallel halike)).bind fun _ _ htarget =>
        (parallel_expect halike .keywordIn).bind fun _ _ _ =>
          (starExprs_parallel halike).bind fun _ _ hiterable => hblock.bind fun _ _ hbody =>
            (elseBlock_parallel halike hblock).bind fun _ _ horElse =>
              .pure fun hspan => .mk hspan (.forLoop htarget hiterable hbody horElse)

private theorem handler_parallel :
    Parallel tokens tokens'
      (fun handled handled' => handled.1.Alike like handled'.1 ∧ handled'.2 = handled.2)
      (handler block) (handler block) := by
  refine parallel_mark.bindEq fun start => (parallel_take halike).bind fun _ _ _ =>
    (parallel_accept halike .asterisk).bindEq fun star =>
      (parallel_nextIs halike .colon).bindEq fun _ =>
        .iteBind (Option.Rel (Expr.Alike like)) (.pure .none)
          (.map (expr_parallel halike) fun _ _ hvalue => .some hvalue)
          fun exception exception' hexception => ?_
  have hrest : ∀ name, Parallel tokens tokens'
      (fun handled handled' => handled.1.Alike like handled'.1 ∧ handled'.2 = handled.2)
      (block >>= fun body => spanSince start >>= fun span =>
        pure ((⟨span, exception, name, body⟩ : Handler), star))
      (block >>= fun body => spanSince start >>= fun span =>
        pure ((⟨span, exception', name, body⟩ : Handler), star)) :=
    fun _ => hblock.bind fun _ _ hbody => (parallel_spanSince halike start).bind fun _ _ hspan =>
      .pure ⟨.mk hspan hexception hbody, rfl⟩
  cases hexception with
  | some => exact (boundName_parallel halike).bindEq hrest
  | none => exact hrest none

private theorem tryStmt_parallel : (tryStmt block).ParallelStmt like tokens tokens' := by
  refine parallel_spanned halike <| (parallel_expect halike .keywordTry).bind fun _ _ _ =>
    hblock.bind fun body body' hbody => (parallel_repeatWhile halike
      (parallel_nextIs halike .keywordExcept) (handler_parallel halike hblock)).bind
      fun handled handled' hhandled => ?_
  have hstar : handled'.any Prod.snd = handled.any Prod.snd := by
    induction hhandled with
    | nil => rfl
    | cons hfirst _ ih => rw [List.any_cons, List.any_cons, hfirst.2, ih]
  have hhandlers : List.Forall₂ (Handler.Alike like) (handled.map Prod.fst)
      (handled'.map Prod.fst) :=
    List.forall₂_map_left_iff.mpr
      (List.forall₂_map_right_iff.mpr (hhandled.imp fun _ _ hfirst => hfirst.1))
  rw [hstar, isEmpty_eq hhandled]
  refine .ite ((parallel_expectOr halike _ _).bindEq fun _ => hblock.bind fun _ _ hfinal =>
    .pure fun hspan => .mk hspan (.tryBlock hbody .nil .nil hfinal)) ?_
  exact (elseBlock_parallel halike hblock).bind fun _ _ horElse =>
    (parallel_accept halike .keywordFinally).bindEq fun _ =>
      .iteBind _ hblock (.pure .nil) fun _ _ hfinal =>
        .pure fun hspan => .mk hspan (.tryBlock hbody hhandlers horElse hfinal)

omit hblock

private theorem withItem_parallel :
    Parallel tokens tokens' (WithItem.Alike like) withItem withItem :=
  parallel_spanned halike <| (expr_parallel halike).bind fun _ _ hcontext =>
    (parallel_ifAccepted halike .keywordAs (target_parallel halike)).bind fun _ _ htarget =>
      .pure fun hspan => .mk hspan hcontext htarget

private theorem groupedWithItems?_parallel :
    Parallel tokens tokens' (Option.Rel (List.Forall₂ (WithItem.Alike like))) groupedWithItems?
      groupedWithItems? := by
  refine parallel_attempt <| (parallel_take halike).bind fun _ _ _ =>
    (parallel_listUntil halike .parenthesisClose (withItem_parallel halike)).bind
      fun items items' hitems => ?_
  rw [isEmpty_eq hitems]
  exact .ite (.pure .none) <| (parallel_nextIs halike .colon).bindEq fun _ =>
    .ite (.pure (.some hitems)) (.pure .none)

private theorem withItems_parallel :
    Parallel tokens tokens' (List.Forall₂ (WithItem.Alike like)) withItems withItems := by
  have hlisted := parallel_commaSeparated halike (withItem_parallel halike)
  refine (parallel_nextIs halike .parenthesisOpen).bindEq fun _ =>
    .ite ((groupedWithItems?_parallel halike).bind fun grouped grouped' hgrouped => ?_) hlisted
  cases hgrouped with
  | some hitems => exact .pure hitems
  | none => exact hlisted

/-! ## Cases -/

private theorem patternSpan?_parallel :
    Parallel tokens tokens' (Option.Rel like.span) patternSpan? patternSpan? := by
  let Passed (passed passed' : Nat × Option Span) : Prop :=
    passed'.1 = passed.1 ∧ Option.Rel like.span passed.2 passed'.2
  refine parallel_iterate halike Passed ⟨rfl, .none⟩ ?_
  rintro ⟨depth, span⟩ ⟨_, span'⟩ ⟨hdepth, hspan⟩
  cases hdepth
  refine (parallel_peek halike).bind fun token token' htoken => ?_
  dsimp only
  rw [htoken.kind_eq]
  refine .ite (.pure (.done hspan)) ?_
  by_cases hend : token.kind = .endOfInput ∨ token.kind = .invalid ∨ ¬token.kind.isSignificant
  · rw [if_pos hend, if_pos hend]
    exact .throwBind
  · rw [if_neg hend, if_neg hend]
    simp only [not_or, not_not] at hend
    have htokenSpan := htoken.span hend.2.2
    refine (parallel_take halike).bind fun _ _ _ => .pure (.next ⟨rfl, .some ?_⟩)
    cases hspan with
    | some hspan => exact like.join htokenSpan hspan
    | none => exact htokenSpan

private theorem casePattern_parallel :
    Parallel tokens tokens' like.pattern casePattern casePattern := by
  refine (patternSpan?_parallel halike).bind fun span span' hspan => ?_
  cases hspan with
  | some hspan => exact fun place => ⟨halike.slice hspan, rfl⟩
  | none => exact parallel_failNext halike _

include hblock

private theorem withStmt_parallel : (withStmt block).ParallelStmt like tokens tokens' :=
  parallel_spanned halike <| (parallel_accept halike .keywordAsync).bindEq fun _ =>
    (parallel_expect halike .keywordWith).bind fun _ _ _ =>
      (withItems_parallel halike).bind fun _ _ hitems => hblock.bind fun _ _ hbody =>
        .pure fun hspan => .mk hspan (.withBlock hitems hbody)

private theorem matchCase_parallel :
    Parallel tokens tokens' (MatchCase.Alike like) (matchCase block) (matchCase block) :=
  parallel_spanned halike <| (parallel_take halike).bind fun _ _ _ =>
    (casePattern_parallel halike).bind fun _ _ hpattern =>
      (parallel_ifAccepted halike .keywordIf (namedExpr_parallel halike)).bind fun _ _ hguard =>
        hblock.bind fun _ _ hbody => .pure fun hspan => .mk hspan hpattern hguard hbody

omit hblock in
private theorem matchSubject?_parallel :
    Parallel tokens tokens' (Option.Rel (Expr.Alike like)) matchSubject? matchSubject? :=
  parallel_attempt <| (parallel_take halike).bind fun _ _ _ =>
    (Level.starNamedExprs_parallel halike (Level.outermost_parallel halike)).bind
      fun _ _ hsubject => (parallel_accept halike .colon).bindEq fun _ =>
        .ite ((parallel_accept halike .newline).bindEq fun _ =>
          .ite ((parallel_accept halike .indent).bindEq fun _ =>
            .ite ((parallel_nextIsWord halike "case").bindEq fun _ =>
              .ite (.pure (.some hsubject)) (.pure .none)) (.pure .none)) (.pure .none))
          (.pure .none)

private theorem matchStmt?_parallel :
    Parallel tokens tokens' (Option.Rel (Stmt.Alike like)) (matchStmt? block)
      (matchStmt? block) := by
  refine parallel_mark.bindEq fun start => (matchSubject?_parallel halike).bind
    fun subject subject' hsubject => ?_
  cases hsubject with
  | none => exact .pure .none
  | some hsubject =>
    exact (parallel_repeatWhile halike (parallel_nextIsWord halike "case")
      (matchCase_parallel halike hblock)).bind fun _ _ hcases =>
        (parallel_expect halike .dedent).bind fun _ _ _ =>
          (parallel_spanSince halike start).bind fun _ _ hspan =>
            .pure (.some (.mk hspan (.matchCases hsubject hcases)))

/-! ## Definitions -/

omit hblock in
private theorem decorators_parallel :
    Parallel tokens tokens' (List.Forall₂ (Decorator.Alike like)) decorators decorators :=
  parallel_repeatWhile halike (parallel_nextIs halike .at) <| parallel_spanned halike <|
    (parallel_expect halike .at).bind fun _ _ _ => (namedExpr_parallel halike).bind
      fun _ _ hexpression => (parallel_expect halike .newline).bind fun _ _ _ =>
        .pure fun hspan => .mk hspan hexpression

private theorem classDef_parallel {decorators decorators' : List Decorator}
    (hdecorators : List.Forall₂ (Decorator.Alike like) decorators decorators') :
    Parallel tokens tokens' (StmtForm.Alike like) (classDef block decorators)
      (classDef block decorators') :=
  (parallel_expect halike .keywordClass).bind fun _ _ _ =>
    (Level.spannedName_parallel halike).bind fun _ _ hname =>
      (typeParams_parallel halike).bind fun _ _ hparams =>
        (parallel_accept halike .parenthesisOpen).bindEq fun _ =>
          .iteBind _ (Level.arguments_parallel halike (Level.outermost_parallel halike)) (.pure .nil)
            fun _ _ harguments => hblock.bind fun _ _ hbody =>
              .pure (.classDef hdecorators hname hparams harguments hbody)

private theorem functionDef_parallel {decorators decorators' : List Decorator}
    (hdecorators : List.Forall₂ (Decorator.Alike like) decorators decorators') :
    Parallel tokens tokens' (StmtForm.Alike like) (functionDef block decorators)
      (functionDef block decorators') :=
  (parallel_accept halike .keywordAsync).bindEq fun _ =>
    (parallel_expect halike .keywordDef).bind fun _ _ _ =>
      (Level.spannedName_parallel halike).bind fun _ _ hname =>
        (typeParams_parallel halike).bind fun _ _ htypeParams =>
          (parallel_expect halike .parenthesisOpen).bind fun _ _ _ =>
            (Level.params_parallel halike (Level.outermost_parallel halike) _ _).bind
              fun _ _ hparams =>
                (parallel_ifAccepted halike .hyphenChevronRight (expr_parallel halike)).bind
                  fun _ _ hreturns => hblock.bind fun _ _ hbody =>
                    .pure (.functionDef hdecorators hname htypeParams hparams hreturns hbody)

private theorem definition_parallel : (definition block).ParallelStmt like tokens tokens' := by
  refine parallel_spanned halike <| (decorators_parallel halike).bind
    fun decorators decorators' hdecorators => (parallel_peek halike).bind
      fun token token' htoken => ?_
  rw [htoken.kind_eq]
  split
  · exact (classDef_parallel halike hblock hdecorators).bind fun _ _ hform =>
      .pure fun hspan => .mk hspan hform
  · exact (functionDef_parallel halike hblock hdecorators).bind fun _ _ hform =>
      .pure fun hspan => .mk hspan hform
  · exact (functionDef_parallel halike hblock hdecorators).bind fun _ _ hform =>
      .pure fun hspan => .mk hspan hform
  · exact .throw

/-! ## Blocks and modules -/

private theorem stmtLineOver_parallel : (stmtLineOver block).ParallelStmts like tokens tokens' := by
  have hone : ∀ {parser : Parser Stmt}, parser.ParallelStmt like tokens tokens' →
      Parallel tokens tokens' (List.Forall₂ (Stmt.Alike like)) (parser >>= fun stmt => pure [stmt])
        (parser >>= fun stmt => pure [stmt]) :=
    fun hparser => hparser.bind fun _ _ hstmt => .pure (.cons hstmt .nil)
  refine .peekTwo halike fun {first first' second second'} hfirst hsecond => ?_
  dsimp only
  rw [hfirst.kind_eq, hsecond.kind_eq]
  split
  case h_1 | h_2 | h_3 => exact hone (definition_parallel halike hblock)
  case h_4 =>
    split
    · exact hone (definition_parallel halike hblock)
    · exact hone (forStmt_parallel halike hblock)
    · exact hone (withStmt_parallel halike hblock)
    · exact .throw
  case h_5 => exact hone (forStmt_parallel halike hblock)
  case h_6 => exact hone (ifStmt_parallel halike hblock)
  case h_7 => exact hone (tryStmt_parallel halike hblock)
  case h_8 => exact hone (whileStmt_parallel halike hblock)
  case h_9 => exact hone (withStmt_parallel halike hblock)
  case h_10 hkind =>
    rw [hfirst.text_eq (.inl hkind)]
    refine .ite ((matchStmt?_parallel halike hblock).bind fun stmt stmt' hstmt => ?_)
      (simpleStmts_parallel halike)
    cases hstmt with
    | some hstmt => exact .pure (.cons hstmt .nil)
    | none => exact simpleStmts_parallel halike
  case h_11 => exact simpleStmts_parallel halike

omit hblock

private theorem stmtsOver_parallel {line : Parser (List Stmt)}
    (hline : line.ParallelStmts like tokens tokens') (stop : TokenKind) :
    (stmtsOver line stop).ParallelStmts like tokens tokens' := by
  refine parallel_iterate halike (List.Forall₂ (Stmt.Alike like)) .nil fun {stmts stmts'} hstmts =>
    (parallel_peek halike).bind fun token token' htoken => ?_
  rw [htoken.kind_eq]
  exact .ite (.pure (.done (List.forall₂_reverse_iff.mpr hstmts))) <| .ite .throw <|
    hline.bind fun _ _ hlines =>
      .pure (.next (List.rel_append (List.forall₂_reverse_iff.mpr hlines) hstmts))

private theorem blockOver_parallel {line : Parser (List Stmt)}
    (hline : line.ParallelStmts like tokens tokens') :
    (blockOver line).ParallelStmts like tokens tokens' :=
  (parallel_expect halike .colon).bind fun _ _ _ => (parallel_accept halike .newline).bindEq fun _ =>
    .ite ((parallel_expectOr halike _ _).bindEq fun _ =>
      (stmtsOver_parallel halike hline .dedent).bind fun _ _ hbody =>
        (parallel_expect halike .dedent).bind fun _ _ _ => .pure hbody) (simpleStmts_parallel halike)

private theorem blockWithin_parallel (depth : Nat) :
    (blockWithin depth).ParallelStmts like tokens tokens' := by
  induction depth with
  | zero => exact parallel_failNext halike _
  | succ depth ih => exact blockOver_parallel halike (stmtLineOver_parallel halike ih)

/-- **The shape of a module depends on its tokens only.** From token sequences that are alike,
modules of one shape are read, or none is. -/
theorem module_parallel : Parallel tokens tokens' (Module.Alike like) module module :=
  (stmtsOver_parallel halike (stmtLineOver_parallel halike (blockWithin_parallel halike _)) _).bind
    fun _ _ hbody => (parallel_expect halike .endOfInput).bind fun _ _ _ _ =>
      ⟨⟨halike.whole, hbody⟩, rfl⟩

end

end PythonOutline.Parser
