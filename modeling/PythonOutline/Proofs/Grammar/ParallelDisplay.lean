import PythonOutline.Parser.Nesting
import PythonOutline.Proofs.Grammar.ParallelExpr

/-! # Displays, arguments and parameters side by side

What opens a nesting level reads trees of one shape from token sequences that are alike, and so does
every level.
-/

namespace PythonOutline

open PythonOutline.Parser

variable {like : Likeness} {tokens tokens' : Tokens}

/-- Whether an argument is refused depends on the shape of the arguments only. -/
theorem Argument.misplaced?_alike {arguments arguments' : List Argument}
    (seenKeyword seenMapping : Bool)
    (harguments : List.Forall₂ (Argument.Alike like) arguments arguments') :
    Option.Rel (fun _ _ => True) (misplaced? seenKeyword seenMapping arguments)
      (misplaced? seenKeyword seenMapping arguments') := by
  induction harguments generalizing seenKeyword seenMapping with
  | nil => exact .none
  | cons hargument _ ih =>
    obtain ⟨-, -⟩ := hargument
    simp only [misplaced?]
    split
    · exact ih _ _
    · exact ih _ _
    · split
      · exact .some trivial
      · exact ih _ _
    · split
      · exact .some trivial
      · exact ih _ _

section

variable (halike : tokens.Alike like tokens')

include halike

private theorem Parser.startsForClause_parallel :
    Parallel tokens tokens' Eq startsForClause startsForClause :=
  .peekTwo halike fun hfirst hsecond => by
    dsimp only
    rw [hfirst.kind_eq, hsecond.kind_eq]
    exact .pure rfl

namespace Level

variable {level : Level} (hlevel : level.IsParallel like tokens tokens')

include hlevel

/-! ## Displays -/

private theorem forClause_parallel :
    Parallel tokens tokens' (ForClause.Alike like) level.forClause level.forClause :=
  parallel_spanned halike <| (parallel_accept halike .keywordAsync).bindEq fun _ =>
    (parallel_expect halike .keywordFor).bind fun _ _ _ =>
      (targetList_parallel halike hlevel).bind fun _ _ htarget =>
        (parallel_expect halike .keywordIn).bind fun _ _ _ =>
          (orTest_parallel halike hlevel).bind fun _ _ hiterable =>
            (parallel_repeatWhile halike (parallel_nextIs halike .keywordIf)
              ((parallel_take halike).bind fun _ _ _ => orTest_parallel halike hlevel)).bind
              fun _ _ hconditions => .pure fun hspan => .mk hspan htarget hiterable hconditions

private theorem forClauses_parallel :
    Parallel tokens tokens' (List.Forall₂ (ForClause.Alike like)) level.forClauses
      level.forClauses :=
  parallel_repeatWhile halike (startsForClause_parallel halike) (forClause_parallel halike hlevel)

private theorem comprehension_parallel (start : Nat) (close : TokenKind) (kind : ComprehensionKind)
    {element element' : Expr} {value value' : Option Expr} (helement : element.Alike like element')
    (hvalue : Option.Rel (Expr.Alike like) value value') :
    Parallel tokens tokens' (Expr.Alike like) (level.comprehension start close kind element value)
      (level.comprehension start close kind element' value') :=
  (forClauses_parallel halike hlevel).bind fun _ _ hclauses =>
    (parallel_expect halike close).bind fun _ _ _ =>
      parallel_since halike start (.comprehension helement hvalue hclauses)

private theorem displayElements_parallel (close : TokenKind) :
    Parallel tokens tokens' (List.Forall₂ (Expr.Alike like)) (level.displayElements close)
      (level.displayElements close) :=
  parallel_listUntil halike close (starNamedExpr_parallel halike hlevel)

private theorem parenDisplay_parallel : level.parenDisplay.ParallelExpr like tokens tokens' := by
  refine parallel_mark.bindEq fun start =>
    (parallel_expect halike .parenthesisOpen).bind fun _ _ _ =>
      (parallel_accept halike .parenthesisClose).bindEq fun _ =>
        .ite (parallel_since halike start (.tuple .nil)) <|
          (parallel_nextIs halike .keywordYield).bindEq fun _ => .ite ?_ ?_
  · exact (yieldExpr_parallel halike hlevel).bind fun _ _ hvalue =>
      (parallel_expect halike .parenthesisClose).bind fun _ _ _ => .pure hvalue
  · exact (starNamedExpr_parallel halike hlevel).bind fun _ _ hfirst =>
      (startsForClause_parallel halike).bindEq fun _ =>
        .ite (comprehension_parallel halike hlevel _ _ _ hfirst .none) <|
          (parallel_accept halike .comma).bindEq fun _ =>
            .ite ((displayElements_parallel halike hlevel _).bind fun _ _ hothers =>
              parallel_since halike start (.tuple (.cons hfirst hothers)))
              ((parallel_expect halike .parenthesisClose).bind fun _ _ _ => .pure hfirst)

private theorem listDisplay_parallel : level.listDisplay.ParallelExpr like tokens tokens' :=
  parallel_mark.bindEq fun start => (parallel_expect halike .bracketOpen).bind fun _ _ _ =>
    (parallel_nextIs halike .bracketClose).bindEq fun _ =>
      .ite ((displayElements_parallel halike hlevel _).bind fun _ _ helements =>
        parallel_since halike start (.list helements)) <|
        (starNamedExpr_parallel halike hlevel).bind fun _ _ hfirst =>
          (startsForClause_parallel halike).bindEq fun _ =>
            .ite (comprehension_parallel halike hlevel _ _ _ hfirst .none) <|
              (parallel_accept halike .comma).bindEq fun _ =>
                .ite ((displayElements_parallel halike hlevel _).bind fun _ _ hothers =>
                  parallel_since halike start (.list (.cons hfirst hothers)))
                  ((parallel_expect halike .bracketClose).bind fun _ _ _ =>
                    parallel_since halike start (.list (.cons hfirst .nil)))

private theorem dictEntry_parallel :
    Parallel tokens tokens' (DictEntry.Alike like) level.dictEntry level.dictEntry :=
  parallel_spanned halike <| (parallel_accept halike .asteriskAsterisk).bindEq fun _ =>
    .ite ((bitwiseOr_parallel halike hlevel).bind fun _ _ hvalue =>
      .pure fun hspan => .mk hspan .none hvalue) <|
      (expr_parallel halike hlevel).bind fun _ _ hkey =>
        (parallel_expect halike .colon).bind fun _ _ _ =>
          (expr_parallel halike hlevel).bind fun _ _ hvalue =>
            .pure fun hspan => .mk hspan (.some hkey) hvalue

private theorem setDisplay_parallel (start : Nat) {first first' : Expr}
    (hfirst : first.Alike like first') :
    Parallel tokens tokens' (Expr.Alike like) (level.setDisplay start first)
      (level.setDisplay start first') :=
  (startsForClause_parallel halike).bindEq fun _ =>
    .ite (comprehension_parallel halike hlevel _ _ _ hfirst .none) <|
      (parallel_accept halike .comma).bindEq fun _ =>
        .ite ((displayElements_parallel halike hlevel _).bind fun _ _ hothers =>
          parallel_since halike start (.set (.cons hfirst hothers)))
          ((parallel_expect halike .braceClose).bind fun _ _ _ =>
            parallel_since halike start (.set (.cons hfirst .nil)))

private theorem dictDisplay_parallel (start entryStart : Nat) {key key' : Expr}
    (hkey : key.Alike like key') :
    Parallel tokens tokens' (Expr.Alike like) (level.dictDisplay start entryStart key)
      (level.dictDisplay start entryStart key') := by
  refine (expr_parallel halike hlevel).bind fun value value' hvalue =>
    (startsForClause_parallel halike).bindEq fun _ =>
      .ite (comprehension_parallel halike hlevel _ _ _ hkey (.some hvalue)) <|
        (parallel_spanSince halike entryStart).bind fun span span' hspan => ?_
  have hfirst : DictEntry.Alike like ⟨span, some key, value⟩ ⟨span', some key', value'⟩ :=
    .mk hspan (.some hkey) hvalue
  exact (parallel_accept halike .comma).bindEq fun _ =>
    .ite ((parallel_listUntil halike .braceClose (dictEntry_parallel halike hlevel)).bind
      fun _ _ hothers => parallel_since halike start (.dict (.cons hfirst hothers)))
      ((parallel_expect halike .braceClose).bind fun _ _ _ =>
        parallel_since halike start (.dict (.cons hfirst .nil)))

private theorem braceDisplay_parallel : level.braceDisplay.ParallelExpr like tokens tokens' :=
  parallel_mark.bindEq fun start => (parallel_expect halike .braceOpen).bind fun _ _ _ =>
    (parallel_peekKind halike).bindEq fun _ =>
      .ite ((parallel_listUntil halike .braceClose (dictEntry_parallel halike hlevel)).bind
        fun _ _ hentries => parallel_since halike start (.dict hentries)) <|
        parallel_mark.bindEq fun entryStart =>
          (starNamedExpr_parallel halike hlevel).bind fun _ _ hfirst =>
            (parallel_accept halike .colon).bindEq fun _ =>
              .ite (dictDisplay_parallel halike hlevel start entryStart hfirst)
                (setDisplay_parallel halike hlevel start hfirst)

/-! ## Arguments and subscripts -/

private theorem positionalArgument_parallel :
    level.positionalArgument.ParallelExpr like tokens tokens' :=
  parallel_mark.bindEq fun start => (namedExpr_parallel halike hlevel).bind fun _ _ hvalue =>
    (startsForClause_parallel halike).bindEq fun _ =>
      .ite ((forClauses_parallel halike hlevel).bind fun _ _ hclauses =>
        parallel_since halike start (.comprehension hvalue .none hclauses)) (.pure hvalue)

private theorem argument_parallel :
    Parallel tokens tokens' (Argument.Alike like) level.argument level.argument := by
  refine parallel_spanned halike <| .peekTwo halike fun hfirst hsecond => ?_
  have hunpacked : ∀ unpack, Parallel tokens tokens'
      (fun make make' => ∀ {span span'}, like.span span span' →
        Argument.Alike like (make span) (make' span'))
      (take >>= fun _ => level.expr >>= fun value =>
        pure fun span => (⟨span, none, unpack, value⟩ : Argument))
      (take >>= fun _ => level.expr >>= fun value =>
        pure fun span => (⟨span, none, unpack, value⟩ : Argument)) :=
    fun unpack => (parallel_take halike).bind fun _ _ _ =>
      (expr_parallel halike hlevel).bind fun _ _ hvalue => .pure fun hspan => .mk hspan hvalue
  dsimp only
  rw [hfirst.kind_eq, hsecond.kind_eq]
  split
  · exact hunpacked .iterable
  · exact hunpacked .mapping
  · exact .ite ((parallel_identifier halike).bindEq fun _ =>
      (parallel_expect halike .equals).bind fun _ _ _ =>
        (expr_parallel halike hlevel).bind fun _ _ hvalue => .pure fun hspan => .mk hspan hvalue)
      ((positionalArgument_parallel halike hlevel).bind fun _ _ hvalue =>
        .pure fun hspan => .mk hspan hvalue)
  · exact (positionalArgument_parallel halike hlevel).bind fun _ _ hvalue =>
      .pure fun hspan => .mk hspan hvalue

/-- Arguments are read alike from tokens that are alike. -/
theorem arguments_parallel :
    Parallel tokens tokens' (List.Forall₂ (Argument.Alike like)) level.arguments
      level.arguments := by
  refine (parallel_listUntil halike .parenthesisClose (argument_parallel halike hlevel)).bind
    fun arguments arguments' harguments => ?_
  have hmisplaced := Argument.misplaced?_alike false false harguments
  generalize Argument.misplaced? false false arguments = refused,
    Argument.misplaced? false false arguments' = refused' at hmisplaced ⊢
  cases hmisplaced with
  | some => exact .throw
  | none => exact .pure harguments

private theorem sliceBound_parallel :
    Parallel tokens tokens' (Option.Rel (Expr.Alike like)) level.sliceBound level.sliceBound := by
  refine (parallel_peekKind halike).bindEq fun kind => ?_
  split
  · exact .pure .none
  · exact .pure .none
  · exact .pure .none
  · exact (expr_parallel halike hlevel).bind fun _ _ hvalue => .pure (.some hvalue)

private theorem sliceRest_parallel (start : Nat) {lower lower' : Option Expr}
    (hlower : Option.Rel (Expr.Alike like) lower lower') :
    Parallel tokens tokens' (Expr.Alike like) (level.sliceRest start lower)
      (level.sliceRest start lower') :=
  (parallel_expect halike .colon).bind fun _ _ _ =>
    (sliceBound_parallel halike hlevel).bind fun _ _ hupper =>
      (parallel_accept halike .colon).bindEq fun _ =>
        .iteBind _ (sliceBound_parallel halike hlevel) (.pure .none) fun _ _ hstep =>
          parallel_since halike start (.slice hlower hupper hstep)

private theorem sliceItem_parallel : level.sliceItem.ParallelExpr like tokens tokens' :=
  parallel_mark.bindEq fun start => (parallel_nextIs halike .colon).bindEq fun _ =>
    .ite (sliceRest_parallel halike hlevel start .none) <|
      (starNamedExpr_parallel halike hlevel).bind fun _ _ hvalue =>
        (parallel_nextIs halike .colon).bindEq fun _ =>
          .ite (sliceRest_parallel halike hlevel start (.some hvalue)) (.pure hvalue)

private theorem subscript_parallel : level.subscript.ParallelExpr like tokens tokens' := by
  refine parallel_mark.bindEq fun start => (sliceItem_parallel halike hlevel).bind
    fun first first' hfirst => (parallel_nextIs halike .comma).bindEq fun _ => .ite ?_ (.pure hfirst)
  refine .bindBy (List.Forall₂ (Expr.Alike like)) ?_ fun _ _ helements =>
    parallel_since halike start (.tuple helements)
  exact parallel_iterate halike (List.Forall₂ (Expr.Alike like)) (.cons hfirst .nil)
    fun helements => (parallel_accept halike .comma).bindEq fun _ =>
      .ite ((parallel_nextIs halike .bracketClose).bindEq fun _ =>
        .ite (.pure (.done (List.forall₂_reverse_iff.mpr helements)))
          ((sliceItem_parallel halike hlevel).bind fun _ _ hvalue =>
            .pure (.next (.cons hvalue helements))))
        (.pure (.done (List.forall₂_reverse_iff.mpr helements)))

/-! ## Parameters -/

private theorem param_parallel (kind : ParamKind) (typeHints : Bool) :
    Parallel tokens tokens' (Param.Alike like) (level.param kind typeHints)
      (level.param kind typeHints) := by
  refine parallel_spanned halike <| (parallel_identifier halike).bindEq fun name =>
    .iteBind Eq (parallel_accept halike .colon) (.pure rfl) ?_
  rintro hinted _ rfl
  refine .iteBind (Option.Rel (Expr.Alike like)) ?_ (.pure .none) fun _ _ hhint =>
    .iteBind _ (.pure .none) (parallel_ifAccepted halike .equals (expr_parallel halike hlevel))
      fun _ _ hdefault => .pure fun hspan => .mk hspan hhint hdefault
  exact .map (.ite (starExpr_parallel halike hlevel) (expr_parallel halike hlevel))
    fun _ _ hvalue => .some hvalue

omit halike hlevel in
/-- What two parameter lists have brought so far is of one shape. -/
inductive ParamsState.Alike (like : Likeness) : ParamsState → ParamsState → Prop
  | mk {params params' : List Param} {keywordOnly seenDefault seenVarKeyword : Bool}
      (hparams : List.Forall₂ (Param.Alike like) params params') :
    ParamsState.Alike like ⟨params, keywordOnly, seenDefault, seenVarKeyword⟩
      ⟨params', keywordOnly, seenDefault, seenVarKeyword⟩

omit halike hlevel in
/-- A `/` is accepted behind parameters that are alike. -/
theorem closePositional?_alike {state state' : ParamsState} (hstate : state.Alike like state') :
    Option.Rel (ParamsState.Alike like) (closePositional? state) (closePositional? state') := by
  obtain @⟨params, params', _, _, _, hparams⟩ := hstate
  have hclosed : List.Forall₂ (Param.Alike like)
      (params.map fun param => { param with kind := .positionalOnly })
      (params'.map fun param => { param with kind := .positionalOnly }) := by
    induction hparams with
    | nil => exact .nil
    | cons hparam _ ih =>
      obtain ⟨hspan, hhint, hdefault⟩ := hparam
      exact .cons (.mk hspan hhint hdefault) ih
  have hempty : params'.isEmpty = params.isEmpty := by
    cases hparams <;> rfl
  have hany : (params'.any fun param => param.kind = .positionalOnly) =
      params.any fun param => param.kind = .positionalOnly := by
    clear hclosed hempty
    induction hparams with
    | nil => rfl
    | cons hparam _ ih =>
      obtain ⟨-, -, -⟩ := hparam
      rw [List.any_cons, List.any_cons, ih]
  simp only [closePositional?, hempty, hany]
  split
  · exact .none
  · exact .some ⟨hclosed⟩

private theorem paramsEntry_parallel (typeHints : Bool) {state state' : ParamsState}
    (hstate : state.Alike like state') :
    Parallel tokens tokens' (ParamsState.Alike like) (level.paramsEntry typeHints state)
      (level.paramsEntry typeHints state') := by
  refine (parallel_peek halike).bind fun token token' htoken => ?_
  have hclosed := closePositional?_alike hstate
  obtain @⟨params, params', keywordOnly, seenDefault, seenVarKeyword, hparams⟩ := hstate
  rw [htoken.kind_eq]
  refine .ite .throw ?_
  dsimp only
  split
  case h_1 =>
    refine (parallel_take halike).bind fun _ _ _ => ?_
    generalize closePositional? ⟨params, _, _, _⟩ = closed,
      closePositional? ⟨params', _, _, _⟩ = closed' at hclosed ⊢
    cases hclosed with
    | some hclosed => exact .pure hclosed
    | none => exact .throw
  case h_2 =>
    exact (parallel_take halike).bind fun _ _ _ => (parallel_nextIs halike .comma).bindEq fun _ =>
      .ite (.pure (.mk hparams)) <|
        (param_parallel halike hlevel .varPositional typeHints).bind fun _ _ hparam =>
          .pure (.mk (.cons hparam hparams))
  case h_3 =>
    exact (parallel_take halike).bind fun _ _ _ =>
      (param_parallel halike hlevel .varKeyword typeHints).bind fun _ _ hparam =>
        .pure (.mk (.cons hparam hparams))
  case h_4 =>
    exact (param_parallel halike hlevel .keywordOnly typeHints).bind fun _ _ hparam =>
      .pure (.mk (.cons hparam hparams))
  case h_5 =>
    refine (param_parallel halike hlevel .regular typeHints).bind fun param param' hparam => ?_
    have hdefault : param'.defaultValue.isNone = param.defaultValue.isNone ∧
        param'.defaultValue.isSome = param.defaultValue.isSome := by
      obtain ⟨-, -, hdefault⟩ := hparam
      cases hdefault <;> exact ⟨rfl, rfl⟩
    rw [hdefault.1, hdefault.2]
    exact .ite .throw (.pure (.mk (.cons hparam hparams)))

/-- Parameters are read alike from tokens that are alike. -/
theorem params_parallel (close : TokenKind) (typeHints : Bool) :
    Parallel tokens tokens' (List.Forall₂ (Param.Alike like)) (level.params close typeHints)
      (level.params close typeHints) := by
  refine parallel_iterate halike (ParamsState.Alike like) (.mk .nil) fun hstate =>
    (parallel_accept halike close).bindEq fun _ =>
      .ite (.pure (.done ?_)) <|
        (paramsEntry_parallel halike hlevel typeHints hstate).bind fun _ _ hentered =>
          (parallel_accept halike .comma).bindEq fun _ =>
            .ite (.pure (.next hentered)) <| (parallel_expect halike close).bind fun _ _ _ =>
              .pure (.done ?_)
  · obtain ⟨hparams⟩ := hstate
    exact List.forall₂_reverse_iff.mpr hparams
  · obtain ⟨hparams⟩ := hentered
    exact List.forall₂_reverse_iff.mpr hparams

private theorem lambdaExpr_parallel : level.lambdaExpr.ParallelExpr like tokens tokens' :=
  parallel_spanned halike <| (parallel_expect halike .keywordLambda).bind fun _ _ _ =>
    (params_parallel halike hlevel .colon false).bind fun _ _ hparams =>
      (expr_parallel halike hlevel).bind fun _ _ hbody =>
        .pure fun hspan => .mk hspan (.lambda hparams hbody)

/-! ## Levels -/

private theorem around_parallel : level.around.IsParallel like tokens tokens' where
  innerLambda := lambdaExpr_parallel halike hlevel
  innerExpr := expr_parallel halike hlevel
  innerNotTest := notTest_parallel halike hlevel
  innerFactor := factor_parallel halike hlevel
  innerArguments := (parallel_take halike).bind fun _ _ _ => arguments_parallel halike hlevel
  innerIndex := (parallel_take halike).bind fun _ _ _ =>
    (subscript_parallel halike hlevel).bind fun _ _ hindex =>
      (parallel_expect halike .bracketClose).bind fun _ _ _ => .pure hindex
  innerParens := parenDisplay_parallel halike hlevel
  innerBrackets := listDisplay_parallel halike hlevel
  innerBraces := braceDisplay_parallel halike hlevel

omit hlevel in
private theorem innermost_parallel : innermost.IsParallel like tokens tokens' where
  innerLambda := parallel_failNext halike _
  innerExpr := parallel_failNext halike _
  innerNotTest := parallel_failNext halike _
  innerFactor := parallel_failNext halike _
  innerArguments := parallel_failNext halike _
  innerIndex := parallel_failNext halike _
  innerParens := parallel_failNext halike _
  innerBrackets := parallel_failNext halike _
  innerBraces := parallel_failNext halike _

omit hlevel in
private theorem withInner_parallel (count : Nat) :
    (withInner count).IsParallel like tokens tokens' := by
  induction count with
  | zero => exact innermost_parallel halike
  | succ count ih => exact around_parallel halike ih

omit hlevel in
/-- All levels read alike from tokens that are alike. -/
theorem outermost_parallel : outermost.IsParallel like tokens tokens' :=
  withInner_parallel halike _

end Level

end

end PythonOutline
