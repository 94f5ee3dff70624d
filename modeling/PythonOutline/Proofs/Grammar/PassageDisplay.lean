import PythonOutline.Proofs.Grammar.ParallelDisplay
import PythonOutline.Proofs.Grammar.PassageExpr

/-! # Displays, arguments and parameters in two places

What opens a nesting level carries over what it reads in a passage, and so does every level. What
stands between brackets may ask for commas, as the closing bracket behind it is a margin. -/

namespace PythonOutline

open PythonOutline.Parser PythonOutline.Passage

variable {passage : Passage}

private theorem Parser.startsForClause_carries :
    passage.Carries 1 0 Eq startsForClause startsForClause := by
  refine carries_peekTwo fun {first first' second second'} hmeet => .pure ?_
  have hfor : first'.kind = .keywordFor ↔ first.kind = .keywordFor :=
    hmeet.first_meet.eq_iff (.inl (by decide))
  have hasync : first'.kind = .keywordAsync ∧ second'.kind = .keywordFor ↔
      first.kind = .keywordAsync ∧ second.kind = .keywordFor :=
    hmeet.both_iff rfl (by decide) (by decide)
  rw [Bool.eq_iff_iff]
  simp only [Bool.or_eq_true, Bool.and_eq_true, beq_iff_eq, hfor, hasync]

namespace Level

variable {levels : Nat} (hlevel : passage.CarriesLevel (withInner levels))

include hlevel

/-! ## Displays -/

private theorem forClause_carries :
    passage.Carries 2 0 (ForClause.Alike passage.like) (withInner levels).forClause
      (withInner levels).forClause :=
  carries_spanned <| (carries_accept (.inl (by decide))).bindEq fun _ =>
    (carries_expect .keywordFor).bind fun _ _ _ =>
      (targetList_carries hlevel sure_succ).bind fun _ _ htarget =>
        (carries_expect .keywordIn).bind fun _ _ _ =>
          (orTest_carries hlevel).inside.bind fun _ _ hiterable =>
            (carries_repeatWhile (conditionStep_advances passage.ordered levels)
              (carries_nextIs (.inl (by decide)))
              (carries_take.bind fun _ _ _ => (orTest_carries hlevel).inside)).bind
              fun _ _ hconditions => .pure fun hspan => .mk hspan htarget hiterable hconditions

private theorem forClauses_carries :
    passage.Carries 2 0 (List.Forall₂ (ForClause.Alike passage.like)) (withInner levels).forClauses
      (withInner levels).forClauses :=
  carries_repeatWhile (clauseStep_advances passage.ordered levels) startsForClause_carries.inside
    (forClause_carries hlevel)

private theorem comprehension_carries {start start' : Nat} (hstart : passage.Marks start start')
    (close : TokenKind) (kind : ComprehensionKind) {element element' : Expr}
    {value value' : Option Expr} (helement : element.Alike passage.like element')
    (hvalue : Option.Rel (Expr.Alike passage.like) value value') :
    passage.Carries 1 1 (Expr.Alike passage.like)
      ((withInner levels).comprehension start close kind element value)
      ((withInner levels).comprehension start' close kind element' value') :=
  (forClauses_carries hlevel).ahead fun _ _ hclauses =>
    (carries_expect close).lead fun _ _ _ =>
      carries_since hstart (.comprehension helement hvalue hclauses)

private theorem displayElements_carries {close : TokenKind} (hcomma : close ≠ .comma) :
    passage.Carries 1 1 (List.Forall₂ (Expr.Alike passage.like))
      ((withInner levels).displayElements close)
      ((withInner levels).displayElements close) :=
  carries_listUntil hcomma (starNamedExpr_carries hlevel).inside

private theorem parenDisplay_carries : passage.CarriesExpr (withInner levels).parenDisplay := by
  refine carries_mark fun hstart =>
    (carries_expect .parenthesisOpen).bind fun _ _ _ =>
      (carries_accept (.inl (by decide))).bindEq fun _ =>
        .ite (carries_since hstart (.tuple .nil)) <|
          (carries_nextIs (.inl (by decide))).bindEq fun _ => .ite ?_ ?_
  · refine Carries.least_le ?_ (Nat.zero_le 1)
    exact (yieldExpr_carries hlevel sure_succ).ahead fun _ _ hvalue =>
      (carries_expect .parenthesisClose).lead fun _ _ _ => .pure hvalue
  · refine Carries.least_le ?_ (Nat.zero_le 1)
    exact (starNamedExpr_carries hlevel).bind fun _ _ hfirst => startsForClause_carries.bindEq fun _ =>
      .ite (comprehension_carries hlevel hstart _ _ hfirst .none) <|
        carries_commaOr .parenthesisClose
          ((displayElements_carries hlevel (by decide)).bind fun _ _ hothers =>
            carries_since hstart (.tuple (.cons hfirst hothers)))
          (.pure hfirst)

private theorem listDisplay_carries : passage.CarriesExpr (withInner levels).listDisplay := by
  refine carries_mark fun hstart => (carries_expect .bracketOpen).bind fun _ _ _ =>
    (carries_nextIs (.inl (by decide))).bindEq fun _ =>
      .ite ((displayElements_carries hlevel (by decide)).bind fun _ _ helements =>
        carries_since hstart (.list helements)) ?_
  refine Carries.least_le ?_ (Nat.zero_le 1)
  exact (starNamedExpr_carries hlevel).bind fun _ _ hfirst => startsForClause_carries.bindEq fun _ =>
    .ite (comprehension_carries hlevel hstart _ _ hfirst .none) <|
      carries_commaOr .bracketClose
        ((displayElements_carries hlevel (by decide)).bind fun _ _ hothers =>
          carries_since hstart (.list (.cons hfirst hothers)))
        (carries_since hstart (.list (.cons hfirst .nil)))

private theorem dictEntry_carries :
    passage.Carries 1 0 (DictEntry.Alike passage.like) (withInner levels).dictEntry
      (withInner levels).dictEntry :=
  carries_spanned <| (carries_accept (.inl (by decide))).bindEq fun _ =>
    .ite ((bitwiseOr_carries hlevel).bind fun _ _ hvalue =>
      .pure fun hspan => .mk hspan .none hvalue) <|
      (expr_carries hlevel).bind fun _ _ hkey => (carries_expect .colon).bind fun _ _ _ =>
        (expr_carries hlevel).bind fun _ _ hvalue =>
          .pure fun hspan => .mk hspan (.some hkey) hvalue

private theorem setDisplay_carries {start start' : Nat} (hstart : passage.Marks start start')
    {first first' : Expr} (hfirst : first.Alike passage.like first') :
    passage.Carries 1 1 (Expr.Alike passage.like) ((withInner levels).setDisplay start first)
      ((withInner levels).setDisplay start' first') :=
  startsForClause_carries.bindEq fun _ =>
    .ite (comprehension_carries hlevel hstart _ _ hfirst .none) <|
      carries_commaOr .braceClose
        ((displayElements_carries hlevel (by decide)).bind fun _ _ hothers =>
          carries_since hstart (.set (.cons hfirst hothers)))
        (carries_since hstart (.set (.cons hfirst .nil)))

private theorem dictDisplay_carries {start start' entryStart entryStart' : Nat}
    (hstart : passage.Marks start start') (hentryStart : passage.Marks entryStart entryStart')
    {key key' : Expr} (hkey : key.Alike passage.like key') :
    passage.Carries 1 1 (Expr.Alike passage.like) ((withInner levels).dictDisplay start entryStart key)
      ((withInner levels).dictDisplay start' entryStart' key') := by
  refine (expr_carries hlevel).bind fun value value' hvalue => startsForClause_carries.bindEq fun _ =>
    .ite (comprehension_carries hlevel hstart _ _ hkey (.some hvalue)) <|
      (carries_spanSince hentryStart).bind fun span span' hspan => ?_
  have hfirst : DictEntry.Alike passage.like ⟨span, some key, value⟩ ⟨span', some key', value'⟩ :=
    .mk hspan (.some hkey) hvalue
  exact carries_commaOr .braceClose
    ((carries_listUntil (by decide) (dictEntry_carries hlevel).inside).bind fun _ _ hothers =>
      carries_since hstart (.dict (.cons hfirst hothers)))
    (carries_since hstart (.dict (.cons hfirst .nil)))

private theorem braceDisplay_carries : passage.CarriesExpr (withInner levels).braceDisplay := by
  refine carries_mark fun hstart => (carries_expect .braceOpen).bind fun _ _ _ => ?_
  -- Behind the opening brace more is taken, so that it may be asked for the closing one.
  refine Carries.least_le ?_ (Nat.zero_le 1)
  refine (carries_peekKindSure sure_succ).ahead ?_
  rintro kind _ rfl
  refine .ite ((carries_listUntil (by decide)
    (dictEntry_carries hlevel).inside).lead fun _ _ hentries =>
    carries_since hstart (.dict hentries)) <| carries_mark fun hentryStart =>
      (starNamedExpr_carries hlevel).bind fun _ _ hfirst =>
        (carries_accept (.inl (by decide))).bindEq fun _ =>
          .ite (dictDisplay_carries hlevel hstart hentryStart hfirst)
            (setDisplay_carries hlevel hstart hfirst)

/-! ## Arguments and subscripts -/

private theorem positionalArgument_carries :
    passage.CarriesExprs 1 (withInner levels).positionalArgument :=
  carries_mark fun hstart => (namedExpr_carries hlevel).inside.bind fun _ _ hvalue =>
    startsForClause_carries.inside.bindEq fun _ =>
      .ite ((forClauses_carries hlevel).bind fun _ _ hclauses =>
        carries_since hstart (.comprehension hvalue .none hclauses)) (.pure hvalue)

private theorem argument_carries :
    passage.Carries 2 0 (Argument.Alike passage.like) (withInner levels).argument
      (withInner levels).argument := by
  refine carries_spanned <| carries_peekTwo fun {first first' second second'} hmeet => ?_
  cases hmeet with
  | closing hmargin => cases hmargin
  | ends hunsure => exact absurd sure_succ hunsure
  | alike hfirst hsecond =>
    have hunpacked : ∀ unpack, passage.Carries 2 0
        (fun make make' => ∀ {span span'}, passage.like.span span span' →
          Argument.Alike passage.like (make span) (make' span'))
        (take >>= fun _ => (withInner levels).expr >>= fun value =>
          pure fun span => (⟨span, none, unpack, value⟩ : Argument))
        (take >>= fun _ => (withInner levels).expr >>= fun value =>
          pure fun span => (⟨span, none, unpack, value⟩ : Argument)) :=
      fun unpack => carries_take.bind fun _ _ _ => (expr_carries hlevel).inside.bind fun _ _ hvalue =>
        .pure fun hspan => .mk hspan hvalue
    dsimp only
    rw [hfirst.kind_eq]
    split
    · exact hunpacked .iterable
    · exact hunpacked .mapping
    · exact .iteIff (hsecond.eq_iff (.inl (by decide))) (carries_identifier.bindEq fun _ =>
        (carries_expect .equals).bind fun _ _ _ =>
          (expr_carries hlevel).inside.bind fun _ _ hvalue => .pure fun hspan => .mk hspan hvalue)
        ((positionalArgument_carries hlevel).bind fun _ _ hvalue =>
          .pure fun hspan => .mk hspan hvalue)
    · exact (positionalArgument_carries hlevel).bind fun _ _ hvalue =>
        .pure fun hspan => .mk hspan hvalue

/-- Arguments are carried from one passage to the other. -/
theorem arguments_carries :
    passage.Carries 1 0 (List.Forall₂ (Argument.Alike passage.like)) (withInner levels).arguments
      (withInner levels).arguments := by
  refine (carries_listUntil (by decide) (argument_carries hlevel)).bind
    fun arguments arguments' harguments => ?_
  have hmisplaced := Argument.misplaced?_alike false false harguments
  generalize Argument.misplaced? false false arguments = refused,
    Argument.misplaced? false false arguments' = refused' at hmisplaced ⊢
  cases hmisplaced with
  | some => exact .throw
  | none => exact .pure harguments

private theorem sliceBound_carries :
    passage.Carries 2 0 (Option.Rel (Expr.Alike passage.like)) (withInner levels).sliceBound
      (withInner levels).sliceBound := by
  refine (carries_peekKindSure sure_succ).bindEq fun kind => ?_
  split
  · exact .pure .none
  · exact .pure .none
  · exact .pure .none
  · exact (expr_carries hlevel).inside.bind fun _ _ hvalue => .pure (.some hvalue)

private theorem sliceRest_carries {start start' : Nat} (hstart : passage.Marks start start')
    {lower lower' : Option Expr} (hlower : Option.Rel (Expr.Alike passage.like) lower lower') :
    passage.Carries 2 0 (Expr.Alike passage.like) ((withInner levels).sliceRest start lower)
      ((withInner levels).sliceRest start' lower') :=
  (carries_expect .colon).bind fun _ _ _ =>
    (sliceBound_carries hlevel).bind fun _ _ hupper =>
      (carries_accept (.inl (by decide))).bindEq fun _ =>
        .iteBind _ (sliceBound_carries hlevel) (.pure .none) fun _ _ hstep =>
          carries_since hstart (.slice hlower hupper hstep)

private theorem sliceItem_carries : passage.CarriesExprs 1 (withInner levels).sliceItem :=
  carries_mark fun hstart => (carries_nextIs (.inl (by decide))).bindEq fun _ =>
    .ite (sliceRest_carries hlevel hstart .none) <|
      (starNamedExpr_carries hlevel).inside.bind fun _ _ hvalue =>
        (carries_nextIs (.inl (by decide))).bindEq fun _ =>
          .ite (sliceRest_carries hlevel hstart (.some hvalue)) (.pure hvalue)

private theorem subscript_carries : passage.CarriesExprs 1 (withInner levels).subscript := by
  refine carries_mark fun hstart => (sliceItem_carries hlevel).bind
    fun first first' hfirst => (carries_nextIs (.inr sure_succ)).bindEq fun _ => .ite ?_ (.pure hfirst)
  refine .bindBy (List.Forall₂ (Expr.Alike passage.like)) ?_ fun _ _ helements =>
    carries_since hstart (.tuple helements)
  exact carries_iterate (List.Forall₂ (Expr.Alike passage.like))
    (sliceStep_advances passage.ordered levels) (.cons hfirst .nil)
    fun helements => (carries_accept (.inr sure_succ)).bindEq fun _ =>
      .ite ((carries_nextIs (.inl (by decide))).bindEq fun _ =>
        .ite (.pure (.done (List.forall₂_reverse_iff.mpr helements)))
          ((sliceItem_carries hlevel).bind fun _ _ hvalue =>
            .pure (.next (.cons hvalue helements))))
        (.pure (.done (List.forall₂_reverse_iff.mpr helements)))

/-! ## Parameters -/

private theorem param_carries (kind : ParamKind) (typeHints : Bool) :
    passage.Carries 2 0 (Param.Alike passage.like) ((withInner levels).param kind typeHints)
      ((withInner levels).param kind typeHints) := by
  refine carries_spanned <| carries_identifier.bindEq fun name =>
    .iteBind Eq (carries_accept (.inl (by decide))) (.pure rfl) ?_
  rintro hinted _ rfl
  refine .iteBind (Option.Rel (Expr.Alike passage.like)) ?_ (.pure .none) fun _ _ hhint =>
    .iteBind _ (.pure .none) (carries_ifAccepted (.inl (by decide)) (expr_carries hlevel).inside)
      fun _ _ hdefault => .pure fun hspan => .mk hspan hhint hdefault
  exact .map (.ite (starExpr_carries hlevel).inside (expr_carries hlevel).inside)
    fun _ _ hvalue => .some hvalue

private theorem paramsEntry_carries (typeHints : Bool) {state state' : ParamsState}
    (hstate : state.Alike passage.like state') :
    passage.Carries 2 0 (ParamsState.Alike passage.like)
      ((withInner levels).paramsEntry typeHints state)
      ((withInner levels).paramsEntry typeHints state') := by
  refine carries_peek (fun {token token'} htoken => ?_) fun hunsure => absurd sure_succ hunsure
  have hclosed := closePositional?_alike hstate
  obtain @⟨params, params', keywordOnly, seenDefault, seenVarKeyword, hparams⟩ := hstate
  rw [htoken.kind_eq]
  refine .ite .throw ?_
  dsimp only
  split
  case h_1 =>
    refine carries_take.bind fun _ _ _ => ?_
    generalize closePositional? ⟨params, _, _, _⟩ = closed,
      closePositional? ⟨params', _, _, _⟩ = closed' at hclosed ⊢
    cases hclosed with
    | some hclosed => exact .pure hclosed
    | none => exact .throw
  case h_2 =>
    exact carries_take.bind fun _ _ _ => (carries_nextIs (.inr sure_succ)).bindEq fun _ =>
      .ite (.pure (.mk hparams)) <|
        (param_carries hlevel .varPositional typeHints).bind fun _ _ hparam =>
          .pure (.mk (.cons hparam hparams))
  case h_3 =>
    exact carries_take.bind fun _ _ _ =>
      (param_carries hlevel .varKeyword typeHints).bind fun _ _ hparam =>
        .pure (.mk (.cons hparam hparams))
  case h_4 =>
    exact (param_carries hlevel .keywordOnly typeHints).bind fun _ _ hparam =>
      .pure (.mk (.cons hparam hparams))
  case h_5 =>
    refine (param_carries hlevel .regular typeHints).bind fun param param' hparam => ?_
    have hdefault : param'.defaultValue.isNone = param.defaultValue.isNone ∧
        param'.defaultValue.isSome = param.defaultValue.isSome := by
      obtain ⟨-, -, hdefault⟩ := hparam
      cases hdefault <;> exact ⟨rfl, rfl⟩
    rw [hdefault.1, hdefault.2]
    exact .ite .throw (.pure (.mk (.cons hparam hparams)))

/-- Parameters are carried from one passage to the other. -/
theorem params_carries {close : TokenKind} (hclose : ¬close.EndsEntry) (hend : close ≠ .endOfInput)
    (typeHints : Bool) :
    passage.Carries 1 0 (List.Forall₂ (Param.Alike passage.like))
      ((withInner levels).params close typeHints) ((withInner levels).params close typeHints) := by
  refine carries_iterate (ParamsState.Alike passage.like)
    (paramsStep_advances passage.ordered levels hend typeHints) (.mk .nil) fun hstate =>
    (carries_accept (.inl hclose)).bindEq fun _ => .ite (.pure (.done ?_)) ?_
  · obtain ⟨hparams⟩ := hstate
    exact List.forall₂_reverse_iff.mpr hparams
  · refine Carries.least_le ?_ (Nat.zero_le 1)
    exact (paramsEntry_carries hlevel typeHints hstate).ahead fun _ _ hentered =>
      carries_commaOr close (.pure (.next hentered)) (.pure (.done (by
        obtain ⟨hparams⟩ := hentered
        exact List.forall₂_reverse_iff.mpr hparams)))

private theorem lambdaExpr_carries : passage.CarriesExpr (withInner levels).lambdaExpr :=
  carries_spanned <| (carries_expect .keywordLambda).bind fun _ _ _ =>
    (params_carries hlevel (by decide) (by decide) false).bind fun _ _ hparams =>
      (expr_carries hlevel).bind fun _ _ hbody =>
        .pure fun hspan => .mk hspan (.lambda hparams hbody)

/-! ## Levels -/

private theorem around_carries : passage.CarriesLevel (withInner levels).around where
  innerLambda := lambdaExpr_carries hlevel
  innerExpr := expr_carries hlevel
  innerNotTest := notTest_carries hlevel
  innerFactor := factor_carries hlevel
  innerArguments := carries_take.bind fun _ _ _ => arguments_carries hlevel
  innerIndex := Carries.least_le
    (carries_take.bind fun _ _ _ => (subscript_carries hlevel).ahead fun _ _ hindex =>
      (carries_expect .bracketClose).lead fun _ _ _ => .pure hindex) (Nat.zero_le 1)
  innerParens := parenDisplay_carries hlevel
  innerBrackets := listDisplay_carries hlevel
  innerBraces := braceDisplay_carries hlevel

omit hlevel in
private theorem innermost_carries : passage.CarriesLevel innermost where
  innerLambda := carries_failNext
  innerExpr := carries_failNext
  innerNotTest := carries_failNext
  innerFactor := carries_failNext
  innerArguments := carries_failNext
  innerIndex := carries_failNext
  innerParens := carries_failNext
  innerBrackets := carries_failNext
  innerBraces := carries_failNext

omit hlevel in
/-- Every level carries over what it reads in a passage. -/
theorem withInner_carries (levels : Nat) : passage.CarriesLevel (withInner levels) := by
  induction levels with
  | zero => exact innermost_carries
  | succ levels ih => exact around_carries ih

end Level

end PythonOutline
