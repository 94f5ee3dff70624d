import PythonOutline.Parser.Expr
import PythonOutline.Proofs.Parser.Parallel

/-! # Operands and operators side by side

On token sequences that are alike, every layer of the expression grammar reads expressions of one
shape, if the levels inside it do.
-/

namespace PythonOutline

open PythonOutline.Parser

variable {like : Likeness} {tokens tokens' : Tokens}

/-- A parser reads expressions of one shape from two token sequences. -/
abbrev Parser.ParallelExpr (parser : Parser Expr) (like : Likeness) (tokens tokens' : Tokens) : Prop :=
  Parallel tokens tokens' (Expr.Alike like) parser parser

/-- What the levels inside a level read from two token sequences is of one shape. -/
structure Level.IsParallel (like : Likeness) (tokens tokens' : Tokens) (level : Level) : Prop where
  innerLambda : level.innerLambda.ParallelExpr like tokens tokens'
  innerExpr : level.innerExpr.ParallelExpr like tokens tokens'
  innerNotTest : level.innerNotTest.ParallelExpr like tokens tokens'
  innerFactor : level.innerFactor.ParallelExpr like tokens tokens'
  innerArguments : Parallel tokens tokens' (List.Forall₂ (Argument.Alike like)) level.innerArguments
    level.innerArguments
  innerIndex : level.innerIndex.ParallelExpr like tokens tokens'
  innerParens : level.innerParens.ParallelExpr like tokens tokens'
  innerBrackets : level.innerBrackets.ParallelExpr like tokens tokens'
  innerBraces : level.innerBraces.ParallelExpr like tokens tokens'

/-- An expression that spans what was taken since a mark. -/
theorem Parser.parallel_since (halike : tokens.Alike like tokens') (start : Nat)
    {form form' : ExprForm} (hform : form.Alike like form') :
    Parallel tokens tokens' (Expr.Alike like) (spanSince start >>= fun span => pure ⟨span, form⟩)
      (spanSince start >>= fun span => pure ⟨span, form'⟩) :=
  (parallel_spanSince halike start).bind fun _ _ hspan => .pure (.mk hspan hform)

/-- Joined texts stand for each other if their parts do. -/
theorem Likeness.text_join {texts texts' : List String}
    (htexts : List.Forall₂ like.text texts texts') :
    like.text (String.join texts) (String.join texts') := by
  induction htexts with
  | nil => exact like.text_empty
  | cons htext _ ih =>
    rw [String.join_cons, String.join_cons]
    exact like.text_append htext ih

section

variable (halike : tokens.Alike like tokens')

include halike

/-! ## Operands -/

private theorem Parser.numberLiteral_parallel : numberLiteral.ParallelExpr like tokens tokens' := by
  refine (parallel_expect halike .literalNumber).bind fun token token' htoken => ?_
  have hspan := htoken.1.span (by rw [htoken.2]; rfl)
  rw [htoken.1.text_eq (.inr htoken.2)]
  exact .pure (.mk hspan .number)

private theorem Parser.stringLiteral_parallel : stringLiteral.ParallelExpr like tokens tokens' := by
  let Parts (parts parts' : List String × Option Bool × Bool) : Prop :=
    List.Forall₂ like.text parts.1 parts'.1 ∧ parts.2 = parts'.2
  refine parallel_spanned halike <| .bindBy Parts ?_ ?_
  · refine parallel_iterate halike Parts ⟨.nil, rfl⟩ ?_
    rintro ⟨texts, bytes, formatted⟩ ⟨texts', _⟩ ⟨htexts, hrest⟩
    cases hrest
    refine .takeNext halike .literalString (fun {token token'} htoken hkind => ?_)
      (.pure (.done ⟨List.forall₂_reverse_iff.mpr htexts, rfl⟩))
    have hvalue := htoken.string hkind
    simp only [hvalue.bytes_eq, hvalue.formatted_eq]
    exact .ite .throw (.pure (.next ⟨.cons hvalue.text htexts, rfl⟩))
  · rintro ⟨texts, bytes, formatted⟩ ⟨texts', _⟩ ⟨htexts, hrest⟩
    cases hrest
    exact .pure fun hspan => .mk hspan (.string (Likeness.text_join htexts))

namespace Level

variable {level : Level} (hlevel : level.IsParallel like tokens tokens')

include hlevel

private theorem atom_parallel : level.atom.ParallelExpr like tokens tokens' := by
  refine (parallel_peek halike).bind fun token token' htoken => ?_
  have htake : ∀ {form form' : ExprForm}, token.kind.isSignificant → form.Alike like form' →
      Parallel tokens tokens' (Expr.Alike like) (take >>= fun _ => pure ⟨token.span, form⟩)
        (take >>= fun _ => pure ⟨token'.span, form'⟩) :=
    fun hkind hform => (parallel_take halike).bind fun _ _ _ => .pure (.mk (htoken.span hkind) hform)
  rw [htoken.kind_eq]
  split
  case h_1 hkind =>
    rw [htoken.text_eq (.inl hkind)]
    exact htake (by rw [hkind]; rfl) .name
  case h_2 hkind => exact htake (by rw [hkind]; rfl) .boolLiteral
  case h_3 hkind => exact htake (by rw [hkind]; rfl) .boolLiteral
  case h_4 hkind => exact htake (by rw [hkind]; rfl) .noneLiteral
  case h_5 hkind => exact htake (by rw [hkind]; rfl) .ellipsis
  case h_6 => exact numberLiteral_parallel halike
  case h_7 => exact stringLiteral_parallel halike
  case h_8 => exact hlevel.innerParens
  case h_9 => exact hlevel.innerBrackets
  case h_10 => exact hlevel.innerBraces
  case h_11 => exact .throw

private theorem primary_parallel : level.primary.ParallelExpr like tokens tokens' := by
  refine parallel_mark.bindEq fun start => (atom_parallel halike hlevel).bind fun _ _ hfirst =>
    parallel_iterate halike (Expr.Alike like) hfirst fun {value value'} hvalue =>
      (parallel_peekKind halike).bindEq fun kind => ?_
  have hnext : ∀ {form form' : ExprForm}, form.Alike like form' →
      Parallel tokens tokens' (Step.Alike (Expr.Alike like) (Expr.Alike like))
        (spanSince start >>= fun span => pure (.next ⟨span, form⟩))
        (spanSince start >>= fun span => pure (.next ⟨span, form'⟩)) :=
    fun hform => (parallel_spanSince halike start).bind fun _ _ hspan => .pure (.next (.mk hspan hform))
  split
  · exact (parallel_take halike).bind fun _ _ _ => (parallel_identifier halike).bindEq fun _ =>
      hnext (.attribute hvalue)
  · exact hlevel.innerArguments.bind fun _ _ harguments => hnext (.call hvalue harguments)
  · exact hlevel.innerIndex.bind fun _ _ hindex => hnext (.subscript hvalue hindex)
  · exact .pure (.done hvalue)

private theorem awaited_parallel : level.awaited.ParallelExpr like tokens tokens' :=
  (parallel_nextIs halike .keywordAwait).bindEq fun _ =>
    .ite (parallel_spanned halike <| (parallel_take halike).bind fun _ _ _ =>
      (primary_parallel halike hlevel).bind fun _ _ hvalue =>
        .pure fun hspan => .mk hspan (.await hvalue)) (primary_parallel halike hlevel)

private theorem power_parallel : level.power.ParallelExpr like tokens tokens' :=
  parallel_mark.bindEq fun start => (awaited_parallel halike hlevel).bind fun _ _ hleft =>
    (parallel_accept halike .asteriskAsterisk).bindEq fun _ =>
      .ite (hlevel.innerFactor.bind fun _ _ hright =>
        parallel_since halike start (.binary hleft hright)) (.pure hleft)

/-- Operands with their signs are read alike. -/
theorem factor_parallel : level.factor.ParallelExpr like tokens tokens' := by
  refine (parallel_peekKind halike).bindEq fun kind => ?_
  split
  · exact power_parallel halike hlevel
  · exact parallel_spanned halike <| (parallel_take halike).bind fun _ _ _ =>
      hlevel.innerFactor.bind fun _ _ hargument => .pure fun hspan => .mk hspan (.unary hargument)

/-! ## Operators -/

omit hlevel in
private theorem leftChain_parallel (precedence : Nat) {operand : Parser Expr}
    (hoperand : operand.ParallelExpr like tokens tokens') :
    (leftChain precedence operand).ParallelExpr like tokens tokens' := by
  refine hoperand.bind fun _ _ hfirst => parallel_iterate halike (Expr.Alike like) hfirst
    fun hleft => (parallel_peekKind halike).bindEq fun kind => ?_
  split
  · exact .pure (.done hleft)
  · exact .ite ((parallel_take halike).bind fun _ _ _ => hoperand.bind fun _ _ hright =>
      .pure (.next (.mk (like.join hleft.span hright.span) (.binary hleft hright))))
      (.pure (.done hleft))

private theorem binary_parallel (tiers : Nat) :
    (level.binary tiers).ParallelExpr like tokens tokens' := by
  induction tiers with
  | zero => exact factor_parallel halike hlevel
  | succ tiers ih => exact leftChain_parallel halike _ ih

/-- Chains of binary operators are read alike. -/
theorem bitwiseOr_parallel : level.bitwiseOr.ParallelExpr like tokens tokens' :=
  binary_parallel halike hlevel _

omit hlevel in
private theorem comparisonOperator?_parallel :
    Parallel tokens tokens' Eq comparisonOperator? comparisonOperator? := by
  refine .peekTwo halike fun {first first' second second'} hfirst hsecond => ?_
  dsimp only
  have htaken : ∀ {operator : Option Operator}, Parallel tokens tokens' Eq
      (take >>= fun _ => pure operator) (take >>= fun _ => pure operator) :=
    (parallel_take halike).bind fun _ _ _ => .pure rfl
  rw [hfirst.kind_eq, hsecond.kind_eq]
  split
  · exact (parallel_take halike).bind fun _ _ _ => htaken
  · exact (parallel_take halike).bind fun _ _ _ => htaken
  · split
    · exact .pure rfl
    · exact htaken

private theorem comparison_parallel : level.comparison.ParallelExpr like tokens tokens' := by
  let Compared (compared compared' : List (Operator × Expr)) : Prop :=
    compared'.map Prod.fst = compared.map Prod.fst ∧
      List.Forall₂ (Expr.Alike like) (compared.map Prod.snd) (compared'.map Prod.snd)
  refine parallel_mark.bindEq fun start => (bitwiseOr_parallel halike hlevel).bind fun _ _ hleft =>
    .bindBy Compared ?_ ?_
  · refine parallel_iterate halike Compared ⟨rfl, .nil⟩ ?_
    rintro compared compared' ⟨hoperators, hcomparators⟩
    refine (comparisonOperator?_parallel halike).bindEq fun operator => ?_
    split
    · refine .pure (.done ⟨?_, ?_⟩)
      · rw [List.map_reverse, List.map_reverse, hoperators]
      · rw [List.map_reverse, List.map_reverse]
        exact List.forall₂_reverse_iff.mpr hcomparators
    · refine (bitwiseOr_parallel halike hlevel).bind fun _ _ hright => .pure (.next ⟨?_, ?_⟩)
      · rw [List.map_cons, List.map_cons, hoperators]
      · exact .cons hright hcomparators
  · rintro compared compared' ⟨hoperators, hcomparators⟩
    have hempty : compared'.isEmpty = compared.isEmpty := by
      simpa using congrArg List.isEmpty hoperators
    rw [hempty, hoperators]
    exact .ite (.pure hleft) (parallel_since halike start (.compare hleft hcomparators))

theorem notTest_parallel : level.notTest.ParallelExpr like tokens tokens' :=
  (parallel_nextIs halike .keywordNot).bindEq fun _ =>
    .ite (parallel_spanned halike <| (parallel_take halike).bind fun _ _ _ =>
      hlevel.innerNotTest.bind fun _ _ hargument => .pure fun hspan => .mk hspan (.unary hargument))
      (comparison_parallel halike hlevel)

omit hlevel in
private theorem booleanChain_parallel (operator : Operator) (keyword : TokenKind)
    {operand : Parser Expr} (hoperand : operand.ParallelExpr like tokens tokens') :
    (booleanChain operator keyword operand).ParallelExpr like tokens tokens' :=
  parallel_mark.bindEq fun start => hoperand.bind fun _ _ hfirst =>
    (parallel_nextIs halike keyword).bindEq fun _ =>
      .ite ((parallel_repeatWhile halike (parallel_accept halike keyword) hoperand).bind
        fun _ _ hothers => parallel_since halike start (.boolean (.cons hfirst hothers)))
        (.pure hfirst)

private theorem andTest_parallel : level.andTest.ParallelExpr like tokens tokens' :=
  booleanChain_parallel halike _ _ (notTest_parallel halike hlevel)

/-- Chains of `and` and `or` are read alike. -/
theorem orTest_parallel : level.orTest.ParallelExpr like tokens tokens' :=
  booleanChain_parallel halike _ _ (andTest_parallel halike hlevel)

/-- Expressions are read alike. -/
theorem expr_parallel : level.expr.ParallelExpr like tokens tokens' :=
  (parallel_nextIs halike .keywordLambda).bindEq fun _ =>
    .ite hlevel.innerLambda <| parallel_mark.bindEq fun start =>
      (orTest_parallel halike hlevel).bind fun _ _ hconsequent =>
        (parallel_accept halike .keywordIf).bindEq fun _ =>
          .ite ((orTest_parallel halike hlevel).bind fun _ _ htest =>
            (parallel_expect halike .keywordElse).bind fun _ _ _ =>
              hlevel.innerExpr.bind fun _ _ halternate =>
                parallel_since halike start (.conditional htest hconsequent halternate))
            (.pure hconsequent)

omit hlevel in
/-- Names with their spans are read alike. -/
theorem spannedName_parallel :
    Parallel tokens tokens' (Name.Alike like)
      (spanned (identifier >>= fun text => pure fun span => (⟨span, text⟩ : Name)))
      (spanned (identifier >>= fun text => pure fun span => (⟨span, text⟩ : Name))) :=
  parallel_spanned halike <| (parallel_identifier halike).bindEq fun _ =>
    .pure fun hspan => ⟨hspan, rfl⟩

theorem namedExpr_parallel : level.namedExpr.ParallelExpr like tokens tokens' := by
  refine .peekTwo halike fun {first first' second second'} hfirst hsecond => ?_
  dsimp only
  rw [hfirst.kind_eq, hsecond.kind_eq]
  exact .ite (parallel_spanned halike <| (spannedName_parallel halike).bind fun _ _ htarget =>
    (parallel_expect halike .colonEquals).bind fun _ _ _ =>
      (expr_parallel halike hlevel).bind fun _ _ hvalue =>
        .pure fun hspan => .mk hspan (.named htarget hvalue)) (expr_parallel halike hlevel)

private theorem starred_parallel : level.starred.ParallelExpr like tokens tokens' :=
  parallel_spanned halike <| (parallel_expect halike .asterisk).bind fun _ _ _ =>
    (bitwiseOr_parallel halike hlevel).bind fun _ _ hvalue =>
      .pure fun hspan => .mk hspan (.starred hvalue)

private theorem starredOr_parallel {other : Parser Expr}
    (hother : other.ParallelExpr like tokens tokens') :
    (level.starredOr other).ParallelExpr like tokens tokens' :=
  (parallel_nextIs halike .asterisk).bindEq fun _ => .ite (starred_parallel halike hlevel) hother

theorem starExpr_parallel : level.starExpr.ParallelExpr like tokens tokens' :=
  starredOr_parallel halike hlevel (expr_parallel halike hlevel)

theorem starNamedExpr_parallel : level.starNamedExpr.ParallelExpr like tokens tokens' :=
  starredOr_parallel halike hlevel (namedExpr_parallel halike hlevel)

omit hlevel in
private theorem tupleOf_parallel {item : Parser Expr}
    (hitem : item.ParallelExpr like tokens tokens') :
    (tupleOf item).ParallelExpr like tokens tokens' := by
  refine parallel_mark.bindEq fun start => hitem.bind fun first first' hfirst =>
    (parallel_nextIs halike .comma).bindEq fun _ => .ite ?_ (.pure hfirst)
  refine .bindBy (List.Forall₂ (Expr.Alike like)) ?_ fun _ _ helements =>
    parallel_since halike start (.tuple helements)
  exact parallel_iterate halike (List.Forall₂ (Expr.Alike like)) (.cons hfirst .nil)
    fun helements => (parallel_accept halike .comma).bindEq fun _ =>
      .ite ((parallel_peekKind halike).bindEq fun _ =>
        .ite (hitem.bind fun _ _ hvalue => .pure (.next (.cons hvalue helements)))
          (.pure (.done (List.forall₂_reverse_iff.mpr helements))))
        (.pure (.done (List.forall₂_reverse_iff.mpr helements)))

theorem starExprs_parallel : level.starExprs.ParallelExpr like tokens tokens' :=
  tupleOf_parallel halike (starExpr_parallel halike hlevel)

theorem starNamedExprs_parallel : level.starNamedExprs.ParallelExpr like tokens tokens' :=
  tupleOf_parallel halike (starNamedExpr_parallel halike hlevel)

theorem yieldExpr_parallel : level.yieldExpr.ParallelExpr like tokens tokens' :=
  parallel_spanned halike <| (parallel_expect halike .keywordYield).bind fun _ _ _ =>
    (parallel_accept halike .keywordFrom).bindEq fun _ =>
      .ite ((expr_parallel halike hlevel).bind fun _ _ hvalue =>
        .pure fun hspan => .mk hspan (.yield (.some hvalue)))
        ((parallel_peekKind halike).bindEq fun _ =>
          .ite ((starExprs_parallel halike hlevel).bind fun _ _ hvalue =>
            .pure fun hspan => .mk hspan (.yield (.some hvalue)))
            (.pure fun hspan => .mk hspan (.yield .none)))

/-- What may be assigned is read alike. -/
theorem yieldOrStarExprs_parallel : level.yieldOrStarExprs.ParallelExpr like tokens tokens' :=
  (parallel_nextIs halike .keywordYield).bindEq fun _ =>
    .ite (yieldExpr_parallel halike hlevel) (starExprs_parallel halike hlevel)

/-! ## Targets -/

omit halike hlevel in
private theorem checkTarget_parallel {target target' : Expr} (htarget : target.Alike like target') :
    Parallel tokens tokens' (Expr.Alike like) (checkTarget target) (checkTarget target') := by
  rw [checkTarget, checkTarget, htarget.isTarget_eq]
  exact .ite (.pure htarget) .throw

/-- Targets are read alike, since what can be assigned to does not depend on spans. -/
theorem targetList_parallel : level.targetList.ParallelExpr like tokens tokens' :=
  (tupleOf_parallel halike (starredOr_parallel halike hlevel (bitwiseOr_parallel halike hlevel))).bind
    fun _ _ htarget => checkTarget_parallel htarget

theorem target_parallel : level.target.ParallelExpr like tokens tokens' :=
  (bitwiseOr_parallel halike hlevel).bind fun _ _ htarget => checkTarget_parallel htarget

end Level

end

end PythonOutline
