import PythonOutline.Proofs.Grammar.Loops
import PythonOutline.Proofs.Grammar.ParallelExpr
import PythonOutline.Proofs.Parser.Passage

/-! # Expressions in two places

Every layer of the expression grammar carries over the expressions that it reads in a passage, if
the levels inside it do. Lists of expressions ask for commas, so they carry over only what they read
up to a margin in front of the end of the passage. -/

namespace PythonOutline

open PythonOutline.Parser

variable {passage : Passage}

/-- A parser carries over the expressions that it reads in a passage. -/
abbrev Passage.CarriesExpr (passage : Passage) (parser : Parser Expr) : Prop :=
  passage.Carries 1 0 (Expr.Alike passage.like) parser parser

/-- A parser carries over the expressions that it reads up to a margin in front of the
closing token. -/
abbrev Passage.CarriesExprs (passage : Passage) (margin : Nat) (parser : Parser Expr) : Prop :=
  passage.Carries (margin + 1) 0 (Expr.Alike passage.like) parser parser

/-- The levels inside a level carry over what they read in a passage. -/
structure Passage.CarriesLevel (passage : Passage) (level : Level) : Prop where
  innerLambda : passage.CarriesExpr level.innerLambda
  innerExpr : passage.CarriesExpr level.innerExpr
  innerNotTest : passage.CarriesExpr level.innerNotTest
  innerFactor : passage.CarriesExpr level.innerFactor
  innerArguments : passage.Carries 1 0 (List.Forall₂ (Argument.Alike passage.like)) level.innerArguments
    level.innerArguments
  innerIndex : passage.CarriesExpr level.innerIndex
  innerParens : passage.CarriesExpr level.innerParens
  innerBrackets : passage.CarriesExpr level.innerBrackets
  innerBraces : passage.CarriesExpr level.innerBraces

/-- An expression that spans what was taken since a mark. -/
theorem Passage.carries_since {margin : Nat} {start start' : Nat}
    (hstart : passage.Marks start start') {form form' : ExprForm}
    (hform : form.Alike passage.like form') :
    passage.Carries margin 0 (Expr.Alike passage.like)
      (spanSince start >>= fun span => pure ⟨span, form⟩)
      (spanSince start' >>= fun span => pure ⟨span, form'⟩) :=
  (carries_spanSince hstart).bind fun _ _ hspan => .pure (.mk hspan hform)

open PythonOutline.Passage

/-! ## Operands -/

private theorem Parser.numberLiteral_carries : passage.CarriesExpr numberLiteral := by
  refine (carries_expect .literalNumber).bind fun token token' htoken => ?_
  have hspan := htoken.1.span (by rw [htoken.2]; rfl)
  rw [htoken.1.text_eq (.inr htoken.2)]
  exact .pure (.mk hspan .number)

private theorem Parser.stringLiteral_carries : passage.CarriesExpr stringLiteral := by
  let Parts (parts parts' : LiteralParts) : Prop :=
    List.Forall₂ passage.like.text parts.1 parts'.1 ∧ parts.2 = parts'.2
  refine carries_spanned <| .bindBy Parts ?_ ?_
  · refine carries_iterate Parts literalStep_advances ⟨.nil, rfl⟩ ?_
    rintro ⟨texts, bytes, formatted⟩ ⟨texts', _⟩ ⟨htexts, hrest⟩
    cases hrest
    refine carries_takeNext (.inl (by decide)) (fun {token token'} htoken hkind => ?_)
      (.pure (.done ⟨List.forall₂_reverse_iff.mpr htexts, rfl⟩))
    have hvalue := htoken.string hkind
    simp only [hvalue.bytes_eq, hvalue.formatted_eq]
    exact .ite .throw (.pure (.next ⟨.cons hvalue.text htexts, rfl⟩))
  · rintro ⟨texts, bytes, formatted⟩ ⟨texts', _⟩ ⟨htexts, hrest⟩
    cases hrest
    exact .pure fun hspan => .mk hspan (.string (Likeness.text_join htexts))

namespace Level

variable {levels : Nat} (hlevel : passage.CarriesLevel (withInner levels))

include hlevel

private theorem atom_carries : passage.CarriesExpr (withInner levels).atom := by
  refine carries_peek (fun {token token'} htoken => ?_) fun _ hkind _ => ?_
  · have htake : ∀ {form form' : ExprForm}, token.kind.isSignificant →
        form.Alike passage.like form' →
        passage.Carries 1 0 (Expr.Alike passage.like) (take >>= fun _ => pure ⟨token.span, form⟩)
          (take >>= fun _ => pure ⟨token'.span, form'⟩) :=
      fun hkind hform => carries_take.bind fun _ _ _ => .pure (.mk (htoken.span hkind) hform)
    rw [htoken.kind_eq]
    split
    case h_1 hkind =>
      rw [htoken.text_eq (.inl hkind)]
      exact htake (by rw [hkind]; rfl) .name
    case h_2 hkind => exact htake (by rw [hkind]; rfl) .boolLiteral
    case h_3 hkind => exact htake (by rw [hkind]; rfl) .boolLiteral
    case h_4 hkind => exact htake (by rw [hkind]; rfl) .noneLiteral
    case h_5 hkind => exact htake (by rw [hkind]; rfl) .ellipsis
    case h_6 => exact numberLiteral_carries
    case h_7 => exact stringLiteral_carries
    case h_8 => exact hlevel.innerParens
    case h_9 => exact hlevel.innerBrackets
    case h_10 => exact hlevel.innerBraces
    case h_11 => exact .throw
  · rcases hkind with hkind | hkind <;> (rw [hkind]; exact .throw)

private theorem primary_carries : passage.CarriesExpr (withInner levels).primary := by
  refine carries_mark @fun start start' hstart => (atom_carries hlevel).bind fun _ _ hfirst =>
    carries_iterate (Expr.Alike passage.like) (trailerStep_advances passage.ordered levels start) hfirst
      fun hvalue => ?_
  have hnext : ∀ {form form' : ExprForm}, form.Alike passage.like form' →
      passage.Carries 1 0 (Step.Alike (Expr.Alike passage.like) (Expr.Alike passage.like))
        (spanSince start >>= fun span => pure (.next ⟨span, form⟩))
        (spanSince start' >>= fun span => pure (.next ⟨span, form'⟩)) :=
    fun hform => (carries_spanSince hstart).bind fun _ _ hspan => .pure (.next (.mk hspan hform))
  refine carries_byKind (fun kind => ?_) fun _ hkind hkind' => ?_
  · split
    · exact carries_take.bind fun _ _ _ => carries_identifier.bindEq fun _ =>
        hnext (.attribute hvalue)
    · exact hlevel.innerArguments.bind fun _ _ harguments => hnext (.call hvalue harguments)
    · exact hlevel.innerIndex.bind fun _ _ hindex => hnext (.subscript hvalue hindex)
    · exact .pure (.done hvalue)
  · rcases hkind with rfl | rfl <;> rcases hkind' with rfl | rfl <;> exact .pure (.done hvalue)

private theorem awaited_carries : passage.CarriesExpr (withInner levels).awaited :=
  (carries_nextIs (.inl (by decide))).bindEq fun _ =>
    .ite (carries_spanned <| carries_take.bind fun _ _ _ =>
      (primary_carries hlevel).bind fun _ _ hvalue =>
        .pure fun hspan => .mk hspan (.await hvalue)) (primary_carries hlevel)

private theorem power_carries : passage.CarriesExpr (withInner levels).power :=
  carries_mark fun hstart => (awaited_carries hlevel).bind fun _ _ hleft =>
    (carries_accept (.inl (by decide))).bindEq fun _ =>
      .ite (hlevel.innerFactor.bind fun _ _ hright =>
        carries_since hstart (.binary hleft hright)) (.pure hleft)

/-- Operands with their signs are carried over. -/
theorem factor_carries : passage.CarriesExpr (withInner levels).factor := by
  refine carries_byKind (fun kind => ?_) fun _ hkind hkind' => ?_
  · split
    · exact power_carries hlevel
    · exact carries_spanned <| carries_take.bind fun _ _ _ =>
        hlevel.innerFactor.bind fun _ _ hargument => .pure fun hspan => .mk hspan (.unary hargument)
  · rcases hkind with rfl | rfl <;> rcases hkind' with rfl | rfl <;> exact power_carries hlevel

/-! ## Operators -/

omit hlevel in
private theorem leftChain_carries {precedence : Nat} {operand : Parser Expr}
    (hadvances : Advances (applyStep precedence operand) passage.tokens)
    (hoperand : passage.CarriesExpr operand) :
    passage.CarriesExpr (leftChain precedence operand) := by
  refine hoperand.bind fun _ _ hfirst => carries_iterate (Expr.Alike passage.like) hadvances hfirst
    fun hleft => carries_byKind (fun kind => ?_) fun _ hkind hkind' => ?_
  · split
    · exact .pure (.done hleft)
    · exact .ite (carries_take.bind fun _ _ _ => hoperand.bind fun _ _ hright =>
        .pure (.next (.mk (passage.like.join hleft.span hright.span) (.binary hleft hright))))
        (.pure (.done hleft))
  · rcases hkind with rfl | rfl <;> rcases hkind' with rfl | rfl <;> exact .pure (.done hleft)

private theorem binary_carries (tiers : Nat) :
    passage.CarriesExpr ((withInner levels).binary tiers) := by
  induction tiers with
  | zero => exact factor_carries hlevel
  | succ tiers ih =>
    exact leftChain_carries ((GrammarLoop.operators levels tiers).advances passage.ordered) ih

/-- Chains of binary operators are carried over. -/
theorem bitwiseOr_carries : passage.CarriesExpr (withInner levels).bitwiseOr :=
  binary_carries hlevel _

omit hlevel in
/-- The comparisons of two words are told apart first. -/
theorem comparisonOperator?_eq :
    comparisonOperator? = peekTwo >>= fun (first, second) =>
      if first.kind = .keywordNot ∧ second.kind = .keywordIn then
        take >>= fun _ => take >>= fun _ => pure (some .nonMembership)
      else if first.kind = .keywordIs ∧ second.kind = .keywordNot then
        take >>= fun _ => take >>= fun _ => pure (some .nonIdentity)
      else
        match Operator.comparison? first.kind with
        | none => pure none
        | some operator => take >>= fun _ => pure (some operator) := by
  unfold comparisonOperator?
  congr
  funext ⟨first, second⟩
  dsimp only
  generalize first.kind = kind, second.kind = other
  split
  · rfl
  · rfl
  · rename_i hnotIn hisNot
    refine Eq.symm ((if_neg (by simpa using hnotIn)).trans ((if_neg (by simpa using hisNot)).trans ?_))
    cases Operator.comparison? kind <;> rfl

omit hlevel in
private theorem comparisonOperator?_carries :
    passage.Carries 1 0 Eq comparisonOperator? comparisonOperator? := by
  have htaken : ∀ operator : Option Operator, passage.Carries 1 0 Eq
      (take >>= fun _ => pure operator) (take >>= fun _ => pure operator) :=
    fun _ => carries_take.bind fun _ _ _ => .pure rfl
  rw [comparisonOperator?_eq]
  refine carries_peekTwo fun {first first' second second'} hmeet =>
    .iteIff (hmeet.both_iff rfl (by decide) (by decide)) (carries_take.bind fun _ _ _ => htaken _) <|
      .iteIff (hmeet.both_iff rfl (by decide) (by decide)) (carries_take.bind fun _ _ _ => htaken _) ?_
  have hkind := hmeet.first_meet
  generalize first.kind = kind, first'.kind = kind' at hkind ⊢
  cases hkind with
  | same =>
    split
    · exact .pure rfl
    · exact htaken _
  | ends _ hkind hkind' =>
    rcases hkind with rfl | rfl <;> rcases hkind' with rfl | rfl <;> exact .pure rfl

private theorem comparison_carries : passage.CarriesExpr (withInner levels).comparison := by
  let Compared (compared compared' : List (Operator × Expr)) : Prop :=
    compared'.map Prod.fst = compared.map Prod.fst ∧
      List.Forall₂ (Expr.Alike passage.like) (compared.map Prod.snd) (compared'.map Prod.snd)
  refine carries_mark fun hstart => (bitwiseOr_carries hlevel).bind fun _ _ hleft =>
    .bindBy Compared ?_ ?_
  · refine carries_iterate Compared (compareStep_advances passage.ordered levels) ⟨rfl, .nil⟩ ?_
    rintro compared compared' ⟨hoperators, hcomparators⟩
    refine comparisonOperator?_carries.bindEq fun operator => ?_
    split
    · refine .pure (.done ⟨?_, ?_⟩)
      · rw [List.map_reverse, List.map_reverse, hoperators]
      · rw [List.map_reverse, List.map_reverse]
        exact List.forall₂_reverse_iff.mpr hcomparators
    · refine (bitwiseOr_carries hlevel).bind fun _ _ hright => .pure (.next ⟨?_, ?_⟩)
      · rw [List.map_cons, List.map_cons, hoperators]
      · exact .cons hright hcomparators
  · rintro compared compared' ⟨hoperators, hcomparators⟩
    have hempty : compared'.isEmpty = compared.isEmpty := by
      simpa using congrArg List.isEmpty hoperators
    rw [hempty, hoperators]
    exact .ite (.pure hleft) (carries_since hstart (.compare hleft hcomparators))

theorem notTest_carries : passage.CarriesExpr (withInner levels).notTest :=
  (carries_nextIs (.inl (by decide))).bindEq fun _ =>
    .ite (carries_spanned <| carries_take.bind fun _ _ _ =>
      hlevel.innerNotTest.bind fun _ _ hargument => .pure fun hspan => .mk hspan (.unary hargument))
      (comparison_carries hlevel)

omit hlevel in
private theorem booleanChain_carries (operator : Operator) {keyword : TokenKind}
    (hkeyword : ¬keyword.EndsEntry) {operand : Parser Expr}
    (hadvances : Advances (repeatStep (accept keyword) operand) passage.tokens)
    (hoperand : passage.CarriesExpr operand) :
    passage.CarriesExpr (booleanChain operator keyword operand) :=
  carries_mark fun hstart => hoperand.bind fun _ _ hfirst =>
    (carries_nextIs (.inl hkeyword)).bindEq fun _ =>
      .ite ((carries_repeatWhile hadvances (carries_accept (.inl hkeyword)) hoperand).bind
        fun _ _ hothers => carries_since hstart (.boolean (.cons hfirst hothers)))
        (.pure hfirst)

private theorem andTest_carries : passage.CarriesExpr (withInner levels).andTest :=
  booleanChain_carries _ (by decide) ((GrammarLoop.conjunctions levels).advances passage.ordered)
    (notTest_carries hlevel)

/-- Chains of `and` and `or` are carried over. -/
theorem orTest_carries : passage.CarriesExpr (withInner levels).orTest :=
  booleanChain_carries _ (by decide) ((GrammarLoop.disjunctions levels).advances passage.ordered)
    (andTest_carries hlevel)

/-- Expressions are carried over. -/
theorem expr_carries : passage.CarriesExpr (withInner levels).expr :=
  (carries_nextIs (.inl (by decide))).bindEq fun _ =>
    .ite hlevel.innerLambda <| carries_mark fun hstart =>
      (orTest_carries hlevel).bind fun _ _ hconsequent =>
        (carries_accept (.inl (by decide))).bindEq fun _ =>
          .ite ((orTest_carries hlevel).bind fun _ _ htest =>
            (carries_expect .keywordElse).bind fun _ _ _ =>
              hlevel.innerExpr.bind fun _ _ halternate =>
                carries_since hstart (.conditional htest hconsequent halternate))
            (.pure hconsequent)

omit hlevel in
/-- Names with their spans are carried over. -/
theorem spannedName_carries {margin : Nat} :
    passage.Carries (margin + 1) 0 (Name.Alike passage.like)
      (spanned (identifier >>= fun text => pure fun span => (⟨span, text⟩ : Name)))
      (spanned (identifier >>= fun text => pure fun span => (⟨span, text⟩ : Name))) :=
  carries_spanned <| carries_identifier.bindEq fun _ => .pure fun hspan => ⟨hspan, rfl⟩

theorem namedExpr_carries : passage.CarriesExpr (withInner levels).namedExpr :=
  carries_peekTwo fun hmeet => .iteIff (hmeet.both_iff rfl (by decide) (by decide))
    (carries_spanned <| spannedName_carries.bind fun _ _ htarget =>
      (carries_expect .colonEquals).bind fun _ _ _ => (expr_carries hlevel).bind fun _ _ hvalue =>
        .pure fun hspan => .mk hspan (.named htarget hvalue))
    (expr_carries hlevel)

private theorem starred_carries : passage.CarriesExpr (withInner levels).starred :=
  carries_spanned <| (carries_expect .asterisk).bind fun _ _ _ =>
    (bitwiseOr_carries hlevel).bind fun _ _ hvalue =>
      .pure fun hspan => .mk hspan (.starred hvalue)

private theorem starredOr_carries {other : Parser Expr} (hother : passage.CarriesExpr other) :
    passage.CarriesExpr ((withInner levels).starredOr other) :=
  (carries_nextIs (.inl (by decide))).bindEq fun _ => .ite (starred_carries hlevel) hother

theorem starExpr_carries : passage.CarriesExpr (withInner levels).starExpr :=
  starredOr_carries hlevel (expr_carries hlevel)

theorem starNamedExpr_carries : passage.CarriesExpr (withInner levels).starNamedExpr :=
  starredOr_carries hlevel (namedExpr_carries hlevel)

/-! ## Lists of expressions -/

variable {margin : Nat} (hsure : passage.Sure margin)

include hsure

omit hlevel in
private theorem tupleOf_carries {item : Parser Expr}
    (hadvances : Advances (elementStep item) passage.tokens) (hitem : passage.CarriesExpr item) :
    passage.CarriesExprs margin (tupleOf item) := by
  replace hitem := hitem.widen (Nat.le_add_left 1 margin)
  refine carries_mark fun hstart => hitem.bind fun first first' hfirst =>
    (carries_nextIs (.inr hsure)).bindEq fun _ => .ite ?_ (.pure hfirst)
  refine .bindBy (List.Forall₂ (Expr.Alike passage.like)) ?_ fun _ _ helements =>
    carries_since hstart (.tuple helements)
  refine carries_iterate (List.Forall₂ (Expr.Alike passage.like)) hadvances (.cons hfirst .nil)
    fun helements => (carries_accept (.inr hsure)).bindEq fun _ =>
      .ite ((carries_peekKindSure hsure).bindEq fun _ => ?_)
        (.pure (.done (List.forall₂_reverse_iff.mpr helements)))
  exact .ite (hitem.bind fun _ _ hvalue => .pure (.next (.cons hvalue helements)))
    (.pure (.done (List.forall₂_reverse_iff.mpr helements)))

theorem starExprs_carries : passage.CarriesExprs margin (withInner levels).starExprs :=
  tupleOf_carries hsure ((GrammarLoop.starExprs levels).advances passage.ordered)
    (starExpr_carries hlevel)

theorem starNamedExprs_carries : passage.CarriesExprs margin (withInner levels).starNamedExprs :=
  tupleOf_carries hsure ((GrammarLoop.starNamedExprs levels).advances passage.ordered)
    (starNamedExpr_carries hlevel)

theorem yieldExpr_carries : passage.CarriesExprs margin (withInner levels).yieldExpr :=
  carries_spanned <| (carries_expect .keywordYield).bind fun _ _ _ =>
    (carries_accept (.inl (by decide))).bindEq fun _ =>
      .ite (((expr_carries hlevel).widen (Nat.le_add_left 1 margin)).bind fun _ _ hvalue =>
        .pure fun hspan => .mk hspan (.yield (.some hvalue)))
        ((carries_peekKindSure hsure).bindEq fun _ =>
          .ite ((starExprs_carries hlevel hsure).bind fun _ _ hvalue =>
            .pure fun hspan => .mk hspan (.yield (.some hvalue)))
            (.pure fun hspan => .mk hspan (.yield .none)))

/-- What may be assigned is carried over, also where a comma ends the passage. -/
theorem yieldOrStarExprs_carries :
    passage.CarriesExprs margin (withInner levels).yieldOrStarExprs :=
  (carries_nextIs (.inl (by decide))).bindEq fun _ =>
    .ite (yieldExpr_carries hlevel hsure) (starExprs_carries hlevel hsure)

/-! ## Targets -/

omit hlevel hsure in
private theorem checkTarget_carries {target target' : Expr}
    (htarget : target.Alike passage.like target') :
    passage.Carries margin 0 (Expr.Alike passage.like) (checkTarget target) (checkTarget target') := by
  rw [checkTarget, checkTarget, htarget.isTarget_eq]
  exact .ite (.pure htarget) .throw

/-- Targets are carried over, also where a comma ends the passage. -/
theorem targetList_carries : passage.CarriesExprs margin (withInner levels).targetList :=
  (tupleOf_carries hsure ((GrammarLoop.targetList levels).advances passage.ordered)
    (starredOr_carries hlevel (bitwiseOr_carries hlevel))).bind
    fun _ _ htarget => checkTarget_carries htarget

omit hsure in
theorem target_carries : passage.CarriesExpr (withInner levels).target :=
  (bitwiseOr_carries hlevel).bind fun _ _ htarget => checkTarget_carries htarget

end Level

end PythonOutline
