import PythonOutline.Parser.Module
import PythonOutline.Proofs.Grammar.PassageDisplay
import PythonOutline.Proofs.Grammar.ParallelStmt

/-! # Simple statements in two places

In a passage that ends where a line or a level of indentation does, every simple statement carries
over what it reads, up to the closing token. A line of simple statements may end with the closing
token itself. -/

namespace PythonOutline

open PythonOutline.Parser PythonOutline.Passage

variable {passage : Passage}

/-- A parser carries over the statement that it reads in a passage. -/
abbrev Passage.CarriesStmt (passage : Passage) (parser : Parser Stmt) : Prop :=
  passage.Carries 1 0 (Stmt.Alike passage.like) parser parser

/-- A parser carries over the statements that it reads in a passage, the closing token included. -/
abbrev Passage.CarriesStmts (passage : Passage) (parser : Parser (List Stmt)) : Prop :=
  passage.Carries 0 1 (List.Forall₂ (Stmt.Alike passage.like)) parser parser

namespace Parser

theorem expr_carries : passage.CarriesExpr expr :=
  Level.expr_carries (Level.withInner_carries _)

theorem namedExpr_carries : passage.CarriesExpr namedExpr :=
  Level.namedExpr_carries (Level.withInner_carries _)

theorem target_carries : passage.CarriesExpr Level.outermost.target :=
  Level.target_carries (Level.withInner_carries _)

theorem starExpr_carries : passage.CarriesExpr Level.outermost.starExpr :=
  Level.starExpr_carries (Level.withInner_carries _)

/-! ## Imports -/

/-- Names that are carried over one by one are the same. -/
theorem names_carries {margin : Nat} {names : Parser (List String)}
    (hnames : passage.Carries margin 0 (List.Forall₂ Eq) names names) :
    passage.Carries margin 0 Eq names names :=
  hnames.mono (Nat.le_refl _) fun _ _ hnames => by rwa [List.forall₂_eq_eq_eq] at hnames

private theorem dottedName_carries {margin : Nat} :
    passage.Carries (margin + 1) 0 Eq dottedName dottedName :=
  carries_identifier.bindEq fun _ =>
    (names_carries (carries_repeatWhile (GrammarLoop.dottedName.advances passage.ordered)
      (carries_accept (.inl (by decide))) (carries_identifier.least_le (Nat.zero_le 1)))).bindEq
      fun _ => .pure rfl

/-- A name behind `as` is carried over. -/
theorem boundName_carries {margin : Nat} :
    passage.Carries (margin + 1) 0 Eq (ifAccepted .keywordAs identifier)
      (ifAccepted .keywordAs identifier) :=
  (carries_ifAccepted (.inl (by decide)) (carries_identifier.least_le (Nat.zero_le 1))).mono
    (Nat.le_refl _) fun _ _ hname => by
      cases hname with
      | some hname => rw [hname]
      | none => rfl

private theorem importAlias_carries {margin : Nat} {name : Parser String}
    (hname : passage.Carries (margin + 1) 0 Eq name name) :
    passage.Carries (margin + 1) 0 (ImportAlias.Alike passage.like) (importAlias name)
      (importAlias name) :=
  carries_spanned <| hname.bindEq fun _ => boundName_carries.bindEq fun _ =>
    .pure fun hspan => .mk hspan

private theorem importedName_carries {margin : Nat} :
    passage.Carries (margin + 1) 0 (ImportAlias.Alike passage.like) (importAlias identifier)
      (importAlias identifier) :=
  importAlias_carries (carries_identifier.least_le (Nat.zero_le 1))

private theorem leadingDots_carries : passage.Carries 1 0 Eq leadingDots leadingDots := by
  refine carries_iterate Eq (GrammarLoop.dots.advances passage.ordered) rfl fun hlevel => ?_
  subst hlevel
  exact (carries_accept (.inl (by decide))).bindEq fun _ => .ite (.pure (.next rfl)) <|
    (carries_accept (.inl (by decide))).bindEq fun _ =>
      .ite (.pure (.next rfl)) (.pure (.done rfl))

private theorem typeParamKind_carries : passage.Carries 2 0 Eq typeParamKind typeParamKind :=
  (carries_accept (.inl (by decide))).bindEq fun _ => .ite (.pure rfl) <|
    (carries_accept (.inl (by decide))).bindEq fun _ => .ite (.pure rfl) (.pure rfl)

private theorem typeParam_carries :
    passage.Carries 2 0 (TypeParam.Alike passage.like) typeParam typeParam :=
  carries_spanned <| typeParamKind_carries.bindEq fun _ => carries_identifier.bindEq fun _ =>
    .iteBind _ (carries_ifAccepted (.inl (by decide)) expr_carries.inside) (.pure .none)
      fun _ _ hbound => (carries_ifAccepted (.inl (by decide)) starExpr_carries.inside).bind
        fun _ _ hdefault => .pure fun hspan => .mk hspan hbound hdefault

/-- Type parameters are carried over. -/
theorem typeParams_carries :
    passage.Carries 1 0 (List.Forall₂ (TypeParam.Alike passage.like)) typeParams typeParams := by
  refine (carries_accept (.inl (by decide))).bindEq fun _ => .ite
    ((carries_listUntil (by decide) typeParam_carries).bind fun params params' hparams => ?_)
    (.pure .nil)
  rw [isEmpty_eq hparams]
  exact .check (.pure hparams)

private theorem keywordStmt_carries {form : StmtForm} (hform : form.Alike passage.like form) :
    passage.CarriesStmt (keywordStmt form) :=
  carries_spanned <| carries_take.bind fun _ _ _ => .pure fun hspan => .mk hspan hform

private theorem checkSingleTarget_carries {margin : Nat} {target target' : Expr}
    (htarget : target.Alike passage.like target') :
    passage.Carries margin 0 Eq (checkSingleTarget target) (checkSingleTarget target') := by
  rw [checkSingleTarget, checkSingleTarget, htarget.isSingleTarget_eq]
  exact .ite (.pure rfl) .throw

section

variable (hclosed : passage.Closed)

include hclosed

theorem starExprs_carries : passage.CarriesExpr starExprs :=
  Level.starExprs_carries (Level.withInner_carries _) hclosed.sure

theorem yieldOrStarExprs_carries : passage.CarriesExpr yieldOrStarExprs :=
  Level.yieldOrStarExprs_carries (Level.withInner_carries _) hclosed.sure

private theorem importModules_carries : passage.CarriesStmt importModules :=
  carries_spanned <| (carries_expect .keywordImport).bind fun _ _ _ =>
    (carries_commaSeparated hclosed.sure (GrammarLoop.importedModules.advances passage.ordered)
      (importAlias_carries dottedName_carries)).bind
      fun _ _ hnames => .pure fun hspan => .mk hspan (.importModules hnames)

private theorem importedNames_carries :
    passage.Carries 1 0 (ImportedNames.Alike passage.like) importedNames importedNames := by
  refine (carries_accept (.inl (by decide))).bindEq fun _ => .ite (.pure .all) <|
    (carries_accept (.inl (by decide))).bindEq fun _ => .ite
      ((carries_listUntil (by decide) importedName_carries).bind fun names names' hnames => ?_)
      ((carries_commaSeparated hclosed.sure (GrammarLoop.importedNames.advances passage.ordered)
        importedName_carries).bind fun _ _ hnames => .pure (.specific hnames))
  rw [isEmpty_eq hnames]
  exact .check (.pure (.specific hnames))

private theorem importFrom_carries : passage.CarriesStmt importFrom := by
  refine carries_spanned <| (carries_expect .keywordFrom).bind fun _ _ _ =>
    leadingDots_carries.bindEq fun level => (carries_nextIs (.inl (by decide))).bindEq
      fun _ => .iteBind Eq (.map dottedName_carries ?_) (.pure rfl) ?_
  · rintro name _ rfl
    rfl
  · rintro module _ rfl
    exact .check <| (carries_expect .keywordImport).bind fun _ _ _ =>
      (importedNames_carries hclosed).bind fun _ _ hnames =>
        .pure fun hspan => .mk hspan (.importFrom hnames)

/-! ## Other statements -/

private theorem assertStmt_carries : passage.CarriesStmt assertStmt :=
  carries_spanned <| (carries_expect .keywordAssert).bind fun _ _ _ =>
    expr_carries.bind fun _ _ htest =>
      (carries_ifAccepted (.inr hclosed.sure) expr_carries).bind fun _ _ hmessage =>
        .pure fun hspan => .mk hspan (.assert htest hmessage)

private theorem deleteStmt_carries : passage.CarriesStmt deleteStmt := by
  refine carries_spanned <| (carries_expect .keywordDel).bind fun _ _ _ =>
    target_carries.bind fun first first' hfirst =>
      .bindBy (List.Forall₂ (Expr.Alike passage.like)) ?_ fun _ _ htargets =>
        .pure fun hspan => .mk hspan (.delete htargets)
  exact carries_iterate (List.Forall₂ (Expr.Alike passage.like))
    (GrammarLoop.deleted.advances passage.ordered) (.cons hfirst .nil)
    fun htargets => (carries_accept (.inr hclosed.sure)).bindEq fun _ =>
      .ite ((carries_peekKindSure hclosed.sure).bindEq fun _ =>
        .ite (target_carries.bind fun _ _ htarget => .pure (.next (.cons htarget htargets)))
          (.pure (.done (List.forall₂_reverse_iff.mpr htargets))))
        (.pure (.done (List.forall₂_reverse_iff.mpr htargets)))

private theorem raiseStmt_carries : passage.CarriesStmt raiseStmt :=
  carries_spanned <| (carries_expect .keywordRaise).bind fun _ _ _ =>
    (carries_peekKindSure hclosed.sure).bindEq fun _ =>
      .ite (expr_carries.bind fun _ _ hexception =>
        (carries_ifAccepted (.inl (by decide)) expr_carries).bind fun _ _ hcause =>
          .pure fun hspan => .mk hspan (.raise (.some hexception) hcause))
        (.pure fun hspan => .mk hspan (.raise .none .none))

private theorem returnStmt_carries : passage.CarriesStmt returnStmt :=
  carries_spanned <| (carries_expect .keywordReturn).bind fun _ _ _ =>
    (carries_peekKindSure hclosed.sure).bindEq fun _ =>
      .ite ((starExprs_carries hclosed).bind fun _ _ hvalue =>
        .pure fun hspan => .mk hspan (.return (.some hvalue)))
        (.pure fun hspan => .mk hspan (.return .none))

omit hclosed in
private theorem typeAliasStmt_carries : passage.CarriesStmt typeAliasStmt :=
  carries_spanned <| carries_take.bind fun _ _ _ => carries_identifier.bindEq fun _ =>
    typeParams_carries.bind fun _ _ hparams => (carries_expect .equals).bind fun _ _ _ =>
      expr_carries.bind fun _ _ hvalue => .pure fun hspan => .mk hspan (.typeAlias hparams hvalue)

private theorem namesStmt_carries {form : List String → StmtForm}
    (hform : ∀ names, (form names).Alike passage.like (form names)) :
    passage.CarriesStmt (namesStmt form) :=
  carries_spanned <| carries_take.bind fun _ _ _ =>
    (names_carries (carries_commaSeparated hclosed.sure (GrammarLoop.names.advances passage.ordered)
      (carries_identifier.least_le (Nat.zero_le 1)))).bindEq
      fun names => .pure fun hspan => .mk hspan (hform names)

private theorem assignedValues_carries {first first' : Expr}
    (hfirst : first.Alike passage.like first') :
    passage.Carries 1 0
      (fun values values' => List.Forall₂ (Expr.Alike passage.like) values.1 values'.1 ∧
        values.2.Alike passage.like values'.2) (assignedValues first) (assignedValues first') :=
  carries_iterate
    (fun values values' => List.Forall₂ (Expr.Alike passage.like) values.1 values'.1 ∧
      values.2.Alike passage.like values'.2)
    (GrammarLoop.assigned.advances passage.ordered) ⟨.nil, hfirst⟩
    fun hvalues => (carries_accept (.inl (by decide))).bindEq fun _ =>
      .ite ((yieldOrStarExprs_carries hclosed).bind fun _ _ hnext =>
        .pure (.next ⟨.cons hvalues.2 hvalues.1, hnext⟩))
        (.pure (.done ⟨List.forall₂_reverse_iff.mpr hvalues.1, hvalues.2⟩))

private theorem expressionStmt_carries : passage.CarriesStmt expressionStmt := by
  refine carries_spanned <| (yieldOrStarExprs_carries hclosed).bind
    fun first first' hfirst => (carries_peekKindSure hclosed.sure).bindEq fun kind => .ite ?_ ?_
  · exact carries_take.bind fun _ _ _ => (checkSingleTarget_carries hfirst).bindEq fun _ =>
      expr_carries.bind fun _ _ hhint =>
        (carries_ifAccepted (.inl (by decide)) (yieldOrStarExprs_carries hclosed)).bind
          fun _ _ hvalue => .pure fun hspan => .mk hspan (.annotate hfirst hhint hvalue)
  split
  · exact carries_take.bind fun _ _ _ => (checkSingleTarget_carries hfirst).bindEq fun _ =>
      (yieldOrStarExprs_carries hclosed).bind fun _ _ hvalue =>
        .pure fun hspan => .mk hspan (.augment hfirst hvalue)
  refine .ite ((assignedValues_carries hclosed hfirst).bind ?_)
    (.pure fun hspan => .mk hspan (.expression hfirst))
  rintro ⟨targets, value⟩ ⟨targets', value'⟩ ⟨htargets, hvalue⟩
  have hinvalid := findInvalid_alike htargets
  dsimp only
  generalize (targets.find? _) = invalid, (targets'.find? _) = invalid' at hinvalid ⊢
  cases hinvalid with
  | some => exact .throw
  | none => exact .pure fun hspan => .mk hspan (.assign htargets hvalue)

/-- The declaration of a type alias starts in both sequences or in none: behind the closing token
neither a name nor what may follow it is looked for. -/
theorem startsTypeAlias_eq {offset : Nat} {place place' : Place}
    (hat : passage.At offset place place') (hle : offset ≤ passage.length)
    (hname : passage.tokens.kindAt place = .identifier) :
    startsTypeAlias (passage.tokens'.get place'.next) (passage.tokens'.get (place'.next + 1))
        (passage.tokens'.get (place'.next + 2)) =
      startsTypeAlias (passage.tokens.get place.next) (passage.tokens.get (place.next + 1))
        (passage.tokens.get (place.next + 2)) := by
  have hlt := hat.lt_of_isSignificant hclosed hle (by rw [hname]; rfl)
  have htext := (hat.alike_of_closed hclosed hle).text_eq (.inl hname)
  have hsecond : (passage.tokens'.get (place'.next + 1)).kind =
      (passage.tokens.get (place.next + 1)).kind := (hat.step.alike_of_closed hclosed hlt).kind_eq
  simp only [startsTypeAlias, htext, hsecond]
  by_cases hnext : (passage.tokens.get (place.next + 1)).kind = .identifier
  · have hlt' := hat.step.lt_of_isSignificant hclosed hlt (by rw [← Tokens.get_kind_step, hnext]; rfl)
    have hthird : (passage.tokens'.get (place'.next + 2)).kind =
        (passage.tokens.get (place.next + 2)).kind :=
      (hat.step.step.alike_of_closed hclosed hlt').kind_eq
    rw [hthird]
  · rw [beq_eq_false_iff_ne.mpr hnext, Bool.false_and, Bool.false_and, Bool.false_and, Bool.false_and]

/-- What a parser asks of the three tokens that a statement starts with. -/
theorem carries_peekThree {α α' : Type} {least : Nat} {related : α → α' → Prop}
    {others : Token × Token × Token → Parser α} {others' : Token × Token × Token → Parser α'}
    (hothers : ∀ {first first' second second' third third'}, first.Alike passage.like first' →
      (first.kind = .identifier →
        startsTypeAlias first' second' third' = startsTypeAlias first second third) →
      passage.Carries 1 least related (others (first, second, third))
        (others' (first', second', third'))) :
    passage.Carries 1 least related (peekThree >>= others) (peekThree >>= others') := by
  let Starts (three three' : Token × Token × Token) : Prop :=
    three.1.Alike passage.like three'.1 ∧ (three.1.kind = .identifier →
      startsTypeAlias three'.1 three'.2.1 three'.2.2 = startsTypeAlias three.1 three.2.1 three.2.2)
  have hpeek : passage.Carries 1 0 Starts peekThree peekThree := by
    refine carries_of_stays fun offset before before' hat three after hreads => ?_
    obtain ⟨rfl, rfl⟩ := reads_peekThree.mp hreads
    by_cases hle : offset ≤ passage.length
    · exact ⟨rfl, (passage.tokens'.get before'.next, passage.tokens'.get (before'.next + 1),
        passage.tokens'.get (before'.next + 2)), before'.look 2, rfl,
        ⟨hat.alike_of_closed hclosed hle, startsTypeAlias_eq hclosed hat hle⟩,
        fun _ => reads_peekThree.mpr ⟨rfl, rfl⟩⟩
    · obtain ⟨first', hfirst⟩ := passage.exists_alike (passage.tokens.get before.next)
      refine ⟨rfl, (first', passage.tokens.get (before.next + 1),
        passage.tokens.get (before.next + 2)), before'.look 2, rfl, ⟨hfirst, fun hname => ?_⟩,
        fun h => absurd h (by omega)⟩
      simp only [startsTypeAlias, hfirst.text_eq (.inl hname)]
  exact hpeek.bind fun _ _ hstarts => hothers hstarts.1 hstarts.2

private theorem simpleStmt_carries : passage.CarriesStmt simpleStmt := by
  refine carries_peekThree hclosed
    fun {first first' second second' third third'} hfirst hstarts => ?_
  dsimp only
  rw [hfirst.kind_eq]
  split
  case h_1 => exact assertStmt_carries hclosed
  case h_2 => exact keywordStmt_carries .break
  case h_3 => exact keywordStmt_carries .continue
  case h_4 => exact deleteStmt_carries hclosed
  case h_5 => exact importFrom_carries hclosed
  case h_6 => exact namesStmt_carries hclosed fun _ => .global
  case h_7 => exact importModules_carries hclosed
  case h_8 => exact namesStmt_carries hclosed fun _ => .nonlocal
  case h_9 => exact keywordStmt_carries .pass
  case h_10 => exact raiseStmt_carries hclosed
  case h_11 => exact returnStmt_carries hclosed
  case h_12 hkind =>
    rw [hstarts hkind]
    exact .ite typeAliasStmt_carries (expressionStmt_carries hclosed)
  case h_13 => exact expressionStmt_carries hclosed

/-- A line of simple statements is carried over. -/
theorem simpleStmts_carries : passage.CarriesStmts simpleStmts := by
  refine (simpleStmt_carries hclosed).ahead fun first first' hfirst => ?_
  have hothers : passage.Carries 1 0 (List.Forall₂ (Stmt.Alike passage.like))
      (iterate [first] simpleStep) (iterate [first'] simpleStep) :=
    carries_iterate (List.Forall₂ (Stmt.Alike passage.like))
      (GrammarLoop.simpleStmts.advances passage.ordered) (.cons hfirst .nil)
      fun hstmts => (carries_accept (.inl (by decide))).bindEq fun _ =>
        .ite ((carries_nextIs (.inl (by decide))).bindEq fun _ =>
          .ite (.pure (.done (List.forall₂_reverse_iff.mpr hstmts)))
            ((simpleStmt_carries hclosed).bind fun _ _ hstmt => .pure (.next (.cons hstmt hstmts))))
          (.pure (.done (List.forall₂_reverse_iff.mpr hstmts)))
  exact hothers.ahead fun _ _ hstmts =>
    (carries_expectSure hclosed.sure .newline).lead fun _ _ _ => .pure hstmts

end

end Parser

end PythonOutline
