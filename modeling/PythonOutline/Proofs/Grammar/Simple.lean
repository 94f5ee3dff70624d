import PythonOutline.Parser.Simple
import PythonOutline.Proofs.Grammar.Param

/-! # The grammar of simple statements

What the parsers of imports and of the other simple statements read, one rule a parser.
-/

namespace PythonOutline

/-- Whether a form of statement is made of clauses with blocks. -/
def StmtForm.isCompound : StmtForm → Bool
  | .classDef .. | .conditional .. | .forLoop .. | .functionDef .. | .matchCases .. | .tryBlock ..
  | .whileLoop .. | .withBlock .. => true
  | _ => false

namespace Parser

variable {tokens : Tokens} {before after : Place} {stmt : Stmt}

/-! ## Imports -/

/-- A dotted name is its parts with dots between them, however it is spaced. -/
theorem reads_dottedName {name : String}
    (hreads : dottedName.Reads tokens before name after) :
    tokens.kindAt before = .identifier ∧
      ∃ others, Repeats (accept .dot) identifier tokens before.step others after ∧
        name = ".".intercalate ((tokens.get before.next).text :: others) := by
  simp only [dottedName, reads_bind, reads_identifier, reads_repeatWhile, reads_pure, existsAndEq,
    and_true] at hreads
  obtain ⟨hfirst, others, ⟨-, hothers⟩, rfl⟩ := hreads
  exact ⟨hfirst, others, hothers, rfl⟩

/-- An imported name may be bound to another one. -/
theorem reads_importAlias {name : Parser String} {imported : ImportAlias} :
    (importAlias name).Reads tokens before imported after ↔
      ∃ text middle boundAs, name.Reads tokens before text middle ∧
        (ifAccepted .keywordAs identifier).Reads tokens middle boundAs after ∧
        imported = ⟨tokens.spanBetween before.next after.next, text, boundAs⟩ := by
  simp only [importAlias, reads_spanned, reads_bind, reads_pure, existsAndEq, and_true, and_assoc]

/-- An `import` names modules. -/
theorem reads_importModules :
    importModules.Reads tokens before stmt after ↔
      tokens.kindAt before = .keywordImport ∧
        ∃ names,
          (commaSeparated (importAlias dottedName)).Reads tokens before.step names after ∧
          stmt = ⟨tokens.spanBetween before.next after.next, .importModules names⟩ := by
  simp [importModules, and_assoc]

/-- A number of dots is taken, as single dots or in groups of three. -/
theorem reads_leadingDots {count : Nat} (hreads : leadingDots.Reads tokens before count after) :
    before.next ≤ after.next ∧ ∀ index, before.next ≤ index → index < after.next →
      (tokens.get index).kind = .dot ∨ (tokens.get index).kind = .dotDotDot := by
  simp only [leadingDots, reads_iterate] at hreads
  obtain ⟨steps, -, hiterates⟩ := hreads
  generalize 0 = start at hiterates
  induction hiterates with
  | @done _ before after _ hstep =>
    have hend : after.next = before.next := by
      simp at hstep
      obtain ⟨-, -, -, rfl⟩ := hstep
      rfl
    exact ⟨Nat.le_of_eq hend.symm, fun index hle hlt => absurd hlt (by omega)⟩
  | @next _ state state' before middle after _ hstep _ ih =>
    have hdot : (tokens.kindAt before = .dot ∨ tokens.kindAt before = .dotDotDot) ∧
        middle.next = before.next + 1 := by
      simp at hstep
      split at hstep
      · rename_i hdot
        exact ⟨.inl hdot, by rw [hstep.2]; rfl⟩
      · obtain ⟨hdots, -, rfl⟩ := hstep
        exact ⟨.inr hdots, rfl⟩
    obtain ⟨hle, hall⟩ := ih
    refine ⟨by omega, fun index hindex hlt => ?_⟩
    rcases Nat.eq_or_lt_of_le hindex with rfl | hindex
    · exact hdot.1
    · exact hall index (by omega) hlt

/-- What is imported from a module is everything, or names that may stand in parentheses. -/
theorem reads_importedNames {names : ImportedNames} :
    importedNames.Reads tokens before names after ↔
      if tokens.kindAt before = .asterisk then names = .all ∧ after = before.step
      else if tokens.kindAt before = .parenthesisOpen then
        ∃ aliases, (listUntil .parenthesisClose (importAlias identifier)).Reads tokens
            (before.look 0).step aliases after ∧
          aliases ≠ [] ∧ names = .specific aliases
      else
        ∃ aliases, (commaSeparated (importAlias identifier)).Reads tokens (before.look 0) aliases
            after ∧
          names = .specific aliases := by
  simp [importedNames]

/-- An import from a module counts its dots, and the name behind them may be left out only if there
are some. -/
theorem reads_importFrom (hreads : importFrom.Reads tokens before stmt after) :
    tokens.kindAt before = .keywordFrom ∧
      ∃ level middle module last names,
        leadingDots.Reads tokens before.step level middle ∧
        (if tokens.kindAt middle = .identifier then
            ∃ name, dottedName.Reads tokens (middle.look 0) name last ∧ module = some name
          else module = none ∧ last = middle.look 0) ∧
        tokens.kindAt last = .keywordImport ∧
        importedNames.Reads tokens last.step names after ∧
        stmt = ⟨tokens.spanBetween before.next after.next, .importFrom level module names⟩ := by
  simp only [importFrom, ite_bind, reads_spanned, reads_bind, reads_expect, reads_nextIs,
    existsAndEq, true_and, and_true] at hreads
  obtain ⟨make, ⟨hfrom, level, middle, hdots, module, last, hmodule, hrest⟩, rfl⟩ := hreads
  obtain ⟨himport, names, hnames, rfl⟩ : tokens.kindAt last = .keywordImport ∧
      ∃ names, importedNames.Reads tokens last.step names after ∧
        make = fun span => ⟨span, .importFrom level module names⟩ := by
    split at hrest
    · simp at hrest
    · simpa using hrest
  exact ⟨hfrom, level, middle, module, last, names, hdots, by simpa using hmodule, himport, hnames,
    rfl⟩

/-! ## Type parameters -/

/-- The stars in front of a type parameter tell its kind. -/
theorem reads_typeParamKind {kind : TypeParamKind} :
    typeParamKind.Reads tokens before kind after ↔
      if tokens.kindAt before = .asterisk then kind = .typeVarTuple ∧ after = before.step
      else if tokens.kindAt before = .asteriskAsterisk then
        kind = .paramSpec ∧ after = before.step
      else kind = .typeVar ∧ after = before.look 0 := by
  by_cases hdouble : tokens.kindAt before = .asteriskAsterisk
  · simp [typeParamKind, hdouble]
  · simp [typeParamKind, hdouble]

/-- A type parameter may have a bound, if no star stands in front of it, and a default. -/
theorem reads_typeParam {param : TypeParam} (hreads : typeParam.Reads tokens before param after) :
    ∃ kind start bound middle defaultValue, typeParamKind.Reads tokens before kind start ∧
      tokens.kindAt start = .identifier ∧
      (if kind = .typeVar then (ifAccepted .colon expr).Reads tokens start.step bound middle
        else bound = none ∧ middle = start.step) ∧
      (ifAccepted .equals Level.outermost.starExpr).Reads tokens middle defaultValue after ∧
      param = ⟨tokens.spanBetween before.next after.next, (tokens.get start.next).text, kind, bound,
        defaultValue⟩ := by
  simp only [typeParam, ite_bind, reads_spanned, reads_bind, reads_identifier, reads_ite,
    reads_pure, existsAndEq, and_true] at hreads
  obtain ⟨kind, start, bound, middle, defaultValue, ⟨hkind, hname, hbound, hdefault⟩, rfl⟩ := hreads
  exact ⟨kind, start, bound, middle, defaultValue, hkind, hname, hbound, hdefault, rfl⟩

/-- Type parameters stand in brackets, and there is one at least. -/
theorem reads_typeParams {params : List TypeParam} :
    typeParams.Reads tokens before params after ↔
      if tokens.kindAt before = .bracketOpen then
        (listUntil .bracketClose typeParam).Reads tokens before.step params after ∧ params ≠ []
      else params = [] ∧ after = before.look 0 := by
  simp [typeParams]

/-! ## Statements that start with a keyword -/

/-- An `assert` is a condition that may have a message. -/
theorem reads_assertStmt :
    assertStmt.Reads tokens before stmt after ↔
      tokens.kindAt before = .keywordAssert ∧
        ∃ test middle, expr.Reads tokens before.step test middle ∧
          ∃ message, (ifAccepted .comma expr).Reads tokens middle message after ∧
            stmt = ⟨tokens.spanBetween before.next after.next, .assert test message⟩ := by
  simp [assertStmt, and_assoc, -reads_ifAccepted]

/-- A `del` names targets. -/
theorem reads_deleteStmt (hreads : deleteStmt.Reads tokens before stmt after) :
    tokens.kindAt before = .keywordDel ∧
      ∃ first middle others, Level.outermost.target.Reads tokens before.step first middle ∧
        Continues .comma TokenKind.startsExpression Level.outermost.target tokens middle others
          after ∧
        stmt = ⟨tokens.spanBetween before.next after.next, .delete (first :: others)⟩ := by
  simp only [deleteStmt, reads_spanned, reads_bind, reads_expect, reads_iterate, reads_pure,
    existsAndEq, and_true] at hreads
  obtain ⟨first, middle, targets, ⟨hdel, hfirst, count, -, hiterates⟩, rfl⟩ := hreads
  obtain ⟨others, rfl, hcontinues⟩ := Continues.of_iterates .comma TokenKind.startsExpression
    Level.outermost.target (by simp) hiterates
  exact ⟨hdel, first, middle, others, hfirst, hcontinues, rfl⟩

/-- A `raise` may name an exception, and an exception may have a cause. -/
theorem reads_raiseStmt :
    raiseStmt.Reads tokens before stmt after ↔
      tokens.kindAt before = .keywordRaise ∧
        if (tokens.kindAt before.step).startsExpression then
          ∃ exception middle, expr.Reads tokens (before.step.look 0) exception middle ∧
            ∃ cause, (ifAccepted .keywordFrom expr).Reads tokens middle cause after ∧
              stmt = ⟨tokens.spanBetween before.next after.next, .raise (some exception) cause⟩
        else
          after = before.step.look 0 ∧
            stmt = ⟨tokens.spanBetween before.next after.next, .raise none none⟩ := by
  by_cases hstarts : (tokens.kindAt before.step).startsExpression
  · simp [raiseStmt, hstarts, and_assoc, -reads_ifAccepted]
  · simp [raiseStmt, hstarts, and_assoc]

/-- A `return` may have a value. -/
theorem reads_returnStmt :
    returnStmt.Reads tokens before stmt after ↔
      tokens.kindAt before = .keywordReturn ∧
        if (tokens.kindAt before.step).startsExpression then
          ∃ value, starExprs.Reads tokens (before.step.look 0) value after ∧
            stmt = ⟨tokens.spanBetween before.next after.next, .return (some value)⟩
        else
          after = before.step.look 0 ∧
            stmt = ⟨tokens.spanBetween before.next after.next, .return none⟩ := by
  by_cases hstarts : (tokens.kindAt before.step).startsExpression
  · simp [returnStmt, hstarts, and_assoc]
  · simp [returnStmt, hstarts, and_assoc]

/-- An alias has a name, type parameters, and the type that it stands for. -/
theorem reads_typeAliasStmt :
    typeAliasStmt.Reads tokens before stmt after ↔
      tokens.kindAt before.step = .identifier ∧
        ∃ params middle, typeParams.Reads tokens before.step.step params middle ∧
          tokens.kindAt middle = .equals ∧
          ∃ value, expr.Reads tokens middle.step value after ∧
            stmt = ⟨tokens.spanBetween before.next after.next,
              .typeAlias (tokens.get before.step.next).text params value⟩ := by
  simp [typeAliasStmt, and_assoc]

/-- A statement of one keyword has the span of its token. -/
theorem reads_keywordStmt {form : StmtForm} :
    (keywordStmt form).Reads tokens before stmt after ↔
      after = before.step ∧ stmt = ⟨tokens.spanBetween before.next after.next, form⟩ := by
  simp [keywordStmt]

/-- A statement that declares names lists them with commas. -/
theorem reads_namesStmt {form : List String → StmtForm} :
    (namesStmt form).Reads tokens before stmt after ↔
      ∃ names, (commaSeparated identifier).Reads tokens before.step names after ∧
        stmt = ⟨tokens.spanBetween before.next after.next, form names⟩ := by
  simp [namesStmt]

/-! ## Expression statements and assignments -/

private theorem reads_checkSingleTarget {target : Expr} {result : Unit} :
    (checkSingleTarget target).Reads tokens before result after ↔
      target.isSingleTarget ∧ after = before := by
  simp [checkSingleTarget]

/-- Values follow a first one, each behind an equals sign. The last of them is kept apart. -/
inductive Assigns (tokens : Tokens) : Expr → Place → List Expr → Expr → Place → Prop where
  | last {value : Expr} {before : Place} (hequals : tokens.kindAt before ≠ .equals) :
      Assigns tokens value before [] value (before.look 0)
  | assign {value next last : Expr} {targets : List Expr} {before middle after : Place}
      (hequals : tokens.kindAt before = .equals)
      (hnext : yieldOrStarExprs.Reads tokens before.step next middle)
      (hrest : Assigns tokens next middle targets last after) :
      Assigns tokens value before (value :: targets) last after

/-- Each `=` makes a target of what stands in front of it, and what stands behind the last one is
the value. -/
theorem reads_assignedValues {first : Expr} {targets : List Expr} {value : Expr}
    (hreads : (assignedValues first).Reads tokens before (targets, value) after) :
    Assigns tokens first before targets value after := by
  simp only [assignedValues, reads_iterate] at hreads
  obtain ⟨count, -, hiterates⟩ := hreads
  suffices hothers : ∀ {state result : List Expr × Expr},
      Iterates _ tokens count state before result after →
      ∃ others, result.1 = state.1.reverse ++ others ∧
        Assigns tokens state.2 before others result.2 after by
    obtain ⟨others, hresult, hassigns⟩ := hothers hiterates
    rw [List.reverse_nil, List.nil_append] at hresult
    subst hresult
    exact hassigns
  clear hiterates
  intro state result hiterates
  induction hiterates with
  | @done state before after result hstep =>
    obtain ⟨hequals, rfl, rfl⟩ : tokens.kindAt before ≠ .equals ∧
        result = (state.1.reverse, state.2) ∧ after = before.look 0 := by
      simpa using hstep
    exact ⟨[], by simp, .last hequals⟩
  | @next _ state state' before middle _ _ hstep _ ih =>
    obtain ⟨hequals, next, hnext, rfl⟩ : tokens.kindAt before = .equals ∧
        ∃ next, yieldOrStarExprs.Reads tokens before.step next middle ∧
          state' = (state.2 :: state.1, next) := by
      simpa using hstep
    obtain ⟨others, hresult, hassigns⟩ := ih
    exact ⟨state.2 :: others, by simp [hresult], .assign hequals hnext hassigns⟩

/-- What follows the first expression of a statement tells which kind of statement it is. -/
theorem reads_expressionStmt (hreads : expressionStmt.Reads tokens before stmt after) :
    ∃ first middle form, yieldOrStarExprs.Reads tokens before first middle ∧
      stmt = ⟨tokens.spanBetween before.next after.next, form⟩ ∧
      if tokens.kindAt middle = .colon then
        first.isSingleTarget ∧ ∃ hint last value, expr.Reads tokens middle.step hint last ∧
          (ifAccepted .equals yieldOrStarExprs).Reads tokens last value after ∧
          form = .annotate first hint value
      else
        match Operator.augmented? (tokens.kindAt middle) with
        | some operator =>
          first.isSingleTarget ∧ ∃ value, yieldOrStarExprs.Reads tokens middle.step value after ∧
            form = .augment operator first value
        | none =>
          if tokens.kindAt middle = .equals then
            ∃ targets value, Assigns tokens first (middle.look 0) targets value after ∧
              (∀ target ∈ targets, target.isTarget) ∧ form = .assign targets value
          else form = .expression first ∧ after = middle.look 0 := by
  simp only [expressionStmt, reads_spanned, reads_bind, reads_peekKind, existsAndEq, true_and,
    and_true] at hreads
  obtain ⟨make, ⟨first, middle, hfirst, hrest⟩, rfl⟩ := hreads
  by_cases hcolon : tokens.kindAt middle = .colon
  · simp [hcolon, reads_checkSingleTarget, -reads_ifAccepted] at hrest
    obtain ⟨hsingle, hint, last, hhint, value, hvalue, rfl⟩ := hrest
    refine ⟨first, middle, _, hfirst, rfl, ?_⟩
    rw [if_pos hcolon]
    exact ⟨hsingle, hint, last, value, hhint, hvalue, rfl⟩
  · simp [hcolon] at hrest
    cases haugmented : Operator.augmented? (tokens.kindAt middle) with
    | some operator =>
      simp [haugmented, reads_checkSingleTarget] at hrest
      obtain ⟨hsingle, value, hvalue, rfl⟩ := hrest
      refine ⟨first, middle, _, hfirst, rfl, ?_⟩
      rw [if_neg hcolon, haugmented]
      exact ⟨hsingle, value, hvalue, rfl⟩
    | none =>
      simp [haugmented] at hrest
      split at hrest
      · rename_i hequals
        obtain ⟨targets, value, last, hvalues, hrest⟩ := hrest
        split at hrest
        · simp at hrest
        · rename_i hvalid
          obtain ⟨rfl, rfl⟩ := reads_pure.mp hrest
          refine ⟨first, middle, _, hfirst, rfl, ?_⟩
          rw [if_neg hcolon, haugmented]
          simp only [if_pos hequals]
          have hnone : targets.find? (fun target => !target.isTarget) = none :=
            Option.eq_none_iff_forall_ne_some.mpr hvalid
          exact ⟨targets, value, reads_assignedValues hvalues, by simpa using hnone, rfl⟩
      · rename_i hequals
        obtain ⟨rfl, rfl⟩ := hrest
        refine ⟨first, middle, _, hfirst, rfl, ?_⟩
        rw [if_neg hcolon, haugmented]
        simp only [if_neg hequals, and_self]

/-! ## Lines of simple statements -/

/-- A simple statement is told by its first token, except that `type` needs three. -/
theorem reads_simpleStmt :
    simpleStmt.Reads tokens before stmt after ↔
      match tokens.kindAt before with
      | .keywordAssert => assertStmt.Reads tokens (before.look 2) stmt after
      | .keywordBreak => (keywordStmt .break).Reads tokens (before.look 2) stmt after
      | .keywordContinue => (keywordStmt .continue).Reads tokens (before.look 2) stmt after
      | .keywordDel => deleteStmt.Reads tokens (before.look 2) stmt after
      | .keywordFrom => importFrom.Reads tokens (before.look 2) stmt after
      | .keywordGlobal => (namesStmt .global).Reads tokens (before.look 2) stmt after
      | .keywordImport => importModules.Reads tokens (before.look 2) stmt after
      | .keywordNonlocal => (namesStmt .nonlocal).Reads tokens (before.look 2) stmt after
      | .keywordPass => (keywordStmt .pass).Reads tokens (before.look 2) stmt after
      | .keywordRaise => raiseStmt.Reads tokens (before.look 2) stmt after
      | .keywordReturn => returnStmt.Reads tokens (before.look 2) stmt after
      | .identifier =>
        if startsTypeAlias (tokens.get before.next) (tokens.get (before.next + 1))
            (tokens.get (before.next + 2)) then
          typeAliasStmt.Reads tokens (before.look 2) stmt after
        else expressionStmt.Reads tokens (before.look 2) stmt after
      | _ => expressionStmt.Reads tokens (before.look 2) stmt after := by
  simp only [simpleStmt, reads_bind, reads_peekThree, existsAndEq, true_and, and_true,
    Tokens.get_kind]
  generalize tokens.kindAt before = kind
  split <;> simp

/-- No simple statement has a block. -/
theorem simpleStmt_isCompound (hreads : simpleStmt.Reads tokens before stmt after) :
    stmt.form.isCompound = false := by
  rw [reads_simpleStmt] at hreads
  have hexpression : ∀ {place : Place}, expressionStmt.Reads tokens place stmt after →
      stmt.form.isCompound = false := by
    intro place hreads
    obtain ⟨first, middle, form, -, rfl, hrest⟩ := reads_expressionStmt hreads
    split at hrest
    · obtain ⟨-, hint, last, value, -, -, rfl⟩ := hrest
      rfl
    · split at hrest
      · obtain ⟨-, value, -, rfl⟩ := hrest
        rfl
      · split at hrest
        · obtain ⟨targets, value, -, -, rfl⟩ := hrest
          rfl
        · obtain ⟨rfl, -⟩ := hrest
          rfl
  split at hreads
  case h_1 =>
    obtain ⟨-, test, middle, -, message, -, rfl⟩ := reads_assertStmt.mp hreads
    rfl
  case h_4 =>
    obtain ⟨-, first, middle, others, -, -, rfl⟩ := reads_deleteStmt hreads
    rfl
  case h_5 =>
    obtain ⟨-, level, middle, module, last, names, -, -, -, -, rfl⟩ := reads_importFrom hreads
    rfl
  case h_7 =>
    obtain ⟨-, names, -, rfl⟩ := reads_importModules.mp hreads
    rfl
  case h_10 =>
    obtain ⟨-, hrest⟩ := reads_raiseStmt.mp hreads
    split at hrest
    · obtain ⟨exception, middle, -, cause, -, rfl⟩ := hrest
      rfl
    · obtain ⟨-, rfl⟩ := hrest
      rfl
  case h_11 =>
    obtain ⟨-, hrest⟩ := reads_returnStmt.mp hreads
    split at hrest
    · obtain ⟨value, -, rfl⟩ := hrest
      rfl
    · obtain ⟨-, rfl⟩ := hrest
      rfl
  case h_12 =>
    split at hreads
    · obtain ⟨-, params, middle, -, -, value, -, rfl⟩ := reads_typeAliasStmt.mp hreads
      rfl
    · exact hexpression hreads
  case h_13 => exact hexpression hreads
  case h_6 | h_8 =>
    obtain ⟨names, -, rfl⟩ := reads_namesStmt.mp hreads
    rfl
  all_goals
    obtain ⟨-, rfl⟩ := reads_keywordStmt.mp hreads
    rfl

/-- A line of simple statements has `;` between them and ends with a line break. -/
theorem reads_simpleStmts {stmts : List Stmt}
    (hreads : simpleStmts.Reads tokens before stmts after) :
    ∃ first middle others last, simpleStmt.Reads tokens before first middle ∧
      Continues .semicolon (· != .newline) simpleStmt tokens middle others last ∧
      tokens.kindAt last = .newline ∧ after = last.step ∧ stmts = first :: others := by
  simp only [simpleStmts, reads_bind, reads_iterate, reads_expect, reads_pure, existsAndEq,
    and_true] at hreads
  obtain ⟨first, middle, hfirst, last, ⟨count, -, hiterates⟩, hline, -, rfl⟩ := hreads
  obtain ⟨others, rfl, hcontinues⟩ :=
    Continues.of_iterates .semicolon (· != .newline) simpleStmt (by simp) hiterates
  exact ⟨first, middle, others, last, hfirst, hcontinues, hline, rfl, rfl⟩

/-- No statement of a line of simple statements has a block. -/
theorem simpleStmts_isCompound {stmts : List Stmt}
    (hreads : simpleStmts.Reads tokens before stmts after) :
    ∀ stmt ∈ stmts, stmt.form.isCompound = false := by
  obtain ⟨first, middle, others, last, hfirst, hothers, -, -, rfl⟩ := reads_simpleStmts hreads
  refine List.forall_mem_cons.mpr ⟨simpleStmt_isCompound hfirst, ?_⟩
  clear hfirst hreads
  induction hothers with
  | stop | trailing => simp
  | item _ _ hitem _ ih => exact List.forall_mem_cons.mpr ⟨simpleStmt_isCompound hitem, ih⟩

end Parser

end PythonOutline
