import PythonOutline.Proofs.Grammar.DepthExpr

/-! # How deep expressions nest

Over two numbers of nesting levels that are both not less than the number of tokens left, every
parser of expressions is the same, whatever the innermost level is.
-/

namespace PythonOutline

open PythonOutline.Parser

namespace Level

variable {tokens : Tokens} {bound low : Nat} {level level' : Level}

private theorem startsForClause_sameFrom :
    SameFrom tokens bound low startsForClause startsForClause :=
  sameInside_of_stays fun _ _ _ hreads => by rw [(reads_startsForClause.mp hreads).2]; rfl

section

variable (hends : tokens.EndsAt bound) (hlevel : level.Agrees tokens bound low level')

include hends hlevel

/-! ## Displays -/

private theorem forClause_sameFrom :
    SameFrom tokens bound low level.forClause level'.forClause := by
  refine .spanned <| (sameInside_accept hends.keeps (by decide)).bind fun _ =>
    (sameInside_expect hends.keeps (by decide)).bind fun _ =>
      (targetList_sameFrom hends hlevel).bind fun _ =>
        (sameInside_expect hends.keeps (by decide)).bind fun _ =>
          (orTest_sameFrom hends hlevel).bind fun _ =>
            (sameInside_repeatWhile (sameInside_nextIs _) ?_).bind fun _ => .pure _
  intro place start hplace hreads
  obtain ⟨hkind, rfl⟩ := reads_nextIs.mp hreads
  have hnext : tokens.kindAt place = .keywordIf := by simpa using hkind
  exact sameAt_take hends hplace hnext (by decide) fun _ =>
    orTest_sameFrom hends (hlevel.mono (Nat.le_succ low))

private theorem forClauses_sameFrom :
    SameFrom tokens bound low level.forClauses level'.forClauses :=
  (forClause_sameFrom hends hlevel).repeatWhile startsForClause_sameFrom

private theorem comprehension_sameFrom (start : Nat) {close : TokenKind}
    (hclose : close ≠ .endOfInput) (kind : ComprehensionKind) (element : Expr)
    (value : Option Expr) :
    SameFrom tokens bound low (level.comprehension start close kind element value)
      (level'.comprehension start close kind element value) :=
  (forClauses_sameFrom hends hlevel).bind fun _ =>
    (sameInside_expect hends.keeps hclose).bind fun _ => sameInside_since start

private theorem displayElements_sameFrom {close : TokenKind} (hclose : close ≠ .endOfInput) :
    SameFrom tokens bound low (level.displayElements close) (level'.displayElements close) :=
  sameInside_listUntil hends.keeps (by decide) hclose (starNamedExpr_sameFrom hends hlevel)

omit hlevel in
private theorem parenDisplay_sameFrom (hlevel : level.Agrees tokens bound (low + 1) level') :
    SameFrom tokens bound low level.parenDisplay level'.parenDisplay := by
  refine sameInside_mark.bind fun start => sameFrom_expect hends (by decide) fun _ =>
    (sameInside_accept hends.keeps (by decide)).bind fun _ => .ite (sameInside_since start) <|
      (sameInside_nextIs _).bind fun _ => .ite ?_ ?_
  · exact (yieldExpr_sameFrom hends hlevel).bind fun _ =>
      (sameInside_expect hends.keeps (by decide)).bind fun _ => .pure _
  · exact (starNamedExpr_sameFrom hends hlevel).bind fun first =>
      startsForClause_sameFrom.bind fun _ =>
        .ite (comprehension_sameFrom hends hlevel start (by decide) _ _ _) <|
          (sameInside_accept hends.keeps (by decide)).bind fun _ =>
            .ite ((displayElements_sameFrom hends hlevel (by decide)).bind fun _ =>
              sameInside_since start)
              ((sameInside_expect hends.keeps (by decide)).bind fun _ => .pure _)

omit hlevel in
private theorem listDisplay_sameFrom (hlevel : level.Agrees tokens bound (low + 1) level') :
    SameFrom tokens bound low level.listDisplay level'.listDisplay :=
  sameInside_mark.bind fun start => sameFrom_expect hends (by decide) fun _ =>
    (sameInside_nextIs _).bind fun _ =>
      .ite ((displayElements_sameFrom hends hlevel (by decide)).bind fun _ =>
        sameInside_since start) <|
        (starNamedExpr_sameFrom hends hlevel).bind fun first =>
          startsForClause_sameFrom.bind fun _ =>
            .ite (comprehension_sameFrom hends hlevel start (by decide) _ _ _) <|
              (sameInside_accept hends.keeps (by decide)).bind fun _ =>
                .ite ((displayElements_sameFrom hends hlevel (by decide)).bind fun _ =>
                  sameInside_since start)
                  ((sameInside_expect hends.keeps (by decide)).bind fun _ =>
                    sameInside_since start)

private theorem dictEntry_sameFrom : SameFrom tokens bound low level.dictEntry level'.dictEntry :=
  .spanned <| (sameInside_accept hends.keeps (by decide)).bind fun _ =>
    .ite ((bitwiseOr_sameFrom hends hlevel).bind fun _ => .pure _) <|
      (expr_sameFrom hends hlevel).bind fun _ =>
        (sameInside_expect hends.keeps (by decide)).bind fun _ =>
          (expr_sameFrom hends hlevel).bind fun _ => .pure _

private theorem dictEntries_sameFrom :
    SameFrom tokens bound low (listUntil .braceClose level.dictEntry)
      (listUntil .braceClose level'.dictEntry) :=
  sameInside_listUntil hends.keeps (by decide) (by decide) (dictEntry_sameFrom hends hlevel)

private theorem setDisplay_sameFrom (start : Nat) (first : Expr) :
    SameFrom tokens bound low (level.setDisplay start first) (level'.setDisplay start first) :=
  startsForClause_sameFrom.bind fun _ =>
    .ite (comprehension_sameFrom hends hlevel start (by decide) _ _ _) <|
      (sameInside_accept hends.keeps (by decide)).bind fun _ =>
        .ite ((displayElements_sameFrom hends hlevel (by decide)).bind fun _ =>
          sameInside_since start)
          ((sameInside_expect hends.keeps (by decide)).bind fun _ => sameInside_since start)

private theorem dictDisplay_sameFrom (start entryStart : Nat) (key : Expr) :
    SameFrom tokens bound low (level.dictDisplay start entryStart key)
      (level'.dictDisplay start entryStart key) :=
  (expr_sameFrom hends hlevel).bind fun value => startsForClause_sameFrom.bind fun _ =>
    .ite (comprehension_sameFrom hends hlevel start (by decide) _ _ _) <|
      (sameInside_spanSince entryStart).bind fun _ =>
        (sameInside_accept hends.keeps (by decide)).bind fun _ =>
          .ite ((dictEntries_sameFrom hends hlevel).bind fun _ => sameInside_since start)
            ((sameInside_expect hends.keeps (by decide)).bind fun _ => sameInside_since start)

omit hlevel in
private theorem braceDisplay_sameFrom (hlevel : level.Agrees tokens bound (low + 1) level') :
    SameFrom tokens bound low level.braceDisplay level'.braceDisplay :=
  sameInside_mark.bind fun start => sameFrom_expect hends (by decide) fun _ =>
    sameInside_peekKind.bind fun kind =>
      .ite ((dictEntries_sameFrom hends hlevel).bind fun _ => sameInside_since start) <|
        sameInside_mark.bind fun entryStart =>
          (starNamedExpr_sameFrom hends hlevel).bind fun first =>
            (sameInside_accept hends.keeps (by decide)).bind fun _ =>
              .ite (dictDisplay_sameFrom hends hlevel start entryStart first)
                (setDisplay_sameFrom hends hlevel start first)

/-! ## Arguments and subscripts -/

private theorem argument_sameFrom : SameFrom tokens bound low level.argument level'.argument := by
  have hpositional :
      SameFrom tokens bound low level.positionalArgument level'.positionalArgument :=
    sameInside_mark.bind fun start => (namedExpr_sameFrom hends hlevel).bind fun value =>
      startsForClause_sameFrom.bind fun _ =>
        .ite ((forClauses_sameFrom hends hlevel).bind fun _ => sameInside_since start)
          (.pure _)
  have hbehind := expr_sameFrom hends (hlevel.mono (Nat.le_succ low))
  refine .spanned fun place hplace => ?_
  refine .bind rfl fun pair middle hpair => ?_
  obtain ⟨rfl, rfl⟩ := reads_peekTwo.mp hpair
  dsimp only
  split
  case h_1 hkind =>
    exact sameAt_take hends hplace hkind (by decide) fun _ =>
      hbehind.bind fun _ => .pure _
  case h_2 hkind =>
    exact sameAt_take hends hplace hkind (by decide) fun _ =>
      hbehind.bind fun _ => .pure _
  case h_3 =>
    refine SameInside.ite ?_ (hpositional.bind fun _ => .pure _) hplace
    exact (takes_identifier.sameFrom hends).bind fun _ =>
      (sameInside_expect hends.keeps (by decide)).bind fun _ =>
        (expr_sameFrom hends hlevel).bind fun _ => .pure _
  case h_4 => exact (hpositional.bind fun _ => .pure _) hplace

private theorem arguments_sameFrom :
    SameFrom tokens bound low level.arguments level'.arguments := by
  have hlist := sameInside_listUntil hends.keeps (by decide)
    (show TokenKind.parenthesisClose ≠ .endOfInput by decide)
    (argument_sameFrom hends hlevel)
  refine hlist.bind fun arguments => ?_
  split
  · exact .throw
  · exact .pure _

private theorem sliceBound_sameFrom :
    SameFrom tokens bound low level.sliceBound level'.sliceBound := by
  refine sameInside_peekKind.bind fun kind => ?_
  split
  case h_4 => exact (expr_sameFrom hends hlevel).bind fun _ => .pure _
  all_goals exact .pure _

private theorem sliceRest_sameFrom (start : Nat) (lower : Option Expr) :
    SameFrom tokens bound low (level.sliceRest start lower) (level'.sliceRest start lower) :=
  (sameInside_expect hends.keeps (by decide)).bind fun _ =>
    (sliceBound_sameFrom hends hlevel).bind fun _ =>
      (sameInside_accept hends.keeps (by decide)).bind fun _ =>
        .iteBind (sliceBound_sameFrom hends hlevel) (.pure _) fun _ =>
          sameInside_since start

private theorem sliceItem_sameFrom : SameFrom tokens bound low level.sliceItem level'.sliceItem :=
  sameInside_mark.bind fun start => (sameInside_nextIs _).bind fun _ =>
    .ite (sliceRest_sameFrom hends hlevel start none) <|
      (starNamedExpr_sameFrom hends hlevel).bind fun value =>
        (sameInside_nextIs _).bind fun _ =>
          .ite (sliceRest_sameFrom hends hlevel start (some value)) (.pure _)

private theorem subscript_sameFrom :
    SameFrom tokens bound low level.subscript level'.subscript := by
  refine sameInside_mark.bind fun start => (sliceItem_sameFrom hends hlevel).bind
    fun first => (sameInside_nextIs _).bind fun _ => .ite ?_ (.pure _)
  refine (sameInside_iterate (fun elements => ?_) [first]).bind fun _ => sameInside_since start
  exact (sameInside_accept hends.keeps (by decide)).bind fun _ =>
    .ite ((sameInside_nextIs _).bind fun _ =>
      .ite (.pure _) ((sliceItem_sameFrom hends hlevel).bind fun _ => .pure _)) (.pure _)

/-! ## Parameters -/

private theorem param_sameFrom (kind : ParamKind) (typeHints : Bool) :
    SameFrom tokens bound low (level.param kind typeHints) (level'.param kind typeHints) := by
  refine .spanned <| (takes_identifier.sameFrom hends).bind fun name =>
    .iteBind (sameInside_accept hends.keeps (by decide)) (.pure _) fun hinted => ?_
  refine .iteBind (.map _ ?_) (.pure _) fun hint =>
    .iteBind (.pure _) ((expr_sameFrom hends hlevel).ifAccepted hends.keeps (by decide))
      fun _ => .pure _
  exact .ite (starExpr_sameFrom hends hlevel) (expr_sameFrom hends hlevel)

private theorem paramsEntry_sameFrom (typeHints : Bool) (state : ParamsState) :
    SameFrom tokens bound low (level.paramsEntry typeHints state)
      (level'.paramsEntry typeHints state) := by
  have hparam := fun kind => param_sameFrom hends hlevel kind typeHints
  have hbehind := fun kind =>
    param_sameFrom hends (hlevel.mono (Nat.le_succ low)) kind typeHints
  intro place hplace
  refine .bind rfl fun token middle htoken => ?_
  obtain ⟨rfl, rfl⟩ := reads_peek.mp htoken
  refine .ite (SameInside.throw hplace) ?_
  dsimp only
  split
  case h_1 hkind =>
    refine sameAt_take hends hplace hkind (by decide) fun _ => ?_
    split
    · exact .pure _
    · exact .throw
  case h_2 hkind _ =>
    refine sameAt_take hends hplace hkind (by decide) fun _ => ?_
    exact (sameInside_nextIs _).bind fun _ =>
      .ite (.pure _) ((hbehind .varPositional).bind fun _ => .pure _)
  case h_3 hkind =>
    exact sameAt_take hends hplace hkind (by decide) fun _ =>
      (hbehind .varKeyword).bind fun _ => .pure _
  case h_4 => exact ((hparam .keywordOnly).bind fun _ => .pure _) hplace
  case h_5 => exact ((hparam .regular).bind fun _ => .ite .throw (.pure _)) hplace

private theorem params_sameFrom {close : TokenKind} (hclose : close ≠ .endOfInput)
    (typeHints : Bool) :
    SameFrom tokens bound low (level.params close typeHints) (level'.params close typeHints) :=
  sameInside_iterate (fun state => (sameInside_accept hends.keeps hclose).bind fun _ =>
    .ite (.pure _) <| (paramsEntry_sameFrom hends hlevel typeHints state).bind fun _ =>
      (sameInside_accept hends.keeps (by decide)).bind fun _ => .ite (.pure _) <|
        (sameInside_expect hends.keeps hclose).bind fun _ => .pure _) _

omit hlevel in
private theorem lambdaExpr_sameFrom (hlevel : level.Agrees tokens bound (low + 1) level') :
    SameFrom tokens bound low level.lambdaExpr level'.lambdaExpr :=
  .spanned <| sameFrom_expect hends (by decide) fun _ =>
    (params_sameFrom hends hlevel (by decide) false).bind fun _ =>
      (expr_sameFrom hends hlevel).bind fun _ => .pure _

/-! ## Levels -/

end

section

variable {innermost innermost' : Level}

/-- The level from which a number of further levels may be opened, the last of which is given. -/
def nesting (innermost : Level) : (count : Nat) → Level
  | 0 => innermost
  | count + 1 => (nesting innermost count).around

/-- The levels of the grammar are a number of them around the innermost one. -/
theorem nesting_innermost (count : Nat) : nesting Level.innermost count = withInner count := by
  induction count with
  | zero => rfl
  | succ count ih => rw [nesting, withInner, ih]

/-- A parser that takes a token first is the same in front of it. -/
theorem sameBefore_of_sameFrom {α : Type} {kind : TokenKind} {parser parser' : Parser α}
    (hends : tokens.EndsAt bound) (hkind : kind ≠ .endOfInput)
    (hparser : ∀ ⦃start⦄, low ≤ start → SameFrom tokens bound start parser parser') :
    SameBefore tokens bound low kind parser parser' := by
  intro place hplace hnext
  exact hparser hplace (hends.between hnext hkind)

/-- Levels round two levels that agree from the next index on agree from an index on. -/
theorem around_agrees (hends : tokens.EndsAt bound)
    (hlevel : level.Agrees tokens bound (low + 1) level') :
    level.around.Agrees tokens bound low level'.around := by
  have hbehind : ∀ {start : Nat}, low ≤ start → level.Agrees tokens bound (start + 1) level' :=
    fun hle => hlevel.mono (Nat.succ_le_succ hle)
  exact {
    innerLambda := sameBefore_of_sameFrom hends (by decide) fun start hle =>
      lambdaExpr_sameFrom hends (hbehind hle)
    innerExpr := fun start hlt => expr_sameFrom hends (hlevel.mono hlt)
    innerNotTest := fun start hlt => notTest_sameFrom hends (hlevel.mono hlt)
    innerFactor := fun start hlt => factor_sameFrom hends (hlevel.mono hlt)
    innerArguments := by
      intro place hplace hkind
      exact sameAt_take hends (hends.between hkind (by decide)) hkind (by decide) fun _ =>
        arguments_sameFrom hends (hbehind hplace)
    innerIndex := by
      intro place hplace hkind
      exact sameAt_take hends (hends.between hkind (by decide)) hkind (by decide) fun _ =>
        (subscript_sameFrom hends (hbehind hplace)).bind fun _ =>
          (sameInside_expect hends.keeps (by decide)).bind fun _ => .pure _
    innerParens := sameBefore_of_sameFrom hends (by decide) fun start hle =>
      parenDisplay_sameFrom hends (hbehind hle)
    innerBrackets := sameBefore_of_sameFrom hends (by decide) fun start hle =>
      listDisplay_sameFrom hends (hbehind hle)
    innerBraces := sameBefore_of_sameFrom hends (by decide) fun start hle =>
      braceDisplay_sameFrom hends (hbehind hle) }

/-- Any two levels agree behind the last token of the input: nothing is opened there. -/
theorem agrees_of_le (hends : tokens.EndsAt bound) (hle : bound ≤ low) :
    level.Agrees tokens bound low level' := by
  have hbefore : ∀ {α : Type} {kind : TokenKind} {parser parser' : Parser α},
      kind ≠ .endOfInput → SameBefore tokens bound low kind parser parser' := by
    intro α kind parser parser' hkind place hplace hnext
    have hlt : place.next < bound := hends.lt (hnext ▸ hkind)
    omega
  have hbehind : ∀ {parser parser' : Parser Expr}, SameBehind tokens bound low parser parser' := by
    intro parser parser' start hlt place hplace
    obtain ⟨hstart, hbound⟩ := hplace
    omega
  exact ⟨hbefore (by decide), hbehind, hbehind, hbehind, hbefore (by decide), hbefore (by decide),
    hbefore (by decide), hbefore (by decide), hbefore (by decide)⟩

/-- Levels inside which as many may be opened as there are tokens left agree, whatever the innermost
ones are. -/
theorem nesting_agrees (hends : tokens.EndsAt bound)
    {count count' : Nat} (hcount : bound ≤ low + count) (hcount' : bound ≤ low + count') :
    (nesting innermost count).Agrees tokens bound low (nesting innermost' count') := by
  -- What a level opens stands behind a token, so every level in between may start one index later.
  induction count generalizing low count' with
  | zero => exact agrees_of_le hends hcount
  | succ count ih =>
    cases count' with
    | zero => exact agrees_of_le hends hcount'
    | succ count' => exact around_agrees hends (ih (by omega) (by omega))

end

end Level

/-- The methods of expressions, over the level that they stand at. Those that read up to a closing
token are told one that is not the end of the input. -/
inductive LevelMethod : {α : Type} → (Level → Parser α) → Prop where
  | atom : LevelMethod Level.atom
  | primary : LevelMethod Level.primary
  | awaited : LevelMethod Level.awaited
  | power : LevelMethod Level.power
  | factor : LevelMethod Level.factor
  | binary (tiers : Nat) : LevelMethod fun level => level.binary tiers
  | bitwiseOr : LevelMethod Level.bitwiseOr
  | comparison : LevelMethod Level.comparison
  | notTest : LevelMethod Level.notTest
  | andTest : LevelMethod Level.andTest
  | orTest : LevelMethod Level.orTest
  | expr : LevelMethod Level.expr
  | lambdaExpr : LevelMethod Level.lambdaExpr
  | namedExpr : LevelMethod Level.namedExpr
  | starred : LevelMethod Level.starred
  | starExpr : LevelMethod Level.starExpr
  | starNamedExpr : LevelMethod Level.starNamedExpr
  | starExprs : LevelMethod Level.starExprs
  | starNamedExprs : LevelMethod Level.starNamedExprs
  | yieldExpr : LevelMethod Level.yieldExpr
  | yieldOrStarExprs : LevelMethod Level.yieldOrStarExprs
  | targetList : LevelMethod Level.targetList
  | target : LevelMethod Level.target
  | forClause : LevelMethod Level.forClause
  | forClauses : LevelMethod Level.forClauses
  | comprehension (start : Nat) {close : TokenKind} (hclose : close ≠ .endOfInput)
      (kind : ComprehensionKind) (element : Expr) (value : Option Expr) :
      LevelMethod fun level => level.comprehension start close kind element value
  | displayElements {close : TokenKind} (hclose : close ≠ .endOfInput) :
      LevelMethod fun level => level.displayElements close
  | parenDisplay : LevelMethod Level.parenDisplay
  | listDisplay : LevelMethod Level.listDisplay
  | dictEntry : LevelMethod Level.dictEntry
  | braceDisplay : LevelMethod Level.braceDisplay
  | argument : LevelMethod Level.argument
  | arguments : LevelMethod Level.arguments
  | subscript : LevelMethod Level.subscript
  | sliceBound : LevelMethod Level.sliceBound
  | sliceItem : LevelMethod Level.sliceItem
  | param (kind : ParamKind) (typeHints : Bool) :
      LevelMethod fun level => level.param kind typeHints
  | params {close : TokenKind} (hclose : close ≠ .endOfInput) (typeHints : Bool) :
      LevelMethod fun level => level.params close typeHints

namespace LevelMethod

open Level

variable {α : Type} {parser : Level → Parser α} {tokens : Tokens} {bound low : Nat}

/-- A method of expressions is the same over two levels that agree. -/
theorem sameFrom (hmethod : LevelMethod parser) (hends : tokens.EndsAt bound) {level level' : Level}
    (hlevel : level.Agrees tokens bound low level') :
    SameFrom tokens bound low (parser level) (parser level') := by
  have hbehind := hlevel.mono (Nat.le_succ low)
  cases hmethod with
  | atom => exact atom_sameFrom hends hlevel
  | primary => exact primary_sameFrom hends hlevel
  | awaited => exact awaited_sameFrom hends hlevel
  | power => exact power_sameFrom hends hlevel
  | factor => exact factor_sameFrom hends hlevel
  | binary tiers => exact binary_sameFrom hends hlevel tiers
  | bitwiseOr => exact bitwiseOr_sameFrom hends hlevel
  | comparison => exact comparison_sameFrom hends hlevel
  | notTest => exact notTest_sameFrom hends hlevel
  | andTest => exact andTest_sameFrom hends hlevel
  | orTest => exact orTest_sameFrom hends hlevel
  | expr => exact expr_sameFrom hends hlevel
  | lambdaExpr => exact lambdaExpr_sameFrom hends hbehind
  | namedExpr => exact namedExpr_sameFrom hends hlevel
  | starred => exact starred_sameFrom hends hlevel
  | starExpr => exact starExpr_sameFrom hends hlevel
  | starNamedExpr => exact starNamedExpr_sameFrom hends hlevel
  | starExprs => exact starExprs_sameFrom hends hlevel
  | starNamedExprs => exact starNamedExprs_sameFrom hends hlevel
  | yieldExpr => exact yieldExpr_sameFrom hends hlevel
  | yieldOrStarExprs => exact yieldOrStarExprs_sameFrom hends hlevel
  | targetList => exact targetList_sameFrom hends hlevel
  | target => exact target_sameFrom hends hlevel
  | forClause => exact forClause_sameFrom hends hlevel
  | forClauses => exact forClauses_sameFrom hends hlevel
  | comprehension start hclose kind element value =>
    exact comprehension_sameFrom hends hlevel start hclose kind element value
  | displayElements hclose => exact displayElements_sameFrom hends hlevel hclose
  | parenDisplay => exact parenDisplay_sameFrom hends hbehind
  | listDisplay => exact listDisplay_sameFrom hends hbehind
  | dictEntry => exact dictEntry_sameFrom hends hlevel
  | braceDisplay => exact braceDisplay_sameFrom hends hbehind
  | argument => exact argument_sameFrom hends hlevel
  | arguments => exact arguments_sameFrom hends hlevel
  | subscript => exact subscript_sameFrom hends hlevel
  | sliceBound => exact sliceBound_sameFrom hends hlevel
  | sliceItem => exact sliceItem_sameFrom hends hlevel
  | param kind typeHints => exact param_sameFrom hends hlevel kind typeHints
  | params hclose typeHints => exact params_sameFrom hends hlevel hclose typeHints

/-- Over as many levels as there are tokens left a method of expressions is the same, whatever the
innermost level is. -/
theorem nesting_eq (hmethod : LevelMethod parser) (hends : tokens.EndsAt bound)
    {innermost innermost' : Level} {count count' : Nat} {place : Place}
    (hplace : place.next ≤ bound) (hcount : bound ≤ place.next + count)
    (hcount' : bound ≤ place.next + count') :
    parser (nesting innermost' count') tokens place =
      parser (nesting innermost count) tokens place :=
  have hlevel := nesting_agrees hends hcount hcount'
  (hmethod.sameFrom hends hlevel ⟨Nat.le_refl _, hplace⟩).1

end LevelMethod

end PythonOutline
