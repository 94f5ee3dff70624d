import PythonOutline.Proofs.Grammar.EndOfInput
import PythonOutline.Proofs.Parser.Inside

/-! # How deep operands and operators nest

What opens a nesting level of expressions takes a token or stands behind one. So two levels need
to agree only from the next token on for the parsers around them to be the same at a place, and
not at all behind the last token of the input.
-/

namespace PythonOutline

open PythonOutline.Parser

/-- The indices from one up to another. -/
def Between (low bound index : Nat) : Prop :=
  low ≤ index ∧ index ≤ bound

/-- A place between bounds is between wider ones. -/
theorem Between.mono {low start bound index : Nat} (hindex : Between start bound index)
    (hle : low ≤ start) : Between low bound index :=
  ⟨Nat.le_trans hle hindex.1, hindex.2⟩

/-- Two parsers do the same wherever they start from an index on, and end where they start or
behind. -/
abbrev Parser.SameFrom {α : Type} (tokens : Tokens) (bound low : Nat) (parser parser' : Parser α) :
    Prop :=
  SameInside tokens (Between low bound) parser parser'

/-- Two parsers do the same wherever they start behind an index. -/
def Parser.SameBehind {α : Type} (tokens : Tokens) (bound low : Nat) (parser parser' : Parser α) :
    Prop :=
  ∀ ⦃start⦄, low < start → SameFrom tokens bound start parser parser'

/-- Two parsers do the same in front of any token of a kind from an index on. -/
def Parser.SameBefore {α : Type} (tokens : Tokens) (bound low : Nat) (kind : TokenKind)
    (parser parser' : Parser α) : Prop :=
  ∀ ⦃place⦄, low ≤ place.next → tokens.kindAt place = kind →
    SameAt tokens (Between place.next bound) parser parser' place

/-- Two levels agree from an index on: what they open with a token is the same in front of it, and
what stands behind a token is the same there. -/
structure Level.Agrees (tokens : Tokens) (bound low : Nat) (level level' : Level) : Prop where
  innerLambda : SameBefore tokens bound low .keywordLambda level.innerLambda level'.innerLambda
  innerExpr : SameBehind tokens bound low level.innerExpr level'.innerExpr
  innerNotTest : SameBehind tokens bound low level.innerNotTest level'.innerNotTest
  innerFactor : SameBehind tokens bound low level.innerFactor level'.innerFactor
  innerArguments : SameBefore tokens bound low .parenthesisOpen level.innerArguments
    level'.innerArguments
  innerIndex : SameBefore tokens bound low .bracketOpen level.innerIndex level'.innerIndex
  innerParens : SameBefore tokens bound low .parenthesisOpen level.innerParens level'.innerParens
  innerBrackets : SameBefore tokens bound low .bracketOpen level.innerBrackets
    level'.innerBrackets
  innerBraces : SameBefore tokens bound low .braceOpen level.innerBraces level'.innerBraces

section

variable {α β : Type} {tokens : Tokens} {bound low start : Nat} {place : Place}

/-- A token that does not end the input stands in front of the one that does. -/
theorem Tokens.EndsAt.lt (hends : tokens.EndsAt bound)
    (hkind : tokens.kindAt place ≠ .endOfInput) : place.next < bound :=
  Nat.lt_of_not_le fun hle => hkind ((hends place.next).mpr hle)

/-- A place with a token of a known kind is between itself and the end. -/
theorem Tokens.EndsAt.between (hends : tokens.EndsAt bound) {kind : TokenKind}
    (hnext : tokens.kindAt place = kind) (hkind : kind ≠ .endOfInput) :
    Between place.next bound place.next :=
  ⟨Nat.le_refl _, Nat.le_of_lt (hends.lt (hnext ▸ hkind))⟩

/-- Behind a token that does not end the input, the end has not been passed. -/
theorem Tokens.EndsAt.behind (hends : tokens.EndsAt bound) (hplace : Between low bound place.next)
    {kind : TokenKind} (hnext : tokens.kindAt place = kind) (hkind : kind ≠ .endOfInput) :
    Between (low + 1) bound place.step.next :=
  ⟨Nat.succ_le_succ hplace.1, hends.lt (hnext ▸ hkind)⟩

/-- A token in front of the end of the input does not lead behind it. -/
theorem Tokens.EndsAt.keeps (hends : tokens.EndsAt bound) :
    tokens.Keeps (· ≠ .endOfInput) (Between low bound) := by
  intro index hindex hkind
  have hlt : index < bound := Nat.lt_of_not_le fun hle => hkind ((hends index).mpr hle)
  exact ⟨Nat.le_succ_of_le hindex.1, hlt⟩

/-- What agrees behind a place agrees behind each later one. -/
theorem Parser.SameBehind.mono {parser parser' : Parser α}
    (hparser : SameBehind tokens bound low parser parser') (hle : low ≤ start) :
    SameBehind tokens bound start parser parser' :=
  fun _ hlt => hparser (Nat.lt_of_le_of_lt hle hlt)

/-- What agrees from a place on agrees from each later one on. -/
theorem Parser.SameBefore.mono {kind : TokenKind} {parser parser' : Parser α}
    (hparser : SameBefore tokens bound low kind parser parser') (hle : low ≤ start) :
    SameBefore tokens bound start kind parser parser' :=
  fun _ hplace => hparser (Nat.le_trans hle hplace)

private theorem Parser.SameBefore.sameAt {kind : TokenKind} {parser parser' : Parser α}
    (hparser : SameBefore tokens bound low kind parser parser')
    (hplace : Between low bound place.next) (hkind : tokens.kindAt place = kind) :
    SameAt tokens (Between low bound) parser parser' place :=
  (hparser hplace.1 hkind).mono fun _ hindex => hindex.mono hplace.1

/-- Levels that agree from an index on agree from every later one on. -/
theorem Level.Agrees.mono {level level' : Level} (hlevel : level.Agrees tokens bound low level')
    (hle : low ≤ start) : level.Agrees tokens bound start level' where
  innerLambda := hlevel.innerLambda.mono hle
  innerExpr := hlevel.innerExpr.mono hle
  innerNotTest := hlevel.innerNotTest.mono hle
  innerFactor := hlevel.innerFactor.mono hle
  innerArguments := hlevel.innerArguments.mono hle
  innerIndex := hlevel.innerIndex.mono hle
  innerParens := hlevel.innerParens.mono hle
  innerBrackets := hlevel.innerBrackets.mono hle
  innerBraces := hlevel.innerBraces.mono hle

end

/-! ## Taking tokens -/

namespace Parser

section

variable {α : Type} {tokens : Tokens} {bound low : Nat} {place : Place} {kind : TokenKind}
  {first first' other other' : Parser α} (hends : tokens.EndsAt bound)

include hends

/-- A parser that opens no level does the same at both levels. -/
theorem Takes.sameFrom {least : Nat} {parser : Parser α} (htakes : parser.Takes tokens least) :
    SameFrom tokens bound low parser parser := by
  intro place hplace
  refine ⟨rfl, fun value after hreads => ?_⟩
  have hrun := htakes hreads
  exact hends.keeps.run hrun.le hrun.ne_endOfInput hplace

/-- Behind a token that is taken, parsers need to be the same from the next one on only. -/
theorem sameAt_take {others others' : Token → Parser α} (hplace : Between low bound place.next)
    (hnext : tokens.kindAt place = kind) (hkind : kind ≠ .endOfInput)
    (hothers : ∀ token, SameFrom tokens bound (low + 1) (others token) (others' token)) :
    SameAt tokens (Between low bound) (take >>= others) (take >>= others') place := by
  refine .bind rfl fun token after htoken => ?_
  obtain ⟨-, rfl⟩ := reads_take.mp htoken
  have hafter := hends.behind hplace hnext hkind
  exact (hothers token hafter).mono fun _ hindex => hindex.mono (Nat.le_succ low)

/-- Behind a token that has to be there, less has to agree. -/
theorem sameFrom_expect (hkind : kind ≠ .endOfInput) {others others' : Token → Parser α}
    (hothers : ∀ token, SameFrom tokens bound (low + 1) (others token) (others' token)) :
    SameFrom tokens bound low (expect kind >>= others) (expect kind >>= others') := by
  intro place hplace
  refine .bind rfl fun token after htoken => ?_
  obtain ⟨hnext, -, rfl⟩ := reads_expect.mp htoken
  have hafter := hends.behind hplace hnext hkind
  exact (hothers token hafter).mono fun _ hindex => hindex.mono (Nat.le_succ low)

private theorem sameFrom_accept (hkind : kind ≠ .endOfInput)
    (hfirst : SameFrom tokens bound (low + 1) first first')
    (hother : SameFrom tokens bound low other other') :
    SameFrom tokens bound low (accept kind >>= fun taken => if taken then first else other)
      (accept kind >>= fun taken => if taken then first' else other') := by
  intro place hplace
  refine .bind rfl fun taken after htaken => ?_
  rw [reads_accept] at htaken
  split at htaken
  · rename_i hnext
    obtain ⟨rfl, rfl⟩ := htaken
    have hafter := hends.behind hplace hnext hkind
    exact (hfirst hafter).mono fun _ hindex => hindex.mono (Nat.le_succ low)
  · obtain ⟨rfl, rfl⟩ := htaken
    exact hother hplace

omit hends in
/-- One of two ways, by the kind of the next token. -/
theorem sameFrom_nextIs
    (hfirst : ∀ ⦃place⦄, Between low bound place.next → tokens.kindAt place = kind →
      SameAt tokens (Between low bound) first first' place)
    (hother : SameFrom tokens bound low other other') :
    SameFrom tokens bound low (nextIs kind >>= fun next => if next then first else other)
      (nextIs kind >>= fun next => if next then first' else other') := by
  intro place hplace
  refine .bind rfl fun next after hnext => ?_
  cases next with
  | true =>
    obtain ⟨hkind, rfl⟩ := reads_nextIs.mp hnext
    exact hfirst hplace (by simpa using hkind)
  | false => exact hother ((sameInside_nextIs kind hplace).2 hnext)

end

end Parser

namespace Level

section

variable {tokens : Tokens} {bound low : Nat} {level level' : Level}
  (hends : tokens.EndsAt bound) (hlevel : level.Agrees tokens bound low level')

include hends hlevel

/-! ## Operands -/

/-- Operands in brackets are as deep as the level that they open, and the others open none. -/
theorem atom_sameFrom : SameFrom tokens bound low level.atom level'.atom := by
  intro place hplace
  refine .bind rfl fun token before htoken => ?_
  obtain ⟨rfl, rfl⟩ := reads_peek.mp htoken
  have hleaf : ∀ {kind : TokenKind} {value : Expr}, tokens.kindAt place = kind →
      kind ≠ .endOfInput → SameAt tokens (Between low bound) (take >>= fun _ => pure value)
        (take >>= fun _ => pure value) (place.look 0) :=
    fun hkind hend => sameAt_take hends hplace hkind hend fun _ => .pure _
  split
  case h_6 => exact numberLiteral_lays.takes.sameFrom hends hplace
  case h_7 => exact stringLiteral_takes.sameFrom hends hplace
  case h_8 hkind => exact hlevel.innerParens.sameAt hplace hkind
  case h_9 hkind => exact hlevel.innerBrackets.sameAt hplace hkind
  case h_10 hkind => exact hlevel.innerBraces.sameAt hplace hkind
  case h_11 => exact SameInside.throw hplace
  all_goals
    rename_i hkind
    exact hleaf hkind (by decide)

private theorem trailerStep_sameFrom (start : Nat) (value : Expr) :
    SameFrom tokens bound low (level.trailerStep start value) (level'.trailerStep start value) := by
  intro place hplace
  refine .bind rfl fun kind before hkind => ?_
  obtain ⟨rfl, rfl⟩ := reads_peekKind.mp hkind
  have hnext : Between low bound (place.look 0).next := hplace
  split
  case h_1 hdot =>
    refine sameAt_take hends hplace hdot (by decide) fun _ => ?_
    exact (takes_identifier.sameFrom hends).bind fun _ => sameInside_since start
  case h_2 hparen =>
    exact (hlevel.innerArguments.sameAt hnext hparen).andThen fun _ => sameInside_since start
  case h_3 hbracket =>
    exact (hlevel.innerIndex.sameAt hnext hbracket).andThen fun _ => sameInside_since start
  case h_4 => exact SameInside.pure _ hplace

theorem primary_sameFrom : SameFrom tokens bound low level.primary level'.primary :=
  sameInside_mark.bind fun start => (atom_sameFrom hends hlevel).bind fun first =>
    sameInside_iterate (trailerStep_sameFrom hends hlevel start) first

theorem awaited_sameFrom : SameFrom tokens bound low level.awaited level'.awaited :=
  sameFrom_nextIs (fun place hplace hkind => .spanned <|
    sameAt_take hends hplace hkind (by decide) fun _ =>
      (primary_sameFrom hends (hlevel.mono (Nat.le_succ low))).bind fun _ => .pure _)
    (primary_sameFrom hends hlevel)

theorem power_sameFrom : SameFrom tokens bound low level.power level'.power :=
  sameInside_mark.bind fun start => (awaited_sameFrom hends hlevel).bind fun left =>
    sameFrom_accept hends (by decide)
      ((hlevel.innerFactor (Nat.lt_succ_self low)).bind fun _ => sameInside_since start) (.pure _)

/-- The operand of a sign is one level deeper. -/
theorem factor_sameFrom : SameFrom tokens bound low level.factor level'.factor := by
  intro place hplace
  refine .bind rfl fun kind before hkind => ?_
  obtain ⟨rfl, rfl⟩ := reads_peekKind.mp hkind
  split
  case h_1 => exact power_sameFrom hends hlevel hplace
  case h_2 operator hunary =>
    have hsolid := Operator.isSolid_of_unary? hunary
    exact .spanned <| sameAt_take hends hplace rfl (hsolid.ne (by decide)) fun _ =>
      (hlevel.innerFactor (Nat.lt_succ_self low)).bind fun _ => .pure _

/-! ## Operators -/

omit hlevel in
private theorem applyStep_sameFrom (precedence : Nat) {operand operand' : Parser Expr}
    (hoperand : ∀ ⦃start⦄, low ≤ start → SameFrom tokens bound start operand operand')
    (left : Expr) :
    SameFrom tokens bound low (applyStep precedence operand left)
      (applyStep precedence operand' left) := by
  intro place hplace
  refine .bind rfl fun kind before hkind => ?_
  obtain ⟨rfl, rfl⟩ := reads_peekKind.mp hkind
  split
  case h_1 => exact SameInside.pure _ hplace
  case h_2 operator hbinary =>
    have hsolid := Operator.isSolid_of_binary? hbinary
    refine .ite (sameAt_take hends hplace rfl (hsolid.ne (by decide)) fun _ => ?_)
      (SameInside.pure _ hplace)
    exact (hoperand (Nat.le_succ low)).bind fun _ => .pure _

theorem binary_sameFrom (tiers : Nat) :
    SameFrom tokens bound low (level.binary tiers) (level'.binary tiers) := by
  -- The operand behind an operator stands further on, so where the levels agree is general.
  induction tiers generalizing low with
  | zero => exact factor_sameFrom hends hlevel
  | succ tiers ih =>
    refine (ih hlevel).bind fun first => sameInside_iterate ?_ first
    exact applyStep_sameFrom hends _ fun start hle => ih (hlevel.mono hle)

theorem bitwiseOr_sameFrom : SameFrom tokens bound low level.bitwiseOr level'.bitwiseOr :=
  binary_sameFrom hends hlevel _

private theorem compareStep_sameFrom (compared : List (Operator × Expr)) :
    SameFrom tokens bound low (level.compareStep compared) (level'.compareStep compared) := by
  refine (comparisonOperator?_takes.sameFrom hends).bind fun operator? => ?_
  cases operator? with
  | none => exact .pure _
  | some operator => exact (bitwiseOr_sameFrom hends hlevel).bind fun _ => .pure _

theorem comparison_sameFrom : SameFrom tokens bound low level.comparison level'.comparison :=
  sameInside_mark.bind fun start => (bitwiseOr_sameFrom hends hlevel).bind fun _ =>
    (sameInside_iterate (compareStep_sameFrom hends hlevel) []).bind fun _ =>
      .ite (.pure _) (sameInside_since start)

theorem notTest_sameFrom : SameFrom tokens bound low level.notTest level'.notTest :=
  sameFrom_nextIs (fun place hplace hkind => .spanned <|
    sameAt_take hends hplace hkind (by decide) fun _ =>
      (hlevel.innerNotTest (Nat.lt_succ_self low)).bind fun _ => .pure _)
    (comparison_sameFrom hends hlevel)

omit hlevel in
private theorem booleanChain_sameFrom (operator : Operator) {keyword : TokenKind}
    (hkeyword : keyword ≠ .endOfInput) {operand operand' : Parser Expr}
    (hoperand : SameFrom tokens bound low operand operand') :
    SameFrom tokens bound low (booleanChain operator keyword operand)
      (booleanChain operator keyword operand') :=
  sameInside_mark.bind fun start => hoperand.bind fun _ =>
    (sameInside_nextIs keyword).bind fun _ =>
      .ite ((hoperand.repeatWhile (sameInside_accept hends.keeps hkeyword)).bind fun _ =>
        sameInside_since start) (.pure _)

theorem andTest_sameFrom : SameFrom tokens bound low level.andTest level'.andTest :=
  booleanChain_sameFrom hends _ (by decide) (notTest_sameFrom hends hlevel)

theorem orTest_sameFrom : SameFrom tokens bound low level.orTest level'.orTest :=
  booleanChain_sameFrom hends _ (by decide) (andTest_sameFrom hends hlevel)

/-- An expression opens a level as a lambda or behind `else`. -/
theorem expr_sameFrom : SameFrom tokens bound low level.expr level'.expr := by
  refine sameFrom_nextIs (fun place hplace hkind => hlevel.innerLambda.sameAt hplace hkind) ?_
  refine sameInside_mark.bind fun start => (orTest_sameFrom hends hlevel).bind
    fun consequent => sameFrom_accept hends (by decide) ?_ (.pure _)
  have hbehind := hlevel.mono (Nat.le_succ low)
  exact (orTest_sameFrom hends hbehind).bind fun test =>
    (sameInside_expect hends.keeps (by decide)).bind fun _ =>
      (hlevel.innerExpr (Nat.lt_succ_self low)).bind fun _ => sameInside_since start

theorem namedExpr_sameFrom : SameFrom tokens bound low level.namedExpr level'.namedExpr := by
  refine sameInside_peekTwo.bind fun (first, second) => ?_
  have hname : SameFrom tokens bound low
      (spanned (identifier >>= fun text => pure fun span => (⟨span, text⟩ : Name)))
      (spanned (identifier >>= fun text => pure fun span => (⟨span, text⟩ : Name))) :=
    .spanned <| (takes_identifier.sameFrom hends).bind fun _ => .pure _
  exact .ite (.spanned <| hname.bind fun _ => (sameInside_expect hends.keeps (by decide)).bind
    fun _ => (expr_sameFrom hends hlevel).bind fun _ => .pure _)
    (expr_sameFrom hends hlevel)

/-! ## Lists of expressions -/

theorem starred_sameFrom : SameFrom tokens bound low level.starred level'.starred :=
  .spanned <| (sameInside_expect hends.keeps (by decide)).bind fun _ =>
    (bitwiseOr_sameFrom hends hlevel).bind fun _ => .pure _

private theorem starredOr_sameFrom {other other' : Parser Expr}
    (hother : SameFrom tokens bound low other other') :
    SameFrom tokens bound low (level.starredOr other) (level'.starredOr other') :=
  (sameInside_nextIs _).bind fun _ => .ite (starred_sameFrom hends hlevel) hother

theorem starExpr_sameFrom : SameFrom tokens bound low level.starExpr level'.starExpr :=
  starredOr_sameFrom hends hlevel (expr_sameFrom hends hlevel)

theorem starNamedExpr_sameFrom :
    SameFrom tokens bound low level.starNamedExpr level'.starNamedExpr :=
  starredOr_sameFrom hends hlevel (namedExpr_sameFrom hends hlevel)

omit hlevel in
private theorem tupleOf_sameFrom {item item' : Parser Expr}
    (hitem : SameFrom tokens bound low item item') :
    SameFrom tokens bound low (tupleOf item) (tupleOf item') := by
  refine sameInside_mark.bind fun start => hitem.bind fun first =>
    (sameInside_nextIs _).bind fun _ => .ite ?_ (.pure _)
  refine (sameInside_iterate (fun elements => ?_) [first]).bind fun _ => sameInside_since start
  exact (sameInside_accept hends.keeps (by decide)).bind fun _ =>
    .ite (sameInside_peekKind.bind fun _ => .ite (hitem.bind fun _ => .pure _) (.pure _)) (.pure _)

theorem starExprs_sameFrom : SameFrom tokens bound low level.starExprs level'.starExprs :=
  tupleOf_sameFrom hends (starExpr_sameFrom hends hlevel)

theorem starNamedExprs_sameFrom :
    SameFrom tokens bound low level.starNamedExprs level'.starNamedExprs :=
  tupleOf_sameFrom hends (starNamedExpr_sameFrom hends hlevel)

theorem yieldExpr_sameFrom : SameFrom tokens bound low level.yieldExpr level'.yieldExpr :=
  .spanned <| (sameInside_expect hends.keeps (by decide)).bind fun _ =>
    (sameInside_accept hends.keeps (by decide)).bind fun _ =>
      .ite ((expr_sameFrom hends hlevel).bind fun _ => .pure _) <|
        sameInside_peekKind.bind fun _ =>
          .ite ((starExprs_sameFrom hends hlevel).bind fun _ => .pure _) (.pure _)

theorem yieldOrStarExprs_sameFrom :
    SameFrom tokens bound low level.yieldOrStarExprs level'.yieldOrStarExprs :=
  (sameInside_nextIs _).bind fun _ =>
    .ite (yieldExpr_sameFrom hends hlevel) (starExprs_sameFrom hends hlevel)

omit hends hlevel in
private theorem checkTarget_sameFrom (target : Expr) :
    SameFrom tokens bound low (checkTarget target) (checkTarget target) :=
  .ite (.pure _) .throw

theorem targetList_sameFrom : SameFrom tokens bound low level.targetList level'.targetList :=
  (tupleOf_sameFrom hends (starredOr_sameFrom hends hlevel
    (bitwiseOr_sameFrom hends hlevel))).bind checkTarget_sameFrom

theorem target_sameFrom : SameFrom tokens bound low level.target level'.target :=
  (bitwiseOr_sameFrom hends hlevel).bind checkTarget_sameFrom

end

end Level

end PythonOutline
