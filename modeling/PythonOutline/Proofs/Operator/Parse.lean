import PythonOutline.Proofs.Operator.Layer
import PythonOutline.Proofs.Operator.Lexing

/-! # Reading written trees

The layer of a tree's precedence yields the tree from the tokens it is written with, by induction on
the tree. A part that stands without parentheses binds tight enough for the layer that reads it; one
in parentheses is an atom of the level outside, and is read by the loosest layer of the level
inside. So as many levels are needed as the tokens of the tree nest. -/

namespace PythonOutline

open PythonOutline.Parser

/-- The tokens between two indices are those of a list. -/
def Tokens.Spells (tokens : Tokens) (start stop : Nat) : List Lexeme → Prop
  | [] => start = stop
  | lexeme :: lexemes =>
    start < tokens.tokens.size ∧ (tokens.get start).kind = lexeme.kind ∧
      (tokens.get start).text = lexeme.text ∧ tokens.Spells (start + 1) stop lexemes

namespace Tokens

variable {tokens : Tokens} {start stop : Nat} {first second lexemes : List Lexeme}

/-- Tokens are those of two lists if they are those of each, one behind the other. -/
theorem spells_append :
    tokens.Spells start stop (first ++ second) ↔
      ∃ middle, tokens.Spells start middle first ∧ tokens.Spells middle stop second := by
  induction first generalizing start with
  | nil => simp [Spells]
  | cons lexeme first ih => simp [Spells, ih, and_assoc]

/-- A list takes as many tokens as it has lexemes. -/
theorem Spells.start_add_length (hspells : tokens.Spells start stop lexemes) :
    start + lexemes.length = stop := by
  induction lexemes generalizing start with
  | nil => exact hspells
  | cons lexeme lexemes ih =>
    have hrest := ih hspells.2.2.2
    rw [List.length_cons]
    omega

/-- Where there is a token, the tokens in front of the second index are all there. -/
theorem Spells.stop_le (hspells : tokens.Spells start stop lexemes) (hne : lexemes ≠ []) :
    start < stop ∧ stop ≤ tokens.tokens.size := by
  induction lexemes generalizing start with
  | nil => exact absurd rfl hne
  | cons lexeme lexemes ih =>
    obtain ⟨hlt, -, -, hrest⟩ := hspells
    cases lexemes with
    | nil =>
      obtain rfl : start + 1 = stop := hrest
      exact ⟨Nat.lt_succ_self _, hlt⟩
    | cons next lexemes =>
      obtain ⟨hstart, hstop⟩ := ih hrest (by simp)
      exact ⟨by omega, hstop⟩

end Tokens

/-! ## First tokens -/

/-- Tokens start with one that leads a layer. -/
def StartsLayer (precedence : Nat) (lexemes : List Lexeme) : Prop :=
  ∃ first others, lexemes = first :: others ∧ precedence ≤ first.kind.leads

/-- What follows does not matter to the layer that lexemes start. -/
theorem StartsLayer.append {precedence : Nat} {first second : List Lexeme}
    (hfirst : StartsLayer precedence first) : StartsLayer precedence (first ++ second) := by
  obtain ⟨lexeme, others, rfl, hlead⟩ := hfirst
  exact ⟨lexeme, others ++ second, rfl, hlead⟩

/-- What starts a layer starts each looser one. -/
theorem StartsLayer.mono {loose tight : Nat} {lexemes : List Lexeme}
    (hstarts : StartsLayer tight lexemes) (hle : loose ≤ tight) : StartsLayer loose lexemes := by
  obtain ⟨first, others, rfl, hlead⟩ := hstarts
  exact ⟨first, others, rfl, Nat.le_trans hle hlead⟩

/-- The first token of what starts a layer leads it. -/
theorem StartsLayer.get_kind {precedence start stop : Nat} {lexemes : List Lexeme} {tokens : Tokens}
    (hstarts : StartsLayer precedence lexemes) (hspells : tokens.Spells start stop lexemes) :
    precedence ≤ (tokens.get start).kind.leads := by
  obtain ⟨first, others, rfl, hlead⟩ := hstarts
  rw [hspells.2.1]
  exact hlead

/-- A part of a tree starts a layer that asks for parentheses where the part binds less. -/
theorem StartsLayer.parenthesized {precedence loose : Nat} {lexemes : List Lexeme}
    (hstarts : StartsLayer precedence lexemes) (htightest : loose ≤ atomPrecedence) :
    StartsLayer loose (parenthesized (precedence < loose) lexemes) := by
  by_cases hneeded : precedence < loose
  · refine ⟨.fixed .parenthesisOpen, lexemes ++ [.fixed .parenthesisClose], ?_, htightest⟩
    simp [PythonOutline.parenthesized, hneeded]
  · simpa [PythonOutline.parenthesized, hneeded] using hstarts.mono (Nat.le_of_not_lt hneeded)

private theorem Operator.precedence_le_operandPrecedence (operator : Operator)
    (side : Associativity) :
    operator.precedence ≤ operator.operandPrecedence side := by
  unfold operandPrecedence
  split <;> omega

private theorem Operator.operandPrecedence_le (operator : Operator) (side : Associativity) :
    operator.operandPrecedence side ≤ atomPrecedence := by
  cases operator <;> cases side <;> decide

private theorem UnaryOperator.precedence_eq (operator : UnaryOperator) :
    operator.operator.precedence = unaryPrecedence ∧
      operator.operator.operandPrecedence .right = unaryPrecedence := by
  obtain ⟨kind, operator, denotes⟩ := operator
  cases kind <;> cases denotes <;> exact ⟨rfl, rfl⟩

/-- Binary operators bind looser than signs, and tighter than comparisons. -/
theorem BinaryOperator.precedence_bounds (operator : BinaryOperator) :
    Operator.bitwiseOr.precedence ≤ operator.operator.precedence ∧
      operator.operator.precedence ≤ Level.tightestBinary := by
  obtain ⟨kind, operator, denotes⟩ := operator
  cases kind <;> cases denotes <;> decide

private theorem BinaryOperator.operandPrecedence_eq (operator : BinaryOperator) :
    operator.operator.operandPrecedence .left = operator.operator.precedence ∧
      operator.operator.operandPrecedence .right = operator.operator.precedence + 1 := by
  obtain ⟨kind, operator, denotes⟩ := operator
  cases kind <;> cases denotes <;> exact ⟨rfl, rfl⟩

/-- The first token of a tree leads its layer. -/
theorem OperatorExpr.lexemes_startsLayer (expr : OperatorExpr) :
    StartsLayer expr.precedence expr.lexemes := by
  cases expr with
  | unary operator _ =>
    exact ⟨_, _, rfl, Nat.le_of_eq (operator.precedence_eq.1.trans
      (TokenKind.leads_of_unary operator.denotes).symm)⟩
  | binary operator left _ =>
    exact ((left.lexemes_startsLayer.parenthesized (operator.operator.operandPrecedence_le _)).mono
      (operator.operator.precedence_le_operandPrecedence _)).append
  | power left _ =>
    exact ((left.lexemes_startsLayer.parenthesized (Operator.operandPrecedence_le _ _)).mono
      (Operator.precedence_le_operandPrecedence _ _)).append
  | compare left _ _ _ =>
    exact (((left.lexemes_startsLayer.parenthesized
      (show comparisonPrecedence + 1 ≤ atomPrecedence by decide)).mono
        (Nat.le_succ _)).append.append).append
  | boolean operator first _ _ =>
    exact ((first.lexemes_startsLayer.parenthesized
      (show operator.operator.precedence + 1 ≤ atomPrecedence by cases operator <;> decide)).mono
        (Nat.le_succ _)).append
  | conditional _ consequent _ =>
    exact ((consequent.lexemes_startsLayer.parenthesized
      (show conditionalPrecedence + 1 ≤ atomPrecedence by decide)).mono (Nat.le_succ _)).append
  | _ => exact ⟨_, _, rfl, Nat.le_refl _⟩

/-- Trees are of the layers from conditionals to atoms. -/
theorem OperatorExpr.precedence_bounds (expr : OperatorExpr) :
    conditionalPrecedence ≤ expr.precedence ∧ expr.precedence ≤ atomPrecedence := by
  cases expr with
  | unary operator operand =>
    rw [precedence, operator.precedence_eq.1]
    decide
  | binary operator left right =>
    obtain ⟨hloosest, htightest⟩ := operator.precedence_bounds
    exact ⟨Nat.le_trans (by decide) hloosest, Nat.le_trans htightest (by decide)⟩
  | boolean operator first second others => cases operator <;> (rw [precedence]; decide)
  | _ => rw [precedence]; decide

/-! ## Parts of trees -/

/-- The layer of a tree's precedence yields the tree from the tokens it is written with. -/
structure OperatorExpr.IsRead (expr : OperatorExpr) : Prop where
  yields : ∀ {levels tokens start stop}, expr.nesting ≤ levels →
    tokens.Spells start stop expr.lexemes → (tokens.get stop).kind.binds < expr.precedence →
    ((Level.withInner levels).layer expr.precedence).Yields tokens start stop expr.toExpr
  /-- A tree of a binary operator is also the left side of further operators of its precedence. -/
  leftSide : ∀ {levels tokens start stop}, Operator.bitwiseOr.precedence ≤ expr.precedence →
    expr.precedence ≤ Level.tightestBinary → expr.nesting ≤ levels →
    tokens.Spells start stop expr.lexemes → (tokens.get stop).kind.binds ≤ expr.precedence →
    (Level.withInner levels).LeftSide expr.precedence tokens start stop expr.toExpr

namespace OperatorExpr.IsRead

variable {expr : OperatorExpr} {levels loose start stop : Nat} {tokens : Tokens}

/-- A tree is read where it stands without parentheses. -/
theorem bare (hexpr : expr.IsRead) (hloosest : conditionalPrecedence ≤ loose)
    (hle : loose ≤ expr.precedence) (hnesting : expr.nesting ≤ levels)
    (hspells : tokens.Spells start stop expr.lexemes)
    (hfollow : (tokens.get stop).kind.binds < loose) :
    ((Level.withInner levels).layer loose).Yields tokens start stop expr.toExpr := by
  refine Level.layer_yields_of_le hloosest hle expr.precedence_bounds.2 ?_
    (expr.lexemes_startsLayer.get_kind hspells) hfollow
  exact hexpr.yields hnesting hspells (Nat.lt_of_lt_of_le hfollow hle)

/-- A tree in parentheses is an atom. -/
theorem grouped (hexpr : expr.IsRead) (hnesting : expr.nesting ≤ levels)
    (hspells : tokens.Spells start stop (parenthesized true expr.lexemes)) :
    (Level.withInner (levels + 1)).atom.Yields tokens start stop expr.toExpr := by
  obtain ⟨-, hopen, -, hinner⟩ := hspells
  -- No token is a `:=`, so what the parentheses hold is no name that is bound.
  have hsecond : (tokens.get (start + 1 + 1)).kind ≠ .colonEquals := by
    obtain ⟨first, others, hlexemes⟩ := List.exists_cons_of_ne_nil expr.lexemes_ne_nil
    have hused := expr.lexemes_balanced.isUsed
    rw [hlexemes] at hused hinner
    cases others with
    | nil =>
      rw [hinner.2.2.2.2.1]
      nofun
    | cons second others =>
      rw [hinner.2.2.2.2.1]
      exact (hused second (by simp)).kind_ne rfl
  obtain ⟨middle, hlexemes, hrest⟩ := Tokens.spells_append.mp hinner
  obtain ⟨-, hclose, -, rfl⟩ := hrest
  refine Level.atom_yields_parens hopen (Level.parenDisplay_yields hopen ?_ ?_ hsecond hclose)
  · refine hexpr.bare (Nat.le_refl _) expr.precedence_bounds.1 hnesting hlexemes ?_
    rw [hclose]
    decide
  · have hlead := expr.lexemes_startsLayer.get_kind hlexemes
    exact Nat.lt_of_lt_of_le (by decide) (Nat.le_trans expr.precedence_bounds.1 hlead)

/-- A part of a tree is read by the layer that the tree asks for. -/
theorem part (hexpr : expr.IsRead) (hloosest : conditionalPrecedence ≤ loose)
    (htightest : loose ≤ atomPrecedence)
    (hnesting : nestedBy (expr.precedence < loose) expr.nesting ≤ levels)
    (hspells : tokens.Spells start stop (parenthesized (expr.precedence < loose) expr.lexemes))
    (hfollow : (tokens.get stop).kind.binds < loose) :
    ((Level.withInner levels).layer loose).Yields tokens start stop expr.toExpr := by
  by_cases hneeded : expr.precedence < loose
  · simp only [hneeded, decide_true] at hnesting hspells
    obtain ⟨levels, rfl⟩ := Nat.exists_eq_add_one.mpr (Nat.lt_of_lt_of_le (Nat.succ_pos _) hnesting)
    have hatom := hexpr.grouped (Nat.le_of_succ_le_succ hnesting) hspells
    have hprimary := Level.primary_yields hatom (Nat.lt_of_lt_of_le hfollow htightest)
    refine @Level.layer_yields_of_le _ _ _ _ _ loose atomPrecedence hloosest htightest
      (Nat.le_refl _) hprimary ?_ hfollow
    rw [hspells.2.1]
    exact Nat.le_refl _
  · simp only [hneeded, decide_false] at hnesting hspells
    exact hexpr.bare hloosest (Nat.le_of_not_lt hneeded) hnesting hspells hfollow

/-- The left part of a binary operator is the left side of its operator. -/
theorem leftPart {precedence : Nat} (hexpr : expr.IsRead)
    (hloosest : Operator.bitwiseOr.precedence ≤ precedence)
    (htightest : precedence ≤ Level.tightestBinary)
    (hnesting : nestedBy (expr.precedence < precedence) expr.nesting ≤ levels)
    (hspells : tokens.Spells start stop (parenthesized (expr.precedence < precedence) expr.lexemes))
    (hfollow : (tokens.get stop).kind.binds ≤ precedence) :
    (Level.withInner levels).LeftSide precedence tokens start stop expr.toExpr := by
  by_cases hsame : expr.precedence = precedence
  · subst hsame
    simp only [Nat.lt_irrefl, decide_false] at hnesting hspells
    exact hexpr.leftSide hloosest htightest hnesting hspells hfollow
  · have hneeded : expr.precedence < precedence ↔ expr.precedence < precedence + 1 := by omega
    have hstart := hspells.start_add_length
    rw [decide_eq_decide.mpr hneeded] at hnesting hspells
    refine .of_operand (hexpr.part ?_ ?_ hnesting hspells (Nat.lt_succ_of_le hfollow)) (by omega)
    · exact Nat.le_trans (by decide) (Nat.le_succ_of_le hloosest)
    · exact Nat.le_trans (Nat.succ_le_succ htightest) (by decide)

/-- Only trees of binary operators are left sides. -/
theorem of_yields
    (hother : ¬(Operator.bitwiseOr.precedence ≤ expr.precedence ∧
      expr.precedence ≤ Level.tightestBinary))
    (hyields : ∀ {levels tokens start stop}, expr.nesting ≤ levels →
      tokens.Spells start stop expr.lexemes → (tokens.get stop).kind.binds < expr.precedence →
      ((Level.withInner levels).layer expr.precedence).Yields tokens start stop expr.toExpr) :
    expr.IsRead :=
  ⟨hyields, fun hloosest htightest => absurd ⟨hloosest, htightest⟩ hother⟩

/-! ## Trees -/

variable {operand left right test consequent alternate : OperatorExpr}

/-- A name is read from its token. -/
theorem name (identifier : Identifier) : (OperatorExpr.name identifier).IsRead := by
  refine of_yields (by simp only [precedence]; decide) fun _ hspells hfollow => ?_
  obtain ⟨-, hkind, htext, rfl⟩ := hspells
  exact Level.primary_yields (Level.atom_yields_name hkind htext) hfollow

/-- An `await` is read if its operand is. -/
theorem await (hoperand : operand.IsRead) : (OperatorExpr.await operand).IsRead := by
  refine of_yields (by simp only [precedence]; decide) fun hnesting hspells hfollow => ?_
  obtain ⟨-, hkind, -, hspells⟩ := hspells
  exact Level.awaited_yields_await hkind (hoperand.part (by decide) (Nat.le_refl _) hnesting hspells
    (Nat.lt_succ_of_lt hfollow))

/-- A sign is read if its operand is. -/
theorem unary {operator : UnaryOperator} (hoperand : operand.IsRead) :
    (OperatorExpr.unary operator operand).IsRead := by
  obtain ⟨hprecedence, hright⟩ := operator.precedence_eq
  refine of_yields (by simp only [precedence, hprecedence]; decide) fun hnesting hspells hfollow => ?_
  simp only [precedence, nesting, lexemes, hprecedence, hright] at hnesting hspells hfollow ⊢
  obtain ⟨-, hkind, -, hspells⟩ := hspells
  obtain ⟨levels, rfl⟩ := Nat.exists_eq_add_one.mpr (Nat.lt_of_lt_of_le (Nat.succ_pos _) hnesting)
  refine Level.factor_yields_unary (by rw [hkind]; exact operator.denotes) ?_
  exact hoperand.part (by decide) (by decide) (Nat.le_of_succ_le_succ hnesting) hspells hfollow

/-- A negation is read if its operand is. -/
theorem not (hoperand : operand.IsRead) : (OperatorExpr.not operand).IsRead := by
  refine of_yields (by simp only [precedence]; decide) fun hnesting hspells hfollow => ?_
  obtain ⟨-, hkind, -, hspells⟩ := hspells
  obtain ⟨levels, rfl⟩ := Nat.exists_eq_add_one.mpr (Nat.lt_of_lt_of_le (Nat.succ_pos _) hnesting)
  refine Level.notTest_yields_unary hkind ?_
  exact hoperand.part (by decide) (by decide) (Nat.le_of_succ_le_succ hnesting) hspells hfollow

/-- A power is read if its base and its exponent are. -/
theorem power (hleft : left.IsRead) (hright : right.IsRead) :
    (OperatorExpr.power left right).IsRead := by
  refine of_yields (by simp only [precedence]; decide) fun hnesting hspells hfollow => ?_
  obtain ⟨middle, hspellsLeft, hspells⟩ := Tokens.spells_append.mp hspells
  obtain ⟨-, hkind, -, hspellsRight⟩ := hspells
  obtain ⟨hnestingLeft, hnestingRight⟩ := Nat.max_le.mp hnesting
  obtain ⟨levels, rfl⟩ :=
    Nat.exists_eq_add_one.mpr (Nat.lt_of_lt_of_le (Nat.succ_pos _) hnestingRight)
  refine Level.power_yields_binary ?_ hkind ?_
  · refine hleft.part (by decide) (by decide) hnestingLeft hspellsLeft ?_
    rw [hkind]
    decide
  · refine hright.part (by decide) (by decide) (Nat.le_of_succ_le_succ hnestingRight) hspellsRight ?_
    exact Nat.lt_of_le_of_ne (Nat.le_of_lt_succ hfollow) (TokenKind.binds_ne_unary _)

/-- A conditional is read if its parts are. -/
theorem conditional (htest : test.IsRead) (hconsequent : consequent.IsRead)
    (halternate : alternate.IsRead) :
    (OperatorExpr.conditional test consequent alternate).IsRead := by
  refine of_yields (by simp only [precedence]; decide) fun hnesting hspells hfollow => ?_
  obtain ⟨middle, hspellsConsequent, hspells'⟩ := Tokens.spells_append.mp hspells
  obtain ⟨-, hif, -, hspells'⟩ := hspells'
  obtain ⟨last, hspellsTest, hspells'⟩ := Tokens.spells_append.mp hspells'
  obtain ⟨-, helse, -, hspellsAlternate⟩ := hspells'
  obtain ⟨hnestingConsequent, hnesting⟩ := Nat.max_le.mp hnesting
  obtain ⟨hnestingTest, hnestingAlternate⟩ := Nat.max_le.mp hnesting
  obtain ⟨levels, rfl⟩ :=
    Nat.exists_eq_add_one.mpr (Nat.lt_of_lt_of_le (Nat.succ_pos _) hnestingAlternate)
  refine Level.expr_yields_conditional ?_ ?_ hif ?_ helse ?_
  · exact (consequent.lexemes_startsLayer.parenthesized (by decide)).get_kind hspellsConsequent
  · refine hconsequent.part (by decide) (by decide) hnestingConsequent hspellsConsequent ?_
    rw [hif]
    decide
  · refine htest.part (by decide) (by decide) hnestingTest hspellsTest ?_
    rw [helse]
    decide
  · exact halternate.part (by decide) (by decide) (Nat.le_of_succ_le_succ hnestingAlternate)
      hspellsAlternate hfollow

/-- A binary operation is read if its operands are: the left one in its own layer, the right one in
the layer above. -/
theorem binary {operator : BinaryOperator} (hleft : left.IsRead) (hright : right.IsRead) :
    (OperatorExpr.binary operator left right).IsRead := by
  obtain ⟨hloosest, htightest⟩ := operator.precedence_bounds
  have hside : ∀ {levels tokens start stop},
      (OperatorExpr.binary operator left right).nesting ≤ levels →
      tokens.Spells start stop (OperatorExpr.binary operator left right).lexemes →
      (tokens.get stop).kind.binds ≤ operator.operator.precedence →
      (Level.withInner levels).LeftSide operator.operator.precedence tokens start stop
        (OperatorExpr.binary operator left right).toExpr := by
    intro levels tokens start stop hnesting hspells hfollow
    simp only [nesting, lexemes, operator.operandPrecedence_eq] at hnesting hspells
    obtain ⟨middle, hspellsLeft, hspells⟩ := Tokens.spells_append.mp hspells
    obtain ⟨-, hkind, -, hspellsRight⟩ := hspells
    obtain ⟨hnestingLeft, hnestingRight⟩ := Nat.max_le.mp hnesting
    have hoperator : Operator.binary? (tokens.get middle).kind = some operator.operator := by
      rw [hkind]
      exact operator.denotes
    have hbinds := TokenKind.binds_of_binary hoperator
    have hstop := hspellsRight.start_add_length
    refine (hleft.leftPart hloosest htightest hnestingLeft hspellsLeft (Nat.le_of_eq hbinds)).apply
      hoperator rfl (hright.part ?_ ?_ hnestingRight hspellsRight (Nat.lt_succ_of_le hfollow))
      (by omega)
    · exact Nat.le_trans (by decide) (Nat.le_succ_of_le hloosest)
    · exact Nat.le_trans (Nat.succ_le_succ htightest) (by decide)
  refine ⟨fun hnesting hspells hfollow => ?_, fun _ _ => hside⟩
  have hsize := (hspells.stop_le (lexemes_ne_nil _)).2
  rw [precedence, Level.layer_eq_leftChain _ hloosest htightest]
  exact (hside hnesting hspells (Nat.le_of_lt hfollow)).yields (Nat.ne_of_lt hfollow) hsize

end OperatorExpr.IsRead

/-! ## Chains -/

/-- Further comparisons are read from the tokens they are written with. -/
def ComparisonChain.IsRead (others : ComparisonChain) : Prop :=
  ∀ {levels : Nat} {tokens : Tokens} {before : Place} {stop : Nat}, others.nesting ≤ levels →
    tokens.Spells before.next stop others.lexemes →
    (tokens.get stop).kind.binds < comparisonPrecedence →
    ∃ compared after, (Level.withInner levels).Compares tokens before compared after ∧
      after.next = stop ∧ compared.map Prod.fst = others.operators ∧
      compared.map (fun comparison => comparison.2.withoutSpans) = others.toExprs

/-- Further values of a chain are read from the tokens they are written with. -/
def OperandList.IsRead (operator : BooleanOperator) (others : OperandList) : Prop :=
  ∀ {levels : Nat} {tokens : Tokens} {before : Place} {stop : Nat},
    others.nesting operator ≤ levels → tokens.Spells before.next stop (others.lexemes operator) →
    (tokens.get stop).kind.binds < operator.operator.precedence →
    ∃ values after,
      Repeats (accept operator.kind)
        ((Level.withInner levels).layer (operator.operator.precedence + 1)) tokens before values
        after ∧
      after.next = stop ∧ values.map Expr.withoutSpans = others.toExprs

namespace ComparisonOperator

variable {tokens : Tokens} {stop : Nat}

/-- The first token of a comparison binds like one. -/
theorem binds_of_spells (operator : ComparisonOperator) {start : Nat} {others : List Lexeme}
    (hspells : tokens.Spells start stop (operator.kinds.map .fixed ++ others)) :
    (tokens.get start).kind.binds = comparisonPrecedence := by
  cases operator with
  | single kind operator denotes =>
    rw [hspells.2.1]
    exact TokenKind.binds_of_comparison denotes
  | nonMembership =>
    rw [hspells.2.1]
    rfl
  | nonIdentity =>
    rw [hspells.2.1]
    rfl

/-- A comparison is read from its tokens, unless a `not` behind makes it another one. -/
theorem reads (operator : ComparisonOperator) {before : Place}
    (hspells : tokens.Spells before.next stop (operator.kinds.map .fixed))
    (hnot : (tokens.get stop).kind ≠ .keywordNot) :
    ∃ after, Level.comparisonOperator?.Reads tokens before (some operator.operator) after ∧
      after.next = stop := by
  cases operator with
  | single kind operator denotes =>
    obtain ⟨-, hkind, -, rfl⟩ := hspells
    have hfirst : tokens.kindAt before = kind := hkind
    refine ⟨(before.look 1).step, ?_, rfl⟩
    rw [Level.reads_comparisonOperator?, hfirst, if_neg, if_neg, denotes]
    · exact ⟨rfl, rfl⟩
    · exact fun hboth => hnot hboth.2
    · exact fun hboth => kind_ne_of_denotes denotes rfl hboth.1
  | nonMembership =>
    obtain ⟨-, hkind, -, -, hsecond, -, rfl⟩ := hspells
    refine ⟨(before.look 1).step.step, ?_, rfl⟩
    rw [Level.reads_comparisonOperator?, if_pos ⟨hkind, hsecond⟩]
    exact ⟨rfl, rfl⟩
  | nonIdentity =>
    obtain ⟨-, hkind, -, -, hsecond, -, rfl⟩ := hspells
    refine ⟨(before.look 1).step.step, ?_, rfl⟩
    rw [Level.reads_comparisonOperator?, if_neg, if_pos ⟨hkind, hsecond⟩]
    · exact ⟨rfl, rfl⟩
    · intro hboth
      rw [show tokens.kindAt before = .keywordIs from hkind] at hboth
      cases hboth.1

end ComparisonOperator

namespace ComparisonChain

variable {right : OperatorExpr} {others : ComparisonChain}

private theorem length_operators_le (others : ComparisonChain) :
    others.operators.length ≤ others.lexemes.length := by
  cases others with
  | nil => exact Nat.le_refl _
  | cons operator right others =>
    have hothers := others.length_operators_le
    have hkinds : 0 < operator.kinds.length := by cases operator <;> simp [ComparisonOperator.kinds]
    simp only [operators, lexemes, List.length_cons, List.length_append, List.length_map]
    omega

/-- Where further comparisons may stand, no token binds tighter than a comparison. -/
theorem binds_le {tokens : Tokens} {start stop : Nat}
    (hspells : tokens.Spells start stop others.lexemes)
    (hfollow : (tokens.get stop).kind.binds < comparisonPrecedence) :
    (tokens.get start).kind.binds ≤ comparisonPrecedence := by
  cases others with
  | nil =>
    obtain rfl : start = stop := hspells
    exact Nat.le_of_lt hfollow
  | cons operator right others =>
    rw [lexemes, List.append_assoc] at hspells
    exact Nat.le_of_eq (operator.binds_of_spells hspells)

/-- Without further comparisons, no token is read. -/
theorem IsRead.nil : ComparisonChain.nil.IsRead := by
  intro levels tokens before stop _ hspells hfollow
  obtain rfl : before.next = stop := hspells
  exact ⟨[], before.look 1, .stop (Level.reads_comparisonOperator?_none (Nat.ne_of_lt hfollow)), rfl,
    rfl, rfl⟩

/-- A further comparison is read if its operand is, and the others are. -/
theorem IsRead.cons {operator : ComparisonOperator} (hright : right.IsRead) (hothers : others.IsRead) :
    (ComparisonChain.cons operator right others).IsRead := by
  intro levels tokens before stop hnesting hspells hfollow
  obtain ⟨last, hspells, hspellsOthers⟩ := Tokens.spells_append.mp hspells
  obtain ⟨middle, hspellsOperator, hspellsRight⟩ := Tokens.spells_append.mp hspells
  obtain ⟨hnestingRight, hnestingOthers⟩ := Nat.max_le.mp hnesting
  have hlead := (right.lexemes_startsLayer.parenthesized (by decide)).get_kind hspellsRight
  obtain ⟨start, hoperator, rfl⟩ := operator.reads hspellsOperator
    (TokenKind.ne_of_leads (Nat.lt_of_lt_of_le (by decide) hlead))
  obtain ⟨value, next, hvalue, rfl, hright⟩ := hright.part (by decide) (by decide) hnestingRight
    hspellsRight (Nat.lt_succ_of_le (binds_le hspellsOthers hfollow)) start rfl
  obtain ⟨compared, after, hcompares, hafter, hoperators, hvalues⟩ :=
    hothers hnestingOthers hspellsOthers hfollow
  refine ⟨(operator.operator, value) :: compared, after, .compare hoperator hvalue hcompares, hafter,
    ?_, ?_⟩
  · rw [List.map_cons, hoperators, operators]
  · rw [List.map_cons, hvalues, hright, toExprs]

end ComparisonChain

/-- A comparison is read if its first operand is, and the comparisons behind it are. -/
theorem OperatorExpr.IsRead.compare {left right : OperatorExpr} {operator : ComparisonOperator}
    {others : ComparisonChain} (hleft : left.IsRead)
    (hchain : (ComparisonChain.cons operator right others).IsRead) :
    (OperatorExpr.compare left operator right others).IsRead := by
  refine of_yields (by simp only [precedence]; decide) fun {levels tokens start stop} hnesting
    hspells hfollow => ?_
  have hchained : tokens.Spells start stop
      (parenthesized (left.precedence < comparisonPrecedence + 1) left.lexemes ++
        (ComparisonChain.cons operator right others).lexemes) := by
    simpa only [lexemes, ComparisonChain.lexemes, List.append_assoc] using hspells
  obtain ⟨middle, hspellsLeft, hspellsChain⟩ := Tokens.spells_append.mp hchained
  obtain ⟨hnestingLeft, hnestingChain⟩ := Nat.max_le.mp hnesting
  have hbinds := ComparisonChain.binds_le hspellsChain hfollow
  rintro before rfl
  obtain ⟨first, place, hfirst, rfl, hvalue⟩ := hleft.part (by decide) (by decide) hnestingLeft
    hspellsLeft (Nat.lt_succ_of_le hbinds) before rfl
  obtain ⟨compared, after, hcompares, rfl, hoperators, hvalues⟩ :=
    hchain hnestingChain hspellsChain hfollow
  have hcount : compared.length = (ComparisonChain.cons operator right others).operators.length := by
    rw [← hoperators, List.length_map]
  have hsome : compared.isEmpty = false := by
    cases compared with
    | nil => cases hcount
    | cons => rfl
  have hlength : compared.length ≤ tokens.tokens.size := by
    have hle := (ComparisonChain.cons operator right others).length_operators_le
    have hstop := hspellsChain.start_add_length
    have hsize := (hspells.stop_le (lexemes_ne_nil _)).2
    omega
  refine ⟨⟨tokens.spanBetween before.next after.next,
    .compare first (compared.map Prod.fst) (compared.map Prod.snd)⟩, after, ?_, rfl, ?_⟩
  · exact Level.reads_comparison.mpr
      ⟨first, place, compared, hfirst, hlength, hcompares, by simp [hsome]⟩
  · have hrights : exprsWithoutSpans (compared.map Prod.snd) =
        (ComparisonChain.cons operator right others).toExprs := by
      rw [exprsWithoutSpans_eq, List.map_map, ← hvalues]
      rfl
    rw [Expr.withoutSpans, ExprForm.withoutSpans, hvalue, hoperators, hrights]
    rfl

namespace OperandList

variable {operator : BooleanOperator} {value : OperatorExpr} {others : OperandList}

private theorem length_toExprs_le (others : OperandList) :
    others.toExprs.length ≤ (others.lexemes operator).length := by
  cases others with
  | nil => exact Nat.le_refl _
  | cons value others =>
    have hothers := others.length_toExprs_le
    simp only [toExprs, lexemes, List.length_cons, List.length_append]
    omega

/-- Where further values may stand, no token binds tighter than their operator. -/
theorem binds_le {tokens : Tokens} {start stop : Nat}
    (hspells : tokens.Spells start stop (others.lexemes operator))
    (hfollow : (tokens.get stop).kind.binds < operator.operator.precedence) :
    (tokens.get start).kind.binds ≤ operator.operator.precedence := by
  cases others with
  | nil =>
    obtain rfl : start = stop := hspells
    exact Nat.le_of_lt hfollow
  | cons value others =>
    rw [hspells.2.1]
    cases operator <;> exact Nat.le_refl _

/-- Without further operands, no token is read. -/
theorem IsRead.nil : OperandList.nil.IsRead operator := by
  intro levels tokens before stop _ hspells hfollow
  obtain rfl : before.next = stop := hspells
  have hkind : tokens.kindAt before ≠ operator.kind := by
    cases operator <;> exact TokenKind.ne_of_binds (Nat.ne_of_lt hfollow)
  exact ⟨[], before.look 0, .stop (reads_accept_false.mpr ⟨hkind, rfl⟩), rfl, rfl⟩

/-- A further operand is read if it is read by itself, and the others are. -/
theorem IsRead.cons (hvalue : value.IsRead) (hothers : others.IsRead operator) :
    (OperandList.cons value others).IsRead operator := by
  intro levels tokens before stop hnesting hspells hfollow
  obtain ⟨-, hkind, -, hspells⟩ := hspells
  obtain ⟨middle, hspellsValue, hspellsOthers⟩ := Tokens.spells_append.mp hspells
  obtain ⟨hnestingValue, hnestingOthers⟩ := Nat.max_le.mp hnesting
  obtain ⟨first, place, hfirst, rfl, hvalue⟩ := hvalue.part (by cases operator <;> decide)
    (by cases operator <;> decide) hnestingValue hspellsValue
    (Nat.lt_succ_of_le (binds_le hspellsOthers hfollow)) before.step rfl
  obtain ⟨values, after, hrepeats, hafter, hvalues⟩ := hothers hnestingOthers hspellsOthers hfollow
  refine ⟨first :: values, after, .item (reads_accept_true.mpr ⟨hkind, rfl⟩) hfirst hrepeats, hafter,
    ?_⟩
  rw [List.map_cons, hvalues, hvalue, toExprs]

end OperandList

/-- A chain of `and` or `or` is read if its operands are. -/
theorem OperatorExpr.IsRead.boolean {first second : OperatorExpr} {operator : BooleanOperator}
    {others : OperandList} (hfirst : first.IsRead)
    (hchain : (OperandList.cons second others).IsRead operator) :
    (OperatorExpr.boolean operator first second others).IsRead := by
  refine of_yields (by cases operator <;> (simp only [precedence]; decide))
    fun {levels tokens start stop} hnesting hspells hfollow => ?_
  obtain ⟨middle, hspellsFirst, hspellsChain⟩ := Tokens.spells_append.mp hspells
  obtain ⟨hnestingFirst, hnestingChain⟩ := Nat.max_le.mp hnesting
  have hbinds := @OperandList.binds_le operator (.cons second others) _ _ _ hspellsChain hfollow
  rintro before rfl
  obtain ⟨value, place, hvalue, rfl, hfirst⟩ := hfirst.part (by cases operator <;> decide)
    (by cases operator <;> decide) hnestingFirst hspellsFirst (Nat.lt_succ_of_le hbinds) before rfl
  obtain ⟨values, after, hrepeats, rfl, hvalues⟩ :=
    @hchain levels tokens (place.look 0) _ hnestingChain hspellsChain hfollow
  have hlength : values.length ≤ tokens.tokens.size := by
    have hcount : values.length = (OperandList.cons second others).toExprs.length := by
      rw [← hvalues, List.length_map]
    have hle := @OperandList.length_toExprs_le operator (.cons second others)
    have hstop := hspellsChain.start_add_length
    have hsize := (hspells.stop_le (lexemes_ne_nil _)).2
    rw [OperandList.lexemes] at hle
    omega
  refine ⟨⟨tokens.spanBetween before.next after.next, .boolean operator.operator (value :: values)⟩,
    after, ?_, rfl, ?_⟩
  · rw [precedence, Level.layer_eq_booleanChain]
    refine Level.reads_booleanChain.mpr ⟨value, place, hvalue, ?_⟩
    rw [if_pos (show tokens.kindAt place = operator.kind from hspellsChain.2.1)]
    exact ⟨values, hlength, hrepeats, rfl⟩
  · rw [Expr.withoutSpans, ExprForm.withoutSpans, exprsWithoutSpans_eq, List.map_cons, hfirst, hvalues]
    rfl

mutual

/-- Every tree is read from the tokens it is written with. -/
theorem OperatorExpr.isRead : (expr : OperatorExpr) → expr.IsRead
  | .name identifier => .name identifier
  | .await operand => .await operand.isRead
  | .unary _ operand => .unary operand.isRead
  | .not operand => .not operand.isRead
  | .binary _ left right => .binary left.isRead right.isRead
  | .power left right => .power left.isRead right.isRead
  | .compare left _ right others =>
    .compare left.isRead (ComparisonChain.IsRead.cons right.isRead others.isRead)
  | .boolean operator first second others =>
    .boolean first.isRead (OperandList.IsRead.cons second.isRead (others.isRead operator))
  | .conditional test consequent alternate =>
    .conditional test.isRead consequent.isRead alternate.isRead

/-- All further comparisons are read. -/
theorem ComparisonChain.isRead : (others : ComparisonChain) → others.IsRead
  | .nil => ComparisonChain.IsRead.nil
  | .cons _ right others => ComparisonChain.IsRead.cons right.isRead others.isRead

/-- All further operands are read. -/
theorem OperandList.isRead (operator : BooleanOperator) :
    (others : OperandList) → others.IsRead operator
  | .nil => OperandList.IsRead.nil
  | .cons value others => OperandList.IsRead.cons value.isRead (others.isRead operator)

end

end PythonOutline
