import PythonOutline.Proofs.Lexer.Extent
import PythonOutline.Lexer.Tokens

/-! # Balanced runs of tokens

A run of tokens is balanced if every bracket in it is matched by one of its own kind in it, so it is
made of plain text and of brackets around balanced runs. What is shown of runs that are not balanced
goes by the number of brackets that are open in front of a token: within a balanced run it never
falls below that at its start. -/

namespace PythonOutline

/-- A kind of tokens that are text and no brackets. -/
def TokenKind.IsPlain (kind : TokenKind) : Prop :=
  kind.IsSolid ∧ ¬kind.isOpenBracket ∧ ¬kind.isCloseBracket

instance (kind : TokenKind) : Decidable kind.IsPlain :=
  inferInstanceAs (Decidable (_ ∧ _))

/-- A kind opens what a kind closes. -/
theorem TokenKind.isBracket_of_closingBracket? {kind close : TokenKind}
    (hclose : kind.closingBracket? = some close) :
    kind.isOpenBracket ∧ kind.IsSolid ∧ close.isCloseBracket ∧ close.IsSolid := by
  unfold closingBracket? at hclose
  split at hclose <;> cases hclose <;> decide

/-- A closing bracket opens none. -/
theorem TokenKind.isOpenBracket_eq_false {kind : TokenKind} (hclose : kind.isCloseBracket) :
    kind.isOpenBracket = false := by
  cases kind <;> first | rfl | cases hclose

namespace Tokens

/-- A run of tokens in which every bracket is matched. -/
inductive Balanced (tokens : Tokens) : (start stop : Nat) → Prop where
  | nil (index : Nat) : Balanced tokens index index
  | plain {start stop : Nat} (hplain : (tokens.get start).kind.IsPlain)
      (hrest : Balanced tokens (start + 1) stop) : Balanced tokens start stop
  | group {start middle stop : Nat}
      (hmatch : (tokens.get start).kind.closingBracket? = some (tokens.get middle).kind)
      (hinner : Balanced tokens (start + 1) middle) (hrest : Balanced tokens (middle + 1) stop) :
      Balanced tokens start stop

variable {tokens : Tokens} {start middle stop : Nat}

namespace Balanced

/-- A balanced run does not lead back. -/
theorem le (hbalanced : tokens.Balanced start stop) : start ≤ stop := by
  induction hbalanced with
  | nil => exact Nat.le_refl _
  | plain => omega
  | group => omega

/-- Balanced runs may follow each other. -/
theorem append (hfirst : tokens.Balanced start middle) (hsecond : tokens.Balanced middle stop) :
    tokens.Balanced start stop := by
  induction hfirst with
  | nil => exact hsecond
  | plain hplain _ ih => exact .plain hplain (ih hsecond)
  | group hmatch hinner _ _ ih => exact .group hmatch hinner (ih hsecond)

/-- A token that is no bracket is a balanced run. -/
theorem single (hplain : (tokens.get start).kind.IsPlain) : tokens.Balanced start (start + 1) :=
  .plain hplain (.nil _)

/-- Brackets around a balanced run. -/
theorem enclosed (hmatch : (tokens.get start).kind.closingBracket? = some (tokens.get stop).kind)
    (hinner : tokens.Balanced (start + 1) stop) : tokens.Balanced start (stop + 1) :=
  .group hmatch hinner (.nil _)

/-- Tokens that are no brackets are a balanced run. -/
theorem of_plain (hle : start ≤ stop)
    (hplain : ∀ index, start ≤ index → index < stop → (tokens.get index).kind.IsPlain) :
    tokens.Balanced start stop := by
  obtain ⟨count, rfl⟩ := Nat.exists_eq_add_of_le hle
  induction count with
  | zero => exact .nil _
  | succ count ih =>
    refine (ih (Nat.le_add_right _ _) fun index hstart hstop => ?_).append (single ?_)
    · exact hplain index hstart (Nat.lt_succ_of_lt hstop)
    · exact hplain _ (Nat.le_add_right _ _) (Nat.lt_succ_self _)

/-- All tokens of a balanced run are text. -/
theorem isSolid (hbalanced : tokens.Balanced start stop) {index : Nat} (hstart : start ≤ index)
    (hstop : index < stop) : (tokens.get index).kind.IsSolid := by
  induction hbalanced with
  | nil => omega
  | @plain start _ hplain _ ih =>
    rcases Nat.eq_or_lt_of_le hstart with rfl | hlt
    · exact hplain.1
    · exact ih hlt hstop
  | @group start middle _ hmatch _ _ ihInner ihRest =>
    obtain ⟨-, hopen, -, hclose⟩ := TokenKind.isBracket_of_closingBracket? hmatch
    rcases Nat.eq_or_lt_of_le hstart with rfl | hlt
    · exact hopen
    rcases Nat.lt_trichotomy index middle with hbefore | rfl | hbehind
    · exact ihInner hlt hbefore
    · exact hclose
    · exact ihRest hbehind hstop

end Balanced

/-! ## Open brackets -/

/-- What a token adds to the number of open brackets. -/
def bracketStep (kind : TokenKind) : Int :=
  if kind.isOpenBracket then 1 else if kind.isCloseBracket then -1 else 0

/-- How many more brackets are opened than closed in front of a token. -/
def openBrackets (tokens : Tokens) : (index : Nat) → Int
  | 0 => 0
  | index + 1 => tokens.openBrackets index + bracketStep (tokens.get index).kind

/-- An opening bracket adds one to those that are open. -/
theorem openBrackets_open (hopen : (tokens.get start).kind.isOpenBracket) :
    tokens.openBrackets (start + 1) = tokens.openBrackets start + 1 := by
  rw [openBrackets, bracketStep, if_pos hopen]

/-- A closing bracket takes one from those that are open. -/
theorem openBrackets_close (hclose : (tokens.get start).kind.isCloseBracket) :
    tokens.openBrackets (start + 1) = tokens.openBrackets start - 1 := by
  rw [openBrackets, bracketStep, TokenKind.isOpenBracket_eq_false hclose, if_pos hclose]
  rfl

private theorem openBrackets_plain (hplain : (tokens.get start).kind.IsPlain) :
    tokens.openBrackets (start + 1) = tokens.openBrackets start := by
  rw [openBrackets, bracketStep, if_neg hplain.2.1, if_neg hplain.2.2, Int.add_zero]

/-- Within a balanced run as many brackets are open as at its start, or more, and at its end
as many. -/
theorem Balanced.openBrackets (hbalanced : tokens.Balanced start stop) :
    tokens.openBrackets stop = tokens.openBrackets start ∧
      ∀ index, start ≤ index → index ≤ stop →
        tokens.openBrackets start ≤ tokens.openBrackets index := by
  induction hbalanced with
  | nil =>
    refine ⟨rfl, fun index hstart hstop => ?_⟩
    obtain rfl := Nat.le_antisymm hstart hstop
    exact Int.le_refl _
  | @plain start _ hplain _ ih =>
    obtain ⟨hstop, hle⟩ := ih
    rw [openBrackets_plain hplain] at hstop hle
    refine ⟨hstop, fun index hstart hindex => ?_⟩
    rcases Nat.eq_or_lt_of_le hstart with rfl | hlt
    · exact Int.le_refl _
    · exact hle index hlt hindex
  | @group start middle _ hmatch _ _ ihInner ihRest =>
    obtain ⟨hopen, -, hclose, -⟩ := TokenKind.isBracket_of_closingBracket? hmatch
    obtain ⟨hinner, hleInner⟩ := ihInner
    obtain ⟨hrest, hleRest⟩ := ihRest
    rw [openBrackets_open hopen] at hinner hleInner
    rw [openBrackets_close hclose] at hrest hleRest
    refine ⟨by omega, fun index hstart hindex => ?_⟩
    rcases Nat.eq_or_lt_of_le hstart with rfl | hlt
    · exact Int.le_refl _
    rcases Nat.lt_or_ge middle index with hbehind | hbefore
    · have hle := hleRest index hbehind hindex
      omega
    · have hle := hleInner index hlt hbefore
      omega

/-- What tokens of one kind add to the number of open brackets. -/
theorem openBrackets_run {kind : TokenKind} {count : Nat}
    (hkinds : ∀ index < count, (tokens.get (start + index)).kind = kind) :
    tokens.openBrackets (start + count) = tokens.openBrackets start + count * bracketStep kind := by
  induction count with
  | zero => simp
  | succ count ih =>
    have hfront := ih fun index hindex => hkinds index (Nat.lt_succ_of_lt hindex)
    rw [← Nat.add_assoc, openBrackets, hkinds count (Nat.lt_succ_self _), hfront, Int.natCast_succ,
      Int.add_mul, Int.one_mul, Int.add_assoc]

end Tokens

end PythonOutline
