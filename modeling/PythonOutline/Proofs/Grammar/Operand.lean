import PythonOutline.Parser.Operand
import PythonOutline.Proofs.Parser.Loop

/-! # The grammar of operands

What the parsers of operands read, one rule a parser. A rule names the parts of what was read, the
places between them and the value that is made of them; nothing else is needed to reason about the
parser.
-/

namespace PythonOutline

open PythonOutline.Parser

variable {tokens : Tokens} {before after : Place} {value : Expr}

namespace Parser

/-- The value of a number is read from the text of its token. -/
theorem reads_numberLiteral :
    numberLiteral.Reads tokens before value after ↔
      tokens.kindAt before = .literalNumber ∧ after = before.step ∧
        value = ⟨(tokens.get before.next).span,
          .number (Literal.numberValue (tokens.get before.next).text)⟩ := by
  simp [numberLiteral, and_assoc]

/-- Adjacent string literals are taken to the last one of them. -/
theorem reads_stringLiteral (hreads : stringLiteral.Reads tokens before value after) :
    before.next ≤ after.next ∧ tokens.kindAt after ≠ .literalString ∧
      (∀ index, before.next ≤ index → index < after.next →
        (tokens.get index).kind = .literalString) ∧
      ∃ text bytes formatted,
        value = ⟨tokens.spanBetween before.next after.next, .string text bytes formatted⟩ := by
  simp only [stringLiteral, reads_spanned, reads_bind, reads_iterate, reads_pure] at hreads
  obtain ⟨_, ⟨⟨texts, bytes, formatted⟩, _, ⟨count, -, hiterates⟩, rfl, rfl⟩, rfl⟩ := hreads
  suffices htokens : before.next ≤ after.next ∧ tokens.kindAt after ≠ .literalString ∧
      ∀ index, before.next ≤ index → index < after.next →
        (tokens.get index).kind = .literalString from
    ⟨htokens.1, htokens.2.1, htokens.2.2, _, _, _, rfl⟩
  generalize ([], none, false) = state at hiterates
  generalize (texts, bytes, formatted) = result at hiterates
  induction hiterates with
  | @done state before after result hstep =>
    have hend : tokens.kindAt before ≠ .literalString ∧ after = before.look 0 := by
      simp at hstep
      exact ⟨hstep.1, hstep.2.2⟩
    obtain ⟨hkind, rfl⟩ := hend
    exact ⟨Nat.le_refl _, hkind, fun index hle hlt => absurd hlt (Nat.not_lt.mpr hle)⟩
  | @next _ state _ before middle after _ hstep _ ih =>
    have htaken : tokens.kindAt before = .literalString ∧ middle = before.step := by
      simp at hstep
      exact ⟨hstep.1, hstep.2.2.2⟩
    obtain ⟨hkind, rfl⟩ := htaken
    obtain ⟨hle, hafter, hall⟩ := ih
    refine ⟨by simp at hle; omega, hafter, ?_⟩
    intro index hindex hlt
    rcases Nat.eq_or_lt_of_le hindex with rfl | hindex
    · exact hkind
    · exact hall index hindex hlt

end Parser

namespace Level

variable {level : Level}

/-- An atom is told by its first token. -/
theorem reads_atom :
    level.atom.Reads tokens before value after ↔
      match tokens.kindAt before with
      | .identifier =>
        value = ⟨(tokens.get before.next).span, .name (tokens.get before.next).text⟩ ∧
          after = before.step
      | .literalTrue =>
        value = ⟨(tokens.get before.next).span, .boolLiteral true⟩ ∧ after = before.step
      | .literalFalse =>
        value = ⟨(tokens.get before.next).span, .boolLiteral false⟩ ∧ after = before.step
      | .literalNone =>
        value = ⟨(tokens.get before.next).span, .noneLiteral⟩ ∧ after = before.step
      | .dotDotDot =>
        value = ⟨(tokens.get before.next).span, .ellipsis⟩ ∧ after = before.step
      | .literalNumber => numberLiteral.Reads tokens (before.look 0) value after
      | .literalString => stringLiteral.Reads tokens (before.look 0) value after
      | .parenthesisOpen => level.innerParens.Reads tokens (before.look 0) value after
      | .bracketOpen => level.innerBrackets.Reads tokens (before.look 0) value after
      | .braceOpen => level.innerBraces.Reads tokens (before.look 0) value after
      | _ => False := by
  simp only [atom, reads_bind, reads_peek]
  simp only [existsAndEq, and_true, Tokens.get_kind]
  generalize tokens.kindAt before = kind
  split <;> simp [and_comm]

/-- An operand goes on with attributes, calls and subscripts. All of them start at one token. -/
inductive Extends (level : Level) (tokens : Tokens) (start : Nat) :
    Expr → Place → Expr → Place → Prop where
  | stop {value : Expr} {before : Place} (hdot : tokens.kindAt before ≠ .dot)
      (hparen : tokens.kindAt before ≠ .parenthesisOpen)
      (hbracket : tokens.kindAt before ≠ .bracketOpen) :
      Extends level tokens start value before value (before.look 0)
  | member {value result : Expr} {before after : Place}
      (hdot : tokens.kindAt before = .dot) (hname : tokens.kindAt before.step = .identifier)
      (hrest : Extends level tokens start
        ⟨tokens.spanBetween start before.step.step.next,
          .attribute value (tokens.get before.step.next).text⟩
        before.step.step result after) :
      Extends level tokens start value before result after
  | call {value result : Expr} {before middle after : Place} {arguments : List Argument}
      (hparen : tokens.kindAt before = .parenthesisOpen)
      (harguments : level.innerArguments.Reads tokens (before.look 0) arguments middle)
      (hrest : Extends level tokens start
        ⟨tokens.spanBetween start middle.next, .call value arguments⟩ middle result after) :
      Extends level tokens start value before result after
  | subscript {value index result : Expr} {before middle after : Place}
      (hbracket : tokens.kindAt before = .bracketOpen)
      (hindex : level.innerIndex.Reads tokens (before.look 0) index middle)
      (hrest : Extends level tokens start
        ⟨tokens.spanBetween start middle.next, .subscript value index⟩ middle result after) :
      Extends level tokens start value before result after

/-- An operand is an atom, extended by calls, attributes and subscripts. -/
theorem reads_primary (hreads : level.primary.Reads tokens before value after) :
    ∃ first middle, level.atom.Reads tokens before first middle ∧
      level.Extends tokens before.next first middle value after := by
  simp only [primary, reads_bind, reads_mark, reads_iterate, existsAndEq, true_and,
    and_true] at hreads
  obtain ⟨first, middle, hfirst, count, -, hiterates⟩ := hreads
  refine ⟨first, middle, hfirst, ?_⟩
  generalize before.next = start at hiterates ⊢
  clear hfirst
  induction hiterates with
  | @done value before after result hstep =>
    simp at hstep
    split at hstep <;> simp at hstep
    obtain ⟨rfl, rfl⟩ := hstep
    exact .stop ‹_› ‹_› ‹_›
  | @next _ value value' before middle after result hstep _ ih =>
    simp at hstep
    split at hstep <;> simp at hstep
    · rename_i hdot
      obtain ⟨hname, rfl, rfl⟩ := hstep
      exact .member hdot hname ih
    · rename_i hparen
      obtain ⟨arguments, harguments, rfl⟩ := hstep
      exact .call hparen harguments ih
    · rename_i hbracket
      obtain ⟨index, hindex, rfl⟩ := hstep
      exact .subscript hbracket hindex ih

/-- An `await` is of the operand behind it. -/
theorem reads_awaited :
    level.awaited.Reads tokens before value after ↔
      if tokens.kindAt before = .keywordAwait then
        ∃ operand, level.primary.Reads tokens before.step operand after ∧
          value = ⟨tokens.spanBetween before.next after.next, .await operand⟩
      else level.primary.Reads tokens (before.look 0) value after := by
  simp [awaited]

/-- The exponent of a power is one level deeper than its base. -/
theorem reads_power :
    level.power.Reads tokens before value after ↔
      ∃ left middle, level.awaited.Reads tokens before left middle ∧
        if tokens.kindAt middle = .asteriskAsterisk then
          ∃ right, level.innerFactor.Reads tokens middle.step right after ∧
            value =
              ⟨tokens.spanBetween before.next after.next, .binary .exponentiation left right⟩
        else value = left ∧ after = middle.look 0 := by
  simp [power]

/-- The operand of a sign is one level deeper than the sign. -/
theorem reads_factor :
    level.factor.Reads tokens before value after ↔
      match Operator.unary? (tokens.kindAt before) with
      | none => level.power.Reads tokens (before.look 0) value after
      | some operator =>
        ∃ argument, level.innerFactor.Reads tokens before.step argument after ∧
          value = ⟨tokens.spanBetween before.next after.next, .unary operator argument⟩ := by
  simp only [factor, reads_bind, reads_peekKind]
  simp only [existsAndEq, and_true]
  generalize Operator.unary? (tokens.kindAt before) = operator?
  cases operator? <;> simp

end Level

end PythonOutline
