import PythonOutline.Parser.Argument
import PythonOutline.Proofs.Grammar.Display

/-! # The grammar of call arguments and subscripts

What the parsers of arguments and subscripts read, one rule a parser.
-/

namespace PythonOutline.Level

open PythonOutline.Parser

variable {level : Level} {tokens : Tokens} {before after : Place} {value : Expr}

/-- A positional argument is an expression, or a generator that needs no parentheses of its own. -/
theorem reads_positionalArgument :
    level.positionalArgument.Reads tokens before value after ↔
      ∃ first middle, level.namedExpr.Reads tokens before first middle ∧
        if tokens.startsFor middle then
          ∃ clauses, level.forClauses.Reads tokens (middle.look 1) clauses after ∧
            value = ⟨tokens.spanBetween before.next after.next,
              .comprehension .generator first none clauses⟩
        else value = first ∧ after = middle.look 1 := by
  simp [positionalArgument]

/-- An argument is told by its first two tokens. -/
theorem reads_argument {argument : Argument} :
    level.argument.Reads tokens before argument after ↔
      if tokens.kindAt before = .asterisk then
        ∃ value, level.expr.Reads tokens (before.look 1).step value after ∧
          argument = ⟨tokens.spanBetween before.next after.next, none, .iterable, value⟩
      else if tokens.kindAt before = .asteriskAsterisk then
        ∃ value, level.expr.Reads tokens (before.look 1).step value after ∧
          argument = ⟨tokens.spanBetween before.next after.next, none, .mapping, value⟩
      else if tokens.kindAt before = .identifier ∧ tokens.kindAt before.step = .equals then
        ∃ value, level.expr.Reads tokens (before.look 1).step.step value after ∧
          argument = ⟨tokens.spanBetween before.next after.next,
            some (tokens.get before.next).text, .none, value⟩
      else
        ∃ value, level.positionalArgument.Reads tokens (before.look 1) value after ∧
          argument = ⟨tokens.spanBetween before.next after.next, none, .none, value⟩ := by
  simp only [Level.argument, reads_spanned, reads_bind, reads_peekTwo, existsAndEq, true_and, and_true,
    Tokens.get_kind, Tokens.get_kind_step]
  generalize hkind : tokens.kindAt before = kind
  split
  · simp
  · simp
  · by_cases hequals : tokens.kindAt before.step = .equals
    · simp [hkind, hequals]
    · simp [hequals]
  · rename_i hasterisk hdouble hidentifier
    rw [if_neg hasterisk, if_neg hdouble, if_neg fun hboth => hidentifier hboth.1]
    simp

/-- The arguments of a call stand between parentheses and in the order that is asked of them. -/
theorem reads_arguments {arguments : List Argument}
    (hreads : level.arguments.Reads tokens before arguments after) :
    Lists .parenthesisClose level.argument tokens before arguments after ∧
      Argument.misplaced? false false arguments = none := by
  simp only [Level.arguments, reads_bind] at hreads
  obtain ⟨_, middle, hlist, hrest⟩ := hreads
  split at hrest
  · simp at hrest
  · rename_i hplaced
    obtain ⟨rfl, rfl⟩ := reads_pure.mp hrest
    exact ⟨.of_reads hlist, hplaced⟩

/-- Whether a bound of a slice is absent in front of a token. -/
def endsBound (kind : TokenKind) : Bool :=
  kind == .colon || kind == .comma || kind == .bracketClose

/-- A bound of a slice may be left out in front of what ends it. -/
theorem reads_sliceBound {bound : Option Expr} :
    level.sliceBound.Reads tokens before bound after ↔
      if endsBound (tokens.kindAt before) then bound = none ∧ after = before.look 0
      else ∃ value, level.expr.Reads tokens (before.look 0) value after ∧ bound = some value := by
  simp only [sliceBound, reads_bind, reads_peekKind, existsAndEq, true_and, and_true]
  generalize tokens.kindAt before = kind
  split
  · simp [endsBound]
  · simp [endsBound]
  · simp [endsBound]
  · rename_i hcolon hcomma hclose
    have hstarts : endsBound kind = false := by
      simpa [endsBound] using ⟨⟨hcolon, hcomma⟩, hclose⟩
    simp [hstarts]

/-- Behind the colon of a slice stand its upper bound and, behind another colon, its step. -/
theorem reads_sliceRest {start : Nat} {lower : Option Expr} :
    (level.sliceRest start lower).Reads tokens before value after ↔
      tokens.kindAt before = .colon ∧
        ∃ upper middle, level.sliceBound.Reads tokens before.step upper middle ∧
          if tokens.kindAt middle = .colon then
            ∃ step, level.sliceBound.Reads tokens middle.step step after ∧
              value = ⟨tokens.spanBetween start after.next, .slice lower upper step⟩
          else
            after = middle.look 0 ∧
              value = ⟨tokens.spanBetween start middle.next, .slice lower upper none⟩ := by
  simp [sliceRest]

/-- An element of a subscript is a slice if a colon stands at its start or behind an expression. -/
theorem reads_sliceItem :
    level.sliceItem.Reads tokens before value after ↔
      if tokens.kindAt before = .colon then
        (level.sliceRest before.next none).Reads tokens (before.look 0) value after
      else
        ∃ first middle, level.starNamedExpr.Reads tokens (before.look 0) first middle ∧
          if tokens.kindAt middle = .colon then
            (level.sliceRest before.next (some first)).Reads tokens (middle.look 0) value after
          else value = first ∧ after = middle.look 0 := by
  simp [sliceItem]

/-- A subscript with a comma is a tuple of its elements. -/
theorem reads_subscript (hreads : level.subscript.Reads tokens before value after) :
    ∃ first middle, level.sliceItem.Reads tokens before first middle ∧
      if tokens.kindAt middle = .comma then
        ∃ others, Continues .comma (· != .bracketClose) level.sliceItem tokens (middle.look 0)
            others after ∧
          value = ⟨tokens.spanBetween before.next after.next, .tuple (first :: others)⟩
      else value = first ∧ after = middle.look 0 := by
  simp only [subscript, reads_bind, reads_mark, existsAndEq, true_and, and_true] at hreads
  obtain ⟨first, middle, hfirst, hrest⟩ := hreads
  refine ⟨first, middle, hfirst, ?_⟩
  by_cases hcomma : tokens.kindAt middle = .comma
  · simp only [reads_nextIs, hcomma, beq_self_eq_true, existsAndEq, true_and, and_true, reduceIte,
      reads_bind, reads_iterate, reads_spanSince, reads_pure] at hrest
    obtain ⟨elements, ⟨count, -, hiterates⟩, rfl⟩ := hrest
    obtain ⟨others, rfl, hcontinues⟩ :=
      Continues.of_iterates .comma (· != .bracketClose) level.sliceItem (by simp) hiterates
    rw [if_pos hcomma]
    exact ⟨others, hcontinues, rfl⟩
  · simpa [hcomma] using hrest

end PythonOutline.Level
