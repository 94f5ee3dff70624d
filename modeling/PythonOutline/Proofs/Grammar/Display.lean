import PythonOutline.Parser.Display
import PythonOutline.Proofs.Grammar.Expr

/-! # The grammar of displays and comprehensions

What the parsers of displays read, one rule a parser.
-/

namespace PythonOutline

open PythonOutline.Parser

variable {tokens : Tokens} {before after : Place} {value : Expr}

/-- Whether a clause of a comprehension starts at a place. -/
def Tokens.startsFor (tokens : Tokens) (place : Place) : Bool :=
  tokens.kindAt place == .keywordFor ||
    tokens.kindAt place == .keywordAsync && tokens.kindAt place.step == .keywordFor

@[simp]
theorem Parser.reads_startsForClause {result : Bool} :
    startsForClause.Reads tokens before result after ↔
      result = tokens.startsFor before ∧ after = before.look 1 := by
  simp [startsForClause, Tokens.startsFor, and_comm]

namespace Level

variable {level : Level}

/-- A clause of a comprehension is its targets, what they run over, and its conditions. -/
theorem reads_forClause {clause : ForClause}
    (hreads : level.forClause.Reads tokens before clause after) :
    ∃ isAsync start target middle iterable last conditions,
      (accept .keywordAsync).Reads tokens before isAsync start ∧
      tokens.kindAt start = .keywordFor ∧ level.targetList.Reads tokens start.step target middle ∧
      tokens.kindAt middle = .keywordIn ∧ level.orTest.Reads tokens middle.step iterable last ∧
      Repeats (nextIs .keywordIf) (do let _ ← take; level.orTest) tokens last conditions after ∧
      clause = ⟨tokens.spanBetween before.next after.next, isAsync, target, iterable,
        conditions⟩ := by
  simp only [forClause, reads_spanned, reads_bind, reads_expect, reads_repeatWhile, reads_pure,
    existsAndEq, and_true] at hreads
  obtain ⟨isAsync, start, target, middle, iterable, last, conditions, ⟨hasync, hfor, htarget, hin,
    hiterable, -, hconditions⟩, rfl⟩ := hreads
  exact ⟨isAsync, start, target, middle, iterable, last, conditions, hasync, hfor, htarget, hin,
    hiterable, hconditions, rfl⟩

/-- The clauses of a comprehension follow each other for as long as one starts. -/
theorem reads_forClauses {clauses : List ForClause}
    (hreads : level.forClauses.Reads tokens before clauses after) :
    Repeats startsForClause level.forClause tokens before clauses after := by
  simp only [forClauses, reads_repeatWhile] at hreads
  exact hreads.2

/-- A comprehension ends with its closing bracket, and its span starts at the opening one. -/
theorem reads_comprehension {start : Nat} {close : TokenKind} {kind : ComprehensionKind}
    {element : Expr} {second : Option Expr} :
    (level.comprehension start close kind element second).Reads tokens before value after ↔
      ∃ clauses last, level.forClauses.Reads tokens before clauses last ∧
        tokens.kindAt last = close ∧ after = last.step ∧
        value = ⟨tokens.spanBetween start last.step.next,
          .comprehension kind element second clauses⟩ := by
  simp [comprehension, and_assoc]

/-- The elements of a display stand between commas, up to its closing bracket. -/
theorem reads_displayElements {close : TokenKind} {elements : List Expr}
    (hreads : (level.displayElements close).Reads tokens before elements after) :
    Lists close level.starNamedExpr tokens before elements after :=
  Lists.of_reads hreads

/-- Parentheses hold nothing, a `yield`, a generator, the elements of a tuple, or an expression. -/
theorem reads_parenDisplay :
    level.parenDisplay.Reads tokens before value after ↔
      tokens.kindAt before = .parenthesisOpen ∧
        if tokens.kindAt before.step = .parenthesisClose then
          after = before.step.step ∧
            value = ⟨tokens.spanBetween before.next before.step.step.next, .tuple []⟩
        else if tokens.kindAt before.step = .keywordYield then
          ∃ last, level.yieldExpr.Reads tokens (before.step.look 0) value last ∧
            tokens.kindAt last = .parenthesisClose ∧ after = last.step
        else
          ∃ first middle, level.starNamedExpr.Reads tokens (before.step.look 0) first middle ∧
            if tokens.startsFor middle then
              (level.comprehension before.next .parenthesisClose .generator first none).Reads
                tokens (middle.look 1) value after
            else if tokens.kindAt (middle.look 1) = .comma then
              ∃ others, (level.displayElements .parenthesisClose).Reads tokens (middle.look 1).step
                  others after ∧
                value = ⟨tokens.spanBetween before.next after.next, .tuple (first :: others)⟩
            else
              tokens.kindAt middle = .parenthesisClose ∧ after = (middle.look 1).step ∧
                value = first := by
  simp [parenDisplay, and_assoc]

/-- Brackets hold a comprehension, or the elements of a list. -/
theorem reads_listDisplay :
    level.listDisplay.Reads tokens before value after ↔
      tokens.kindAt before = .bracketOpen ∧
        if tokens.kindAt before.step = .bracketClose then
          ∃ elements, (level.displayElements .bracketClose).Reads tokens (before.step.look 0)
              elements after ∧
            value = ⟨tokens.spanBetween before.next after.next, .list elements⟩
        else
          ∃ first middle, level.starNamedExpr.Reads tokens (before.step.look 0) first middle ∧
            if tokens.startsFor middle then
              (level.comprehension before.next .bracketClose .list first none).Reads
                tokens (middle.look 1) value after
            else if tokens.kindAt (middle.look 1) = .comma then
              ∃ others, (level.displayElements .bracketClose).Reads tokens (middle.look 1).step
                  others after ∧
                value = ⟨tokens.spanBetween before.next after.next, .list (first :: others)⟩
            else
              tokens.kindAt middle = .bracketClose ∧ after = (middle.look 1).step ∧
                value = ⟨tokens.spanBetween before.next middle.step.next, .list [first]⟩ := by
  simp [listDisplay, and_assoc]

/-- An entry of a dict is a mapping behind `**`, or a key and a value with a colon between them. -/
theorem reads_dictEntry {entry : DictEntry} :
    level.dictEntry.Reads tokens before entry after ↔
      if tokens.kindAt before = .asteriskAsterisk then
        ∃ mapping, level.bitwiseOr.Reads tokens before.step mapping after ∧
          entry = ⟨tokens.spanBetween before.next after.next, none, mapping⟩
      else
        ∃ key middle, level.expr.Reads tokens (before.look 0) key middle ∧
          tokens.kindAt middle = .colon ∧
          ∃ value, level.expr.Reads tokens middle.step value after ∧
            entry = ⟨tokens.spanBetween before.next after.next, some key, value⟩ := by
  by_cases hmapping : tokens.kindAt before = .asteriskAsterisk
  · simp [dictEntry, hmapping]
  · simp [dictEntry, hmapping, and_assoc]

/-- Behind its first element, a set goes on as a comprehension or with more elements. -/
theorem reads_setDisplay {start : Nat} {first : Expr} :
    (level.setDisplay start first).Reads tokens before value after ↔
      if tokens.startsFor before then
        (level.comprehension start .braceClose .set first none).Reads tokens (before.look 1) value
          after
      else if tokens.kindAt (before.look 1) = .comma then
        ∃ others, (level.displayElements .braceClose).Reads tokens (before.look 1).step others
            after ∧
          value = ⟨tokens.spanBetween start after.next, .set (first :: others)⟩
      else
        tokens.kindAt before = .braceClose ∧ after = (before.look 1).step ∧
          value = ⟨tokens.spanBetween start before.step.next, .set [first]⟩ := by
  simp [setDisplay, and_assoc]

/-- Behind its first key, a dict goes on as a comprehension or with more entries. -/
theorem reads_dictDisplay {start entryStart : Nat} {key : Expr} :
    (level.dictDisplay start entryStart key).Reads tokens before value after ↔
      ∃ first middle, level.expr.Reads tokens before first middle ∧
        if tokens.startsFor middle then
          (level.comprehension start .braceClose .dict key (some first)).Reads tokens
            (middle.look 1) value after
        else if tokens.kindAt (middle.look 1) = .comma then
          ∃ others, (listUntil .braceClose level.dictEntry).Reads tokens (middle.look 1).step others
              after ∧
            value = ⟨tokens.spanBetween start after.next,
              .dict (⟨tokens.spanBetween entryStart middle.next, some key, first⟩ :: others)⟩
        else
          tokens.kindAt middle = .braceClose ∧ after = (middle.look 1).step ∧
            value = ⟨tokens.spanBetween start middle.step.next,
              .dict [⟨tokens.spanBetween entryStart middle.next, some key, first⟩]⟩ := by
  simp [dictDisplay, and_assoc]

/-- Braces hold a dict if they are empty, start with `**`, or have a colon behind the first element.
Otherwise they hold a set. -/
theorem reads_braceDisplay :
    level.braceDisplay.Reads tokens before value after ↔
      tokens.kindAt before = .braceOpen ∧
        if tokens.kindAt before.step = .braceClose ∨
            tokens.kindAt before.step = .asteriskAsterisk then
          ∃ entries, (listUntil .braceClose level.dictEntry).Reads tokens (before.step.look 0)
              entries after ∧
            value = ⟨tokens.spanBetween before.next after.next, .dict entries⟩
        else
          ∃ first middle, level.starNamedExpr.Reads tokens (before.step.look 0) first middle ∧
            if tokens.kindAt middle = .colon then
              (level.dictDisplay before.next before.step.next first).Reads tokens middle.step value
                after
            else (level.setDisplay before.next first).Reads tokens (middle.look 0) value after := by
  simp [braceDisplay]

end Level

end PythonOutline
