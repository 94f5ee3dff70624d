import PythonOutline.Proofs.Grammar.LineEnd
import PythonOutline.Proofs.Lexer.OpenBrackets
import PythonOutline.Proofs.Text.Slice
import PythonOutline.Proofs.Tree.AlikeEqStmt
import PythonOutline.Proofs.Tree.Balanced
import PythonOutline.Proofs.Tree.LaminarStmt

/-! # The pattern of a case

The pattern of a case is a run of tokens that nobody reads: its end is found by counting brackets. A
case stands where a line starts, outside of all brackets, so the count is the number of brackets
that are open, and the run ends where no bracket is open. Its brackets are balanced, and a colon or
an `if` in it stands within brackets. -/

namespace PythonOutline

namespace Tokens

/-- The tokens between the `case` of a case and its guard or its colon are its pattern. -/
structure HasPattern (tokens : Tokens) (keyword stop : Nat) (case : MatchCase) : Prop where
  isWord_keyword : Parser.isWord "case" (tokens.get keyword)
  case_start : case.span.start = (tokens.get keyword).span.start
  lt : keyword + 1 < stop
  /-- The guard follows if there is one, and otherwise the colon. -/
  kind_stop : (tokens.get stop).kind = if case.guard.isSome then .keywordIf else .colon
  /-- The pattern is the text from the first token to the last one. -/
  slice_eq : Text.slice? tokens.source (tokens.get (keyword + 1)).span.start
    (tokens.get (stop - 1)).span.stop = some case.pattern.toList
  ne_empty : case.pattern ≠ ""
  balanced : tokens.Balanced (keyword + 1) stop
  inside : ∀ index, keyword < index → index < stop →
    (tokens.get index).kind = .colon ∨ (tokens.get index).kind = .keywordIf →
      tokens.openBrackets (keyword + 1) < tokens.openBrackets index

private theorem length_openers_succ (tokens : Tokens) (index : Nat) :
    (tokens.openers (index + 1)).length =
      if (tokens.get index).kind.isOpenBracket then (tokens.openers index).length + 1
      else if (tokens.get index).kind.isCloseBracket then (tokens.openers index).length - 1
      else (tokens.openers index).length := by
  rw [openers, Token.openersBehind]
  split
  · rfl
  · split
    · exact List.length_tail
    · rfl

/-- Where a line ends, no bracket is open. -/
theorem Matched.openers_endsLine {tokens : Tokens} {index : Nat} (hmatched : tokens.Matched)
    (hends : tokens.EndsLine index) : tokens.openers index = [] := by
  obtain ⟨last, rfl, hkind⟩ := hends
  refine (hmatched.openers_structural ?_).2
  rcases hkind with hkind | hkind <;> rw [hkind] <;> decide

end Tokens

namespace Parser

variable {tokens : Tokens} {before after : Place} {block : Parser (List Stmt)}

/-! ## One step -/

private theorem reads_patternStep_done {depth : Nat} {span result : Option Span} :
    (patternStep (depth, span)).Reads tokens before (.done result) after ↔
      depth = 0 ∧ (tokens.kindAt before = .colon ∨ tokens.kindAt before = .keywordIf) ∧
        result = span ∧ after = before.look 0 := by
  simp only [patternStep, reads_bind, reads_peek, existsAndEq, true_and, and_true, Tokens.get_kind]
  by_cases hend : depth = 0 ∧ (tokens.kindAt before = .colon ∨ tokens.kindAt before = .keywordIf)
  · simp [hend]
  · simp [hend]
    tauto

/-- A pattern goes on over every solid token except a colon or an `if` outside all brackets. -/
private theorem reads_patternStep_next {depth : Nat} {span : Option Span}
    {state : Nat × Option Span} :
    (patternStep (depth, span)).Reads tokens before (.next state) after ↔
      ¬(depth = 0 ∧ (tokens.kindAt before = .colon ∨ tokens.kindAt before = .keywordIf)) ∧
        (tokens.kindAt before).IsSolid ∧ after = before.step ∧
        state = (if (tokens.kindAt before).isOpenBracket then depth + 1
          else if (tokens.kindAt before).isCloseBracket then depth - 1 else depth,
          some ((tokens.get before.next).span.joinOption span)) := by
  simp only [patternStep, reads_bind, reads_peek, existsAndEq, true_and, and_true]
  unfold Tokens.kindAt
  generalize hkind : (tokens.get before.next).kind = kind
  have hsolid : kind.IsSolid ↔ ¬(kind = .endOfInput ∨ kind = .invalid ∨ ¬kind.isSignificant) := by
    unfold TokenKind.IsSolid
    tauto
  rw [hsolid]
  by_cases hend : depth = 0 ∧ (kind = .colon ∨ kind = .keywordIf)
  · simp [hend]
  · rw [if_neg hend]
    by_cases hother : kind = .endOfInput ∨ kind = .invalid ∨ ¬kind.isSignificant
    · rw [if_pos hother]
      exact iff_of_false (by simp) fun hnext => hnext.2.1 hother
    · rw [if_neg hother, and_iff_right hend, and_iff_right hother]
      simp

/-! ## A whole pattern -/

/-- What is known in front of a token of a pattern: the span of the tokens taken, all of which are
text. -/
structure PatternRun (tokens : Tokens) (start : Nat) (span : Option Span) (stop : Nat) : Prop where
  le : start ≤ stop
  span_eq : span = if start < stop then
    some ⟨(tokens.get start).span.start, (tokens.get (stop - 1)).span.stop⟩ else none
  isSolid : ∀ index, start ≤ index → index < stop → (tokens.get index).kind.IsSolid

/-- Nothing has been read of a pattern at its start. -/
theorem PatternRun.nil {start : Nat} : PatternRun tokens start none start where
  le := Nat.le_refl _
  span_eq := by rw [if_neg (Nat.lt_irrefl _)]
  isSolid _ hge hlt := absurd hge (Nat.not_le_of_lt hlt)

/-- Each step over a pattern adds one token to what was read of it. -/
theorem PatternRun.step {start : Nat} {state state' : Nat × Option Span} (hordered : tokens.InOrder)
    (hrun : PatternRun tokens start state.2 before.next)
    (hstep : (patternStep state).Reads tokens before (.next state') after) :
    PatternRun tokens start state'.2 after.next := by
  obtain ⟨depth, span⟩ := state
  obtain ⟨-, hsolid, rfl, rfl⟩ := reads_patternStep_next.mp hstep
  have hle := hrun.le
  have hbehind : start < before.step.next := Nat.lt_add_one_of_le hle
  refine ⟨Nat.le_succ_of_le hle, ?_, ?_⟩
  · have hspan := hrun.span_eq
    rw [if_pos hbehind]
    dsimp only at hspan
    rw [hspan]
    rcases Nat.eq_or_lt_of_le hle with rfl | hlt
    · rw [if_neg (Nat.lt_irrefl _)]
      rfl
    · rw [if_pos hlt]
      have hstart := hordered.start_le_start hle (hrun.isSolid start (Nat.le_refl _) hlt) hsolid
      have hstop := hordered.stop_le_stop (Nat.sub_le _ 1)
        (hrun.isSolid (before.next - 1) (by omega) (by omega)) hsolid
      simp only [Span.joinOption, Span.join, Place.step_next, Nat.add_sub_cancel]
      rw [Nat.min_eq_right hstart, Nat.max_eq_left hstop]
  · intro index hge hlt
    rcases Nat.lt_succ_iff_lt_or_eq.mp hlt with hlt | rfl
    · exact hrun.isSolid index hge hlt
    · exact hsolid

/-- The steps of a pattern pass over a run of text. -/
theorem PatternRun.iterates {start count : Nat} {state : Nat × Option Span} {span : Option Span}
    (hordered : tokens.InOrder) (hrun : PatternRun tokens start state.2 before.next)
    (hiterates : Iterates patternStep tokens count state before span after) :
    PatternRun tokens start span after.next := by
  induction hiterates with
  | @done state before after result hstep =>
    obtain ⟨depth, span⟩ := state
    obtain ⟨-, -, rfl, rfl⟩ := reads_patternStep_done.mp hstep
    exact hrun
  | next hstep _ ih => exact ih (hrun.step hordered hstep)

/-- A pattern is the text of the tokens that are taken for it. -/
theorem casePattern_eq {pattern : String} (hordered : tokens.InOrder)
    (hreads : casePattern.Reads tokens before pattern after) :
    before.next < after.next ∧
      (∀ index, before.next ≤ index → index < after.next → (tokens.get index).kind.IsSolid) ∧
      pattern = String.ofList (Text.slice tokens.source
        (tokens.spanBetween before.next after.next).start
        (tokens.spanBetween before.next after.next).stop) := by
  obtain ⟨span, hspan, rfl⟩ := reads_casePattern.mp hreads
  obtain ⟨count, -, hiterates⟩ := reads_iterate.mp hspan
  have hrun := PatternRun.nil.iterates hordered hiterates
  have hspan := hrun.span_eq
  by_cases hlt : before.next < after.next
  · rw [if_pos hlt] at hspan
    cases hspan
    exact ⟨hlt, hrun.isSolid, by rw [Tokens.spanBetween_of_isSolid hlt hrun.isSolid]⟩
  · rw [if_neg hlt] at hspan
    cases hspan

/-- What is known in front of a token of a pattern that starts outside of brackets: the number of
open brackets too, and that colons and `if` stand within brackets only. -/
structure PatternFront (tokens : Tokens) (start : Nat) (state : Nat × Option Span) (stop : Nat) :
    Prop extends PatternRun tokens start state.2 stop where
  depth_eq : state.1 = (tokens.openers stop).length
  inside : ∀ index, start ≤ index → index < stop →
    (tokens.get index).kind = .colon ∨ (tokens.get index).kind = .keywordIf →
      0 < (tokens.openers index).length

/-- No bracket is open at the start of a pattern. -/
theorem PatternFront.nil {start : Nat} (hstart : tokens.openers start = []) :
    PatternFront tokens start (0, none) start where
  toPatternRun := .nil
  depth_eq := by rw [hstart]; rfl
  inside _ hge hlt := absurd hge (Nat.not_le_of_lt hlt)

/-- The number of brackets that a step knows of stays the number of those that are open. -/
theorem depth_eq_of_patternStep {state state' : Nat × Option Span}
    (hdepth : state.1 = (tokens.openers before.next).length)
    (hstep : (patternStep state).Reads tokens before (.next state') after) :
    state'.1 = (tokens.openers after.next).length := by
  obtain ⟨depth, span⟩ := state
  obtain rfl : depth = (tokens.openers before.next).length := hdepth
  obtain ⟨-, -, rfl, rfl⟩ := reads_patternStep_next.mp hstep
  exact (tokens.length_openers_succ before.next).symm

/-- Each step over a pattern keeps count of the brackets that it opens and closes. -/
theorem PatternFront.step {start : Nat} {state state' : Nat × Option Span}
    (hordered : tokens.InOrder) (hfront : PatternFront tokens start state before.next)
    (hstep : (patternStep state).Reads tokens before (.next state') after) :
    PatternFront tokens start state' after.next := by
  refine ⟨hfront.toPatternRun.step hordered hstep, depth_eq_of_patternStep hfront.depth_eq hstep, ?_⟩
  obtain ⟨depth, span⟩ := state
  obtain ⟨hnot, -, rfl, -⟩ := reads_patternStep_next.mp hstep
  intro index hge hlt hkind
  rcases Nat.lt_succ_iff_lt_or_eq.mp hlt with hlt | rfl
  · exact hfront.inside index hge hlt hkind
  · rw [← hfront.depth_eq]
    exact Nat.pos_of_ne_zero fun hzero => hnot ⟨hzero, hkind⟩

/-- The steps of a pattern end outside of brackets. -/
theorem PatternFront.iterates {start count : Nat} {state : Nat × Option Span} {span : Option Span}
    (hordered : tokens.InOrder) (hfront : PatternFront tokens start state before.next)
    (hiterates : Iterates patternStep tokens count state before span after) :
    PatternFront tokens start (0, span) after.next ∧
      (tokens.kindAt after = .colon ∨ tokens.kindAt after = .keywordIf) := by
  induction hiterates with
  | @done state before after result hstep =>
    obtain ⟨depth, span⟩ := state
    obtain ⟨rfl, hkind, rfl, rfl⟩ := reads_patternStep_done.mp hstep
    exact ⟨hfront, hkind⟩
  | next hstep _ ih => exact ih (hfront.step hordered hstep)

/-- A pattern with a span holds tokens, and its span holds text of the source. -/
theorem PatternFront.slice_eq {start stop depth : Nat} {span : Span} (hordered : tokens.InOrder)
    (hfront : PatternFront tokens start (depth, some span) stop) :
    start < stop ∧ ∃ piece, piece ≠ [] ∧ Text.slice tokens.source span.start span.stop = piece ∧
      Text.slice? tokens.source (tokens.get start).span.start (tokens.get (stop - 1)).span.stop =
        some piece := by
  have hspan := hfront.span_eq
  by_cases hlt : start < stop
  · rw [if_pos hlt] at hspan
    cases hspan
    have hfirst := hfront.isSolid start (Nat.le_refl _) hlt
    have hlast := hfront.isSolid (stop - 1) (by omega) (by omega)
    have hstop := hordered.stop_le_stop (show start ≤ stop - 1 by omega) hfirst hlast
    have hne := Text.slice_ne_nil (hordered.start_isBoundary _ hfirst)
      (hordered.stop_isBoundary _ hlast) (Nat.lt_of_lt_of_le (hordered.start_lt _ hfirst) hstop)
    obtain ⟨piece, hpiece⟩ := Text.exists_slice?_of_ne_nil hne
    rw [Text.slice_of_slice? hpiece] at hne
    exact ⟨hlt, piece, hne, Text.slice_of_slice? hpiece, hpiece⟩
  · rw [if_neg hlt] at hspan
    cases hspan

private theorem casePattern_front {pattern : String} (hordered : tokens.InOrder)
    (hstart : tokens.openers before.next = [])
    (hreads : casePattern.Reads tokens before pattern after) :
    (∃ span, PatternFront tokens before.next (0, some span) after.next ∧
        pattern = String.ofList (Text.slice tokens.source span.start span.stop)) ∧
      (tokens.kindAt after = .colon ∨ tokens.kindAt after = .keywordIf) := by
  obtain ⟨span, hspan, htext⟩ := reads_casePattern.mp hreads
  obtain ⟨count, -, hiterates⟩ := reads_iterate.mp hspan
  obtain ⟨hfront, hkind⟩ := (PatternFront.nil hstart).iterates hordered hiterates
  exact ⟨⟨span, hfront, htext⟩, hkind⟩

/-- The pattern of a case that stands outside of brackets. -/
theorem matchCase_hasPattern {case : MatchCase} (hordered : tokens.InOrder)
    (hmatched : tokens.Matched) (hblock : block.LaysStmts tokens)
    (hword : isWord "case" (tokens.get before.next)) (hstart : tokens.openers before.next = [])
    (hreads : (matchCase block).Reads tokens before case after) :
    ∃ stop, tokens.HasPattern before.next stop case := by
  obtain ⟨pattern, middle, hpattern, guard, header, hguard, body, hbody, rfl⟩ :=
    reads_matchCase.mp hreads
  have hidentifier : (tokens.get before.next).kind = .identifier := kind_of_isWord hword
  have hinner : tokens.openers before.step.next = [] := by
    rw [Place.step_next, Tokens.openers, Token.openersBehind, hidentifier]
    exact hstart
  obtain ⟨⟨span, hfront, rfl⟩, hkind⟩ := casePattern_front hordered hinner hpattern
  obtain ⟨hlt, piece, hne, hpiece, hslice⟩ := hfront.slice_eq hordered
  rw [hpiece]
  have hstop : tokens.openers middle.next = [] := List.eq_nil_of_length_eq_zero hfront.depth_eq.symm
  refine ⟨middle.next, hword, ?_, hlt, ?_, ?_, ?_, ?_, ?_⟩
  · have hguarded := ((namedExpr_lays hordered).ifAccepted hordered (by decide) hguard).le
    have hbodied := (hblock hbody).le
    have hlt : before.next < after.next :=
      Nat.lt_of_lt_of_le (Nat.lt_of_succ_lt hlt) (Nat.le_trans hguarded hbodied)
    exact Tokens.spanBetween_start (by rw [hidentifier]; rfl) hlt
  · rw [reads_ifAccepted] at hguard
    split at hguard
    · rename_i hif
      obtain ⟨value, -, rfl⟩ := hguard
      exact hif
    · rename_i hif
      obtain ⟨rfl, -⟩ := hguard
      exact hkind.resolve_right hif
  · rw [String.toList_ofList]
    exact hslice
  · intro hempty
    exact hne (by simpa using congrArg String.toList hempty)
  · exact hmatched.balanced (Nat.le_of_lt hlt) hfront.isSolid hinner hstop
  · intro index hge hlt hcolon
    have hopen := hfront.inside index hge hlt hcolon
    rw [hmatched.openBrackets_eq, hmatched.openBrackets_eq, ← Place.step_next, hinner]
    exact_mod_cast hopen

/-- The first case of a match statement stands outside of brackets, as an indent is in front
of it. -/
theorem matchSubject?_openers {subject : Expr} (hmatched : tokens.Matched)
    (hreads : matchSubject?.Reads tokens before (some subject) after) :
    tokens.openers after.next = [] := by
  obtain ⟨header, -, -, -, hindent, -, rfl⟩ := reads_matchSubject?.mp hreads
  have hkind : ¬(tokens.get header.step.step.next).kind.isSignificant := by
    rw [Tokens.get_kind, hindent]
    decide
  exact (hmatched.openers_structural hkind).2

/-- The cases of a match statement stand behind an indent or another case, so outside
of brackets. -/
theorem matchStmt?_hasPattern {depth : Nat} {stmt : Stmt} (hordered : tokens.InOrder)
    (hmatched : tokens.Matched)
    (hreads : (matchStmt? (blockWithin depth)).Reads tokens before (some stmt) after) :
    ∀ case ∈ stmt.form.cases, ∃ keyword stop, tokens.HasPattern keyword stop case := by
  obtain ⟨_, middle, cases, last, hsubject, hcases, -, -, rfl⟩ := reads_matchStmt?_some hreads
  rw [StmtForm.cases]
  have hmiddle := matchSubject?_openers hmatched hsubject
  clear hsubject hreads
  induction hcases with
  | stop => exact List.forall_mem_nil _
  | @item before _ _ _ _ _ hcondition hcase _ ih =>
    obtain ⟨hword, rfl⟩ := reads_nextIsWord.mp hcondition
    have hblock := blockWithin_lays hordered depth
    have hpattern := @matchCase_hasPattern tokens (before.look 0) _ _ _ hordered hmatched hblock
      hword.symm hmiddle hcase
    obtain ⟨_, _, -, _, _, -, body, hbody, -⟩ := reads_matchCase.mp hcase
    have hbehind := hmatched.openers_endsLine (blockWithin_endsLines depth hbody)
    exact List.forall_mem_cons.mpr ⟨⟨_, hpattern⟩, ih hbehind⟩

end Parser

end PythonOutline
