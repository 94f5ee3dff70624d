import Mathlib.Data.List.Infix
import PythonOutline.Proofs.Grammar.LexicalError
import PythonOutline.Proofs.Lexer.Bounds
import PythonOutline.Proofs.Text.Cut
import PythonOutline.Report

/-! # Where errors stand

An error is about a token, about a node that was read, or it is a failure of the lexer. Each of them
lies in the source and can be cut out of it, so a report shows the error where it is: the start and
the end of its span are never moved to another character. -/

namespace PythonOutline

namespace Report

/-- The part of a line that a report shows behind an offset is the start of what the source holds
there. -/
theorem ShownLine.after_prefix (source : List Char) (offset : Nat) :
    (ShownLine.find source offset).after <+: (Text.cut source offset).2 := by
  have hreturn : ∀ line : List Char, withoutReturn line <+: line := by
    intro line
    unfold withoutReturn
    split
    · exact List.dropLast_prefix line
    · exact List.prefix_refl line
  have hdrop := (hreturn (((Text.cut source offset).1.reverse.takeWhile (· != '\n')).reverse ++
    (Text.cut source offset).2.takeWhile (· != '\n'))).drop
      ((Text.cut source offset).1.reverse.takeWhile (· != '\n')).reverse.length
  rw [List.drop_left] at hdrop
  exact hdrop.trans (List.takeWhile_prefix _)

end Report

/-- A span from one solid token to another one lies in the source. -/
theorem Tokens.Spans.isIn {tokens : Tokens} {seen : Nat} {span : Span}
    (hspans : tokens.Spans seen span) (hordered : tokens.InOrder) : span.IsIn tokens.source := by
  obtain ⟨first, last, hle, -, hfirst, hlast, rfl⟩ := hspans
  have hstops := hordered.stop_le_stop hle hfirst hlast
  exact ⟨Nat.le_trans (Nat.le_of_lt (hordered.start_lt first hfirst)) hstops,
    hordered.start_isBoundary first hfirst, hordered.stop_isBoundary last hlast⟩

variable {source : String} {error : SyntaxError}

/-- An error of the parser lies in the source. -/
theorem Parser.module_isIn {place : Place}
    (herror : Parser.module (.ofSource source) .start = .error error place) :
    error.span.IsIn source.toList := by
  cases module_blames herror with
  | found => exact Tokens.isIn_ofSource source _
  | wanted => exact Tokens.isIn_ofSource source _
  | node hnode => exact (hnode (Tokens.inOrder_ofSource source)).isIn (Tokens.inOrder_ofSource source)

private theorem parseModule_isIn (hparse : parseModule source = .error error) :
    error.span.IsIn source.toList := by
  rcases parseModule_error_cases hparse with ⟨place, herror⟩ | hfailure
  · exact Parser.module_isIn herror
  · exact Tokens.isIn_failure hfailure

/-- The report of an error in a source covers its span up to the end of the line. -/
theorem Span.IsIn.reported {source : List Char} {span : Span} (hisIn : span.IsIn source) :
    Report.extent source span = span.stop - span.start ∧
      Text.byteLength (Text.cut (Report.ShownLine.find source span.start).after
        (Report.extent source span)).1 =
          min (span.stop - span.start)
            (Text.byteLength (Report.ShownLine.find source span.start).after) := by
  have hextent : Report.extent source span = span.stop - span.start := by
    rw [Report.extent, hisIn.start_isBoundary.byteLength_cut]
  refine ⟨hextent, ?_⟩
  rw [hextent]
  refine Text.IsBoundary.byteLength_cut_prefix ?_ (Report.ShownLine.after_prefix _ _)
  obtain ⟨before, after, rfl, hstart⟩ := hisIn.start_isBoundary
  obtain ⟨upTo, behind, hsplit, hstop⟩ := hisIn.stop_isBoundary
  rw [← hstart, Text.cut_append, ← hstop]
  have hle := hisIn.start_le
  rcases List.append_eq_append_iff.mp hsplit with ⟨within, rfl, rfl⟩ | ⟨within, rfl, rfl⟩
  · exact ⟨within, behind, rfl, by simp⟩
  · -- The end would lie in front of the start.
    rw [← hstart, ← hstop, Text.byteLength_append] at hle
    exact ⟨[], after, rfl, by simp⟩

/-- **Errors can be shown where they are.** The span of the error of a source that is no module
starts and ends at characters of the source, in this order. So nothing is clamped to a character
when the error is reported: neither end moves, and the carets stand under the span up to the end of
its line. -/
theorem parseModule_error_span (hparse : parseModule source = .error error) :
    (0 ≤ error.span.start ∧ error.span.start ≤ error.span.stop ∧
        error.span.stop ≤ source.utf8ByteSize ∧
        Text.IsBoundary source.toList error.span.start ∧
        Text.IsBoundary source.toList error.span.stop) ∧
      (Text.byteLength (Text.cut source.toList error.span.start).1 = error.span.start ∧
        Text.byteLength (Text.cut source.toList error.span.stop).1 = error.span.stop) ∧
      Report.extent source.toList error.span = error.span.stop - error.span.start ∧
      Text.byteLength (Text.cut (Report.ShownLine.find source.toList error.span.start).after
        (Report.extent source.toList error.span)).1 =
          min (error.span.stop - error.span.start)
            (Text.byteLength (Report.ShownLine.find source.toList error.span.start).after) := by
  have hisIn := parseModule_isIn hparse
  have hstop := hisIn.stop_isBoundary.le_byteLength
  rw [← Text.utf8ByteSize_eq_byteLength] at hstop
  exact ⟨⟨Nat.zero_le _, hisIn.start_le, hstop, hisIn.start_isBoundary, hisIn.stop_isBoundary⟩,
    ⟨hisIn.start_isBoundary.byteLength_cut, hisIn.stop_isBoundary.byteLength_cut⟩, hisIn.reported⟩

/-- A literal with a wide character is no target of an assignment. -/
theorem parseModule_error_span_literal :
    ∃ error, parseModule "'€' = 1" = .error error ∧
      error.span.stop ≤ 9 ∧ Text.IsBoundary "'€' = 1".toList error.span.stop ∧
      Text.byteLength (Text.cut "'€' = 1".toList error.span.stop).1 = error.span.stop := by
  have hfails : (parseModule "'€' = 1").isOk = false := by decide +kernel
  cases hparse : parseModule "'€' = 1" with
  | ok =>
    rw [hparse] at hfails
    cases hfails
  | error error =>
    obtain ⟨⟨-, -, hle, -, hstop⟩, ⟨-, hcut⟩, -⟩ := parseModule_error_span hparse
    exact ⟨error, rfl, hle, hstop, hcut⟩

end PythonOutline
