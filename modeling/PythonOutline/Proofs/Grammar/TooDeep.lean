import PythonOutline.Proofs.Grammar.Termination
import PythonOutline.Proofs.Grammar.TracesStmt

/-! # Where an expression is nested too deep

The parser counts the levels that are open and looks at the next token when one too many is to be
opened. For a bracket or a lambda that is the token that opens the level. An operator has been taken
by then, so its operand is reported. -/

namespace PythonOutline

open PythonOutline.Parser

variable {source : String}

/-- A module that fails about nesting does so in a construct of the outermost level. No block is
nested too deep for the levels of indentation. -/
theorem module_failsAt {error : SyntaxError} {place : Place}
    (hmodule : Parser.module (.ofSource source) .start = .error error place)
    (hcause : error.cause = .nestingTooDeep) :
    ∃ opener, Level.outermost.FailsAt (.ofSource source) opener error := by
  have hnesting : moduleNesting (failNext .unexpectedEnd) maxIndentLevels (.ofSource source) .start =
      Parser.module (.ofSource source) .start := by
    rw [← moduleNesting_failNext]
    exact moduleNesting_eq (Tokens.inOrder_ofSource source) (Tokens.levelAt_ofSource_lt source)
      (Tokens.levelAt_ofSource_lt source)
  rw [← hnesting] at hmodule
  have htraced : TracesAt Level.outermost 0 (.ofSource source) .start
      (moduleNesting (failNext .unexpectedEnd) maxIndentLevels) :=
    Traces.tracesAt (Nat.zero_le _)
  obtain ⟨opener, -, hfails⟩ := htraced.traces hmodule hcause
  exact ⟨opener, hfails⟩

/-- **The 200th level is where an expression is nested too deep.** If the parser reports that, 200
tokens open levels one in the other: the construct that each of them opens fails in the levels that
are open so far. The error is at the token that the last construct starts with: the opening token of
a lambda or of brackets, and the one behind a unary operator, a `not`, a `**` or an `else`. -/
theorem parseModule_tooDeep {error : SyntaxError} (hparse : parseModule source = .error error)
    (hcause : error.cause = .nestingTooDeep)
    (hlexer : (Tokens.ofSource source).failure ≠ some error) :
    ∃ openers : Nat → Nat,
      (∀ depth < 199, openers depth < openers (depth + 1)) ∧
      (∀ depth < 200, (Level.withInner (199 - depth)).FailsAt (.ofSource source) (openers depth)
        error) ∧
      ∃ construct,
        Construct.IsOpenedBy ((Tokens.ofSource source).get (openers 199)).kind construct ∧
        error = ((Tokens.ofSource source).get (construct.startsAt (openers 199))).error
          .nestingTooDeep := by
  obtain ⟨place, hmodule⟩ := (parseModule_error_cases hparse).resolve_right hlexer
  obtain ⟨opener, hfails⟩ := module_failsAt hmodule hcause
  obtain ⟨openers, -, hincreasing, hfails⟩ := Level.FailsAt.openers hfails hcause
  have hinnermost : (Level.withInner 0).FailsAt (.ofSource source) (openers 199) error :=
    hfails 199 (Nat.le_refl _)
  exact ⟨openers, hincreasing, fun depth hdepth => hfails depth (Nat.le_of_lt_succ hdepth),
    hinnermost.innermost⟩

/-- A name behind 200 unary operators. -/
def negations : String :=
  String.ofList (List.replicate 200 '-' ++ ['x', '\n'])

/-- A chain of two hundred hyphens fails at the operand behind the last of them, and its tokens are
read without a failure. -/
private theorem parseModule_negations :
    parseModule negations = .error ⟨.nestingTooDeep, ⟨200, 201⟩, some .identifier⟩ ∧
      (Tokens.ofSource negations).failure = none := by
  have hfails : (match parseModule negations with
      | .ok _ => false
      | .error error => error == ⟨.nestingTooDeep, ⟨200, 201⟩, some .identifier⟩ &&
        (Tokens.ofSource negations).failure.isNone) = true := by
    decide +kernel
  cases hresult : parseModule negations with
  | ok =>
    rw [hresult] at hfails
    cases hfails
  | error error =>
    rw [hresult] at hfails
    obtain ⟨herror, hfailure⟩ := Bool.and_eq_true_iff.mp hfails
    exact ⟨by rw [beq_iff_eq.mp herror], Option.isNone_iff_eq_none.mp hfailure⟩

/-- The 200 operators open levels one in the other. -/
theorem parseModule_tooDeep_negations :
    ∃ error, parseModule negations = .error error ∧ error.cause = .nestingTooDeep ∧
      (Tokens.ofSource negations).failure ≠ some error ∧
      ∃ openers : Nat → Nat,
        (∀ depth < 199, openers depth < openers (depth + 1)) ∧
        (∀ depth < 200, (Level.withInner (199 - depth)).FailsAt (.ofSource negations)
          (openers depth) error) ∧
        ∃ construct,
          Construct.IsOpenedBy ((Tokens.ofSource negations).get (openers 199)).kind construct ∧
          error = ((Tokens.ofSource negations).get (construct.startsAt (openers 199))).error
            .nestingTooDeep := by
  obtain ⟨hparse, hfailure⟩ := parseModule_negations
  have hlexer : (Tokens.ofSource negations).failure ≠
      some ⟨.nestingTooDeep, ⟨200, 201⟩, some .identifier⟩ := by
    rw [hfailure]
    nofun
  exact ⟨_, hparse, rfl, hlexer, parseModule_tooDeep hparse rfl hlexer⟩

/-- The error is not at the token that opens the 200th level: it is at a name, which opens none. -/
theorem parseModule_tooDeep_operand :
    ∃ error, parseModule negations = .error error ∧ error.cause = .nestingTooDeep ∧
      (Tokens.ofSource negations).failure ≠ some error ∧
      ∃ kind, error.token = some kind ∧ ∀ construct, ¬Construct.IsOpenedBy kind construct := by
  obtain ⟨hparse, hfailure⟩ := parseModule_negations
  refine ⟨_, hparse, rfl, ?_, .identifier, rfl, fun construct => ?_⟩
  · rw [hfailure]
    nofun
  · cases construct <;> nofun

end PythonOutline
