import PythonOutline.Proofs.Grammar.DepthBlock
import PythonOutline.Proofs.Grammar.DepthDisplay
import PythonOutline.Proofs.Grammar.LexicalError

/-! # Parsing ends

On the tokens of any source, with lexical errors or without, every loop of the grammar goes on at
most as often as there are tokens left, and expressions and blocks nest at most as deep.
-/

namespace PythonOutline

open PythonOutline.Parser

/-- A source has fewer levels of indentation than the lexer allows, and fewer than it has tokens. -/
theorem Tokens.levelAt_lt_of_or {source : String} {depth : Nat}
    (hdepth : maxIndentLevels ≤ depth ∨ (ofSource source).tokens.size ≤ depth) (index : Nat) :
    (ofSource source).levelAt index < depth := by
  have hlevels := levelAt_ofSource_lt source index
  have hsize := levelAt_ofSource_lt_size source index
  omega

/-- A loop of the grammar that goes on takes a token, so it goes on at most as often as there are
tokens left. The bound on its steps is not what ends it. -/
theorem GrammarLoop.cycles {σ α : Type} {step : σ → Parser (Step σ α)} (hloop : GrammarLoop step)
    (source : String) (state : σ) (place : Place) :
    ∃ count ≤ (Tokens.ofSource source).tokens.size - 1 - place.next,
      Cycles step (Tokens.ofSource source) count state place
        (iterate state step (Tokens.ofSource source) place) := by
  have hends := Tokens.endsAt_ofSource source
  exact (hloop.advances (Tokens.inOrder_ofSource source)).cycles
    (fun index => (hends index).mpr) (by omega) state

/-- A method of expressions needs no more levels than there are tokens left. -/
theorem LevelMethod.nesting_ofSource {α : Type} {parser : Level → Parser α}
    (hmethod : LevelMethod parser) (source : String) (innermost : Level) {count : Nat}
    {place : Place}
    (hplace : place.next < (Tokens.ofSource source).tokens.size)
    (hcount : (Tokens.ofSource source).tokens.size - 1 - place.next ≤ count) :
    parser (Level.nesting innermost count) (Tokens.ofSource source) place =
      parser (Level.withInner (Tokens.ofSource source).tokens.size) (Tokens.ofSource source)
        place := by
  rw [← Level.nesting_innermost]
  exact hmethod.nesting_eq (Tokens.endsAt_ofSource source) (by omega) (by omega) (by omega)

/-- A module needs no more nested blocks than the lexer allows levels, and than it has tokens. -/
theorem runOn_moduleNesting (source : String) (innermost : Parser (List Stmt)) {depth : Nat}
    (hdepth : maxIndentLevels ≤ depth ∨ (Tokens.ofSource source).tokens.size ≤ depth) :
    runOn (moduleNesting innermost depth) (Tokens.ofSource source) = parseModule source := by
  have hmodule : moduleNesting innermost depth (Tokens.ofSource source) .start =
      moduleNesting (failNext .nestingTooDeep) maxIndentLevels (Tokens.ofSource source) .start :=
    moduleNesting_eq (Tokens.inOrder_ofSource source) (Tokens.levelAt_ofSource_lt source)
      (Tokens.levelAt_lt_of_or hdepth)
  rw [parseModule, ← moduleNesting_failNext, runOn, runOn, hmodule]

/-- Parsing any source is bounded by the number of its tokens. Every step of a loop that goes on
takes a token in front of the end of the input, so a loop goes on at most as often as there are
tokens left. A method that succeeds takes no end of the input, unless it is the module or told to.
Expressions nest at most as deep as there are tokens left, and blocks as there are tokens:
whatever stands for those that nest deeper, the result is the same. -/
theorem parseModule_bounded (source : String) :
    (∀ {σ α : Type} {step : σ → Parser (Step σ α)}, GrammarLoop step →
      Advances step (Tokens.ofSource source) ∧
        ∀ state place, ∃ count ≤ (Tokens.ofSource source).tokens.size - 1 - place.next,
          Cycles step (Tokens.ofSource source) count state place
            (iterate state step (Tokens.ofSource source) place)) ∧
      (∀ {levels : Nat} {α : Type} {parser : Parser α}, Method levels parser →
        TakesEnd parser ∨ parser.Takes (Tokens.ofSource source) 0) ∧
      (∀ {α : Type} {parser : Level → Parser α}, LevelMethod parser →
        ∀ (innermost : Level) (count : Nat) (place : Place),
          place.next < (Tokens.ofSource source).tokens.size →
          (Tokens.ofSource source).tokens.size - 1 - place.next ≤ count →
            parser (Level.nesting innermost count) (Tokens.ofSource source) place =
              parser (Level.withInner (Tokens.ofSource source).tokens.size) (Tokens.ofSource source)
                place) ∧
      ∀ (innermost : Parser (List Stmt)) (depth : Nat),
        maxIndentLevels ≤ depth ∨ (Tokens.ofSource source).tokens.size ≤ depth →
          runOn (moduleNesting innermost depth) (Tokens.ofSource source) = parseModule source := by
  have hordered := Tokens.inOrder_ofSource source
  have hends := Tokens.endsAt_ofSource source
  refine ⟨fun hloop => ⟨hloop.advances hordered, hloop.cycles source⟩,
    fun hmethod => hmethod.takes hordered hends, ?_, ?_⟩
  · intro α parser hmethod innermost count place hplace hcount
    exact hmethod.nesting_ofSource source innermost hplace hcount
  · intro innermost depth hdepth
    exact runOn_moduleNesting source innermost hdepth

end PythonOutline
