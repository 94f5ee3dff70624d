import PythonOutline.Proofs.Lexer.Layout

/-! # Levels of indentation in a token sequence

`levelAt` counts the levels that are open in front of a token. For every source, with lexical
errors or without, there are fewer of them than the lexer allows, and fewer than the source has
tokens.
-/

namespace PythonOutline

namespace Tokens

variable {tokens : Tokens}

/-- How much a token changes the number of open levels. -/
def levelChange : TokenKind → Int
  | .indent => 1
  | .dedent => -1
  | _ => 0

/-- The number of levels that are open in front of the token at an index. -/
def levelAt (tokens : Tokens) : (index : Nat) → Int
  | 0 => 0
  | index + 1 => tokens.levelAt index + levelChange (tokens.get index).kind

@[simp]
theorem levelChange_endOfInput : levelChange .endOfInput = 0 :=
  rfl

@[simp]
theorem levelChange_invalid : levelChange .invalid = 0 :=
  rfl

/-- Tokens of text do not change the level. -/
theorem levelChange_of_isSolid {kind : TokenKind} (hsolid : kind.IsSolid) : levelChange kind = 0 := by
  unfold levelChange
  split
  · exact absurd hsolid (by decide)
  · exact absurd hsolid (by decide)
  · rfl

/-- Every token but a dedent keeps the open levels open. -/
theorem levelChange_nonneg {kind : TokenKind} (hkind : kind ≠ .dedent) : 0 ≤ levelChange kind := by
  unfold levelChange
  split
  · decide
  · contradiction
  · decide

private theorem levelChange_le_one (kind : TokenKind) : levelChange kind ≤ 1 := by
  unfold levelChange
  split <;> decide

/-- At least so many levels are open in front of a token. -/
def AtLevel (tokens : Tokens) (level : Int) (index : Nat) : Prop :=
  level ≤ tokens.levelAt index

/-- Behind an indent one more level is open. -/
theorem AtLevel.indent {level : Int} {index : Nat} (hlevel : tokens.AtLevel level index)
    (hkind : (tokens.get index).kind = .indent) : tokens.AtLevel (level + 1) (index + 1) := by
  rw [AtLevel, levelAt, hkind]
  exact Int.add_le_add_right hlevel 1

/-- Behind a dedent one level less is open. -/
theorem AtLevel.dedent {level : Int} {index : Nat} (hlevel : tokens.AtLevel (level + 1) index)
    (hkind : (tokens.get index).kind = .dedent) : tokens.AtLevel level (index + 1) := by
  rw [AtLevel] at hlevel ⊢
  rw [levelAt, hkind]
  simp only [levelChange]
  omega

/-- A level is opened by a token, so there are no more levels than tokens. -/
theorem levelAt_le (tokens : Tokens) (index : Nat) : tokens.levelAt index ≤ index := by
  induction index with
  | zero => exact Int.le_refl _
  | succ index ih =>
    have hchange := levelChange_le_one (tokens.get index).kind
    rw [levelAt]
    omega

/-- Ends of input open no levels and close none. -/
theorem levelAt_add_of_ended {bound : Nat}
    (hended : ∀ index, bound ≤ index → (tokens.get index).kind = .endOfInput) (count : Nat) :
    tokens.levelAt (bound + count) = tokens.levelAt bound := by
  induction count with
  | zero => rfl
  | succ count ih =>
    rw [← Nat.add_assoc, levelAt, hended _ (Nat.le_add_right _ _), ih]
    exact Int.add_zero _

end Tokens

/-- A step of a layout changes the number of open levels as its token says. -/
theorem LayoutStep.depth_eq {before after : Layout} {kind : TokenKind}
    (hstep : LayoutStep before kind after) :
    (after.depth : Int) = before.depth + Tokens.levelChange kind := by
  cases hstep with
  | indent => rfl
  | dedent =>
    simp only [Tokens.levelChange]
    omega
  | text hkind => simp [Tokens.levelChange_of_isSolid hkind]
  | newline => simp [Tokens.levelChange]

namespace Lexer

variable {source : List Char} {lexer : Lexer}

/-- A lexer has answered tokens that leave as many levels open as it knows of, or only ends of input
are to come. -/
def KeepsLevel (lexer : Lexer) (source : List Char) (level : Int) : Prop :=
  level < maxIndentLevels ∧
    (lexer.Layered ∧ lexer.Reading source ∧ level = lexer.layout.depth ∨ lexer.Ended)

/-- The next token changes the level by what its kind says. -/
theorem KeepsLevel.next {level : Int} (hkeeps : lexer.KeepsLevel source level) :
    lexer.next.2.KeepsLevel source (level + Tokens.levelChange lexer.next.1.kind) := by
  obtain ⟨hlt, ⟨hlayered, hreading, rfl⟩ | hended⟩ := hkeeps
  · rcases hreading.next_ended with ⟨hreadable, hbehind, -⟩ | ⟨htoken, -, hended⟩ |
      ⟨hinvalid, -, hended⟩
    · obtain ⟨hstep, hlayeredBehind⟩ := hlayered.next_advances hreading hreadable.1
      have hstep := hstep.resolve_right fun hlast => hreadable.2 hlast.1
      rw [← hstep.depth_eq]
      exact ⟨by exact_mod_cast hlayeredBehind.depth_lt, .inl ⟨hlayeredBehind, hbehind, rfl⟩⟩
    · have hkind : lexer.next.1.kind = .endOfInput := by rw [htoken]; rfl
      rw [hkind, Tokens.levelChange_endOfInput, Int.add_zero]
      exact ⟨hlt, .inr hended⟩
    · rw [hinvalid, Tokens.levelChange_invalid, Int.add_zero]
      exact ⟨hlt, .inr hended⟩
  · have hnext : lexer.next = (.endOfInput lexer.size, lexer) := hended
    have hkind : lexer.next.1.kind = .endOfInput := by rw [hnext]; rfl
    rw [hkind, Tokens.levelChange_endOfInput, Int.add_zero, hnext]
    exact ⟨hlt, .inr hended⟩

end Lexer

namespace Tokens

/-- The lexer of a source knows of the levels that its tokens have left open. -/
theorem keepsLevel_ofSource (source : String) (index : Nat) :
    ((Lexer.ofSource source).after index).KeepsLevel source.toList
      ((ofSource source).levelAt index) := by
  induction index with
  | zero =>
    have hlt : (0 : Int) < maxIndentLevels := by decide
    exact ⟨hlt, .inl ⟨Lexer.ofSource_layered source, (Lexer.ofSource_reading source), rfl⟩⟩
  | succ index ih =>
    rw [Lexer.after_succ, levelAt, get_ofSource_eq_next]
    exact ih.next

/-- There are never more levels open than the lexer allows. -/
theorem levelAt_ofSource_lt (source : String) (index : Nat) :
    (ofSource source).levelAt index < maxIndentLevels :=
  (keepsLevel_ofSource source index).1

/-- There are never as many levels open as the source has tokens. -/
theorem levelAt_ofSource_lt_size (source : String) (index : Nat) :
    (ofSource source).levelAt index < (ofSource source).tokens.size := by
  have hpos := size_ofSource_pos source
  have hended : ∀ index, (ofSource source).tokens.size - 1 ≤ index →
      ((ofSource source).get index).kind = .endOfInput := by
    intro index hle
    exact (kind_ofSource_eq_endOfInput_iff source index).mpr (by omega)
  by_cases hle : (ofSource source).tokens.size - 1 ≤ index
  · obtain ⟨count, rfl⟩ := Nat.exists_eq_add_of_le hle
    have hlevel := levelAt_le (ofSource source) ((ofSource source).tokens.size - 1)
    rw [levelAt_add_of_ended hended]
    omega
  · have hlevel := levelAt_le (ofSource source) index
    omega

end Tokens

end PythonOutline
