import PythonOutline.Proofs.Lexer.StringStride

/-! # Literals without braces

Only braces mean something else in a formatted literal. A literal that is not formatted is passed in
strides, which search its bytes, and a formatted one step by step. Where the text that the strides
pass holds no brace, the steps take the same way: they end behind the same quotes, or give up at the
same place. -/

namespace PythonOutline

/-- Where a scan stops, whether the literal is closed there or given up. -/
def StringScan.stop : StringScan → Cursor
  | .closed stop => stop
  | .unterminated stop => stop

/-- A character that opens or closes a replacement field. -/
def IsBrace (c : Char) : Prop :=
  c = '\x7b' ∨ c = '\x7d'

instance (c : Char) : Decidable (IsBrace c) :=
  inferInstanceAs (Decidable (_ ∨ _))

variable {modes : List StringMode} {quote c : Char} {triple : Bool} {following : List Char}

namespace StringMode

/-- The mode of the same literal with replacement fields in it. -/
def asFormatted : StringMode → StringMode
  | .text quote triple _ => .text quote triple true
  | mode => mode

/-- The modes of a literal that is not formatted: its text, and nothing behind it. -/
def AreUnformatted (modes : List StringMode) : Prop :=
  modes = [] ∨ ∃ quote triple, modes = [.text quote triple false]

/-- A step in a literal that is not formatted stays in it or closes it. -/
theorem step_areUnformatted {further : Nat}
    (hstep : (text quote triple false).step [] c following = some (further, modes)) :
    AreUnformatted modes := by
  have hopen : AreUnformatted [text quote triple false] := .inr ⟨quote, triple, rfl⟩
  simp only [step, Bool.false_eq_true, false_and, ↓reduceIte] at hstep
  split at hstep
  · cases hstep
    exact hopen
  split at hstep
  · cases hstep
  split at hstep
  · split at hstep
    · cases hstep
      exact .inl rfl
    split at hstep
    · cases hstep
      exact .inl rfl
    · cases hstep
      exact hopen
  · cases hstep
    exact hopen

/-- There is no step only at a line break that single quotes cannot span. -/
theorem step_eq_none (hstep : (text quote triple false).step [] c following = none) : c = '\n' := by
  simp only [step, Bool.false_eq_true, false_and, ↓reduceIte] at hstep
  split at hstep
  · cases hstep
  split at hstep
  · rename_i hfeed
    exact hfeed.1
  split at hstep
  · split at hstep
    · cases hstep
    split at hstep
    · cases hstep
    · cases hstep
  · cases hstep

/-- A character that is no brace means the same in a formatted literal. -/
theorem step_asFormatted (quote : Char) (triple : Bool) (following : List Char)
    (hc : ¬IsBrace c) :
    (text quote triple true).step [] c following =
      ((text quote triple false).step [] c following).map fun (further, modes) =>
        (further, modes.map asFormatted) := by
  have hbrace : ¬(c = '\x7b' ∨ c = '\x7d') := hc
  simp only [step, hbrace, and_false, ↓reduceIte]
  split
  · rfl
  split
  · rfl
  split
  · split
    · rfl
    split
    · rfl
    · rfl
  · rfl

end StringMode

/-- A scan passes the text up to where it stops. -/
theorem scanStringFrom_passes (skip : Nat) (modes : List StringMode) (cs : List Char)
    (offset : Nat) :
    ∃ text, (⟨cs, offset⟩ : Cursor).Passes text (scanStringFrom skip modes cs offset).stop := by
  fun_induction scanStringFrom skip modes cs offset with
  | case1 cs offset => exact ⟨[], .refl _⟩
  | case2 => exact ⟨[], .refl _⟩
  | case3 skip modes c cs offset ih =>
    obtain ⟨text, hpasses⟩ := ih
    exact ⟨c :: text, hpasses.cons⟩
  | case4 mode outer c cs offset hstep => exact ⟨[], .refl _⟩
  | case5 mode outer c cs offset skip modes hstep ih =>
    obtain ⟨text, hpasses⟩ := ih
    exact ⟨c :: text, hpasses.cons⟩

/-- Behind the first character of the text that a scan passes, it passes the others. -/
theorem passes_behind {skip : Nat} {cs text : List Char} {offset : Nat}
    (hpasses : (⟨c :: cs, offset⟩ : Cursor).Passes text
      (scanStringFrom skip modes cs (offset + c.utf8Size)).stop) :
    ∃ others, text = c :: others ∧ (⟨cs, offset + c.utf8Size⟩ : Cursor).Passes others
      (scanStringFrom skip modes cs (offset + c.utf8Size)).stop := by
  obtain ⟨others, hothers⟩ := scanStringFrom_passes skip modes cs (offset + c.utf8Size)
  exact ⟨others, hpasses.textTo_eq.symm.trans (Cursor.Passes.cons hothers).textTo_eq, hothers⟩

/-- Replacement fields make no difference to a text without braces. -/
theorem scanStringFrom_asFormatted {skip : Nat} {cs text : List Char} {offset : Nat}
    (hmodes : StringMode.AreUnformatted modes)
    (hpasses : (⟨cs, offset⟩ : Cursor).Passes text (scanStringFrom skip modes cs offset).stop)
    (hbraces : ∀ c ∈ text, ¬IsBrace c) :
    scanStringFrom skip (modes.map StringMode.asFormatted) cs offset =
      scanStringFrom skip modes cs offset := by
  fun_induction scanStringFrom skip modes cs offset generalizing text with
  | case1 cs offset => simp [scanStringFrom]
  | case2 skip modes offset hopen =>
    cases skip with
    | zero =>
      cases modes with
      | nil => exact absurd rfl (hopen rfl)
      | cons mode outer => simp [scanStringFrom]
    | succ skip => simp [scanStringFrom]
  | case3 skip modes c cs offset ih =>
    obtain ⟨others, rfl, hothers⟩ := passes_behind hpasses
    rw [scanStringFrom, ih hmodes hothers (List.forall_mem_cons.mp hbraces).2]
  | case4 mode outer c cs offset hstep =>
    obtain hnil | ⟨quote, triple, hmode⟩ := hmodes
    · cases hnil
    · obtain ⟨rfl, rfl⟩ := List.cons.inj hmode
      -- The character is not passed, but it is a line break and so no brace.
      obtain rfl := StringMode.step_eq_none hstep
      have hformatted := StringMode.step_asFormatted quote triple cs (c := '\n') (by decide)
      rw [hstep] at hformatted
      rw [List.map_cons, List.map_nil, StringMode.asFormatted, scanStringFrom, hformatted]
      rfl
  | case5 mode outer c cs offset skip modes hstep ih =>
    obtain ⟨others, rfl, hothers⟩ := passes_behind hpasses
    obtain ⟨hc, hbraces⟩ := List.forall_mem_cons.mp hbraces
    obtain hnil | ⟨quote, triple, hmode⟩ := hmodes
    · cases hnil
    · obtain ⟨rfl, rfl⟩ := List.cons.inj hmode
      have hformatted := StringMode.step_asFormatted quote triple cs hc
      rw [hstep] at hformatted
      rw [List.map_cons, List.map_nil, StringMode.asFormatted, scanStringFrom, hformatted]
      exact ih (StringMode.step_areUnformatted hstep) hothers hbraces

private theorem scanString_passes_stop (formatted : Bool) (cursor : Cursor) :
    ∃ text, cursor.Passes text (scanString formatted cursor).stop := by
  obtain ⟨rest, offset⟩ := cursor
  cases rest with
  | nil => exact ⟨[], .refl _⟩
  | cons quote cs =>
    obtain ⟨text, hpasses⟩ := scanStringFrom_passes (StringMode.openText quote formatted cs).2
      [(StringMode.openText quote formatted cs).1] cs (offset + quote.utf8Size)
    exact ⟨quote :: text, hpasses.cons⟩

/-- A literal is scanned the same whether it is formatted or not, if it holds no brace. -/
theorem scanString_formatted {cursor : Cursor} {text : List Char}
    (hpasses : cursor.Passes text (scanString false cursor).stop)
    (hbraces : ∀ c ∈ text, ¬IsBrace c) : scanString true cursor = scanString false cursor := by
  obtain ⟨rest, offset⟩ := cursor
  cases rest with
  | nil => rfl
  | cons quote cs =>
    have hopens : StringMode.openText quote true cs =
        ((StringMode.openText quote false cs).1.asFormatted,
          (StringMode.openText quote false cs).2) := by
      unfold StringMode.openText
      split <;> rfl
    have hmodes : StringMode.AreUnformatted [(StringMode.openText quote false cs).1] := by
      unfold StringMode.openText
      split
      · exact .inr ⟨quote, true, rfl⟩
      · exact .inr ⟨quote, false, rfl⟩
    obtain ⟨others, rfl, hothers⟩ := passes_behind hpasses
    have hscan := scanStringFrom_asFormatted hmodes hothers (List.forall_mem_cons.mp hbraces).2
    simp only [scanString, hopens]
    exact hscan

/-- **The strides of a literal that is not formatted and the steps of a formatted one agree.** From
every place of a text, the strides pass some of it and stop, behind the closing quotes or by giving
up. If what they pass holds no brace, the scan of a formatted literal from the same place stops
there too and in the same way, so that the lexer makes the same token or reports the same error with
the same span. -/
theorem scanLiteral_formatted (cursor : Cursor) :
    ∃ scan text, scanLiteral false cursor = some scan ∧ cursor.Passes text scan.stop ∧
      ((∀ c ∈ text, ¬IsBrace c) →
        scanLiteral true cursor = some scan ∧
          ∀ start, Lexer.string start true cursor = Lexer.string start false cursor) := by
  obtain ⟨text, hpasses⟩ := scanString_passes_stop false cursor
  refine ⟨scanString false cursor, text, scanLiteral_eq false cursor, hpasses, fun hbraces => ?_⟩
  have hsame := scanString_formatted hpasses hbraces
  refine ⟨by rw [scanLiteral_eq, hsame], fun start => ?_⟩
  rw [Lexer.string_eq, Lexer.string_eq, hsame]

/-- A literal with an escaped quote between characters of several bytes, and one that its
line ends. -/
theorem scanLiteral_formatted_ends :
    scanLiteral true ⟨"'é\\'ü€' x".toList, 0⟩ = some (.closed ⟨" x".toList, 11⟩) ∧
      scanLiteral true ⟨"\"é'😀\n".toList, 0⟩ = some (.unterminated ⟨"\n".toList, 8⟩) := by
  have hclosed : scanLiteral false ⟨"'é\\'ü€' x".toList, 0⟩ = some (.closed ⟨" x".toList, 11⟩) := rfl
  have hended : scanLiteral false ⟨"\"é'😀\n".toList, 0⟩ =
      some (.unterminated ⟨"\n".toList, 8⟩) := rfl
  have hclosedText : (Cursor.textTo ⟨"'é\\'ü€' x".toList, 0⟩ ⟨" x".toList, 11⟩).all (¬IsBrace ·) := rfl
  have hendedText : (Cursor.textTo ⟨"\"é'😀\n".toList, 0⟩ ⟨"\n".toList, 8⟩).all (¬IsBrace ·) := rfl
  constructor
  · obtain ⟨scan, text, hscan, hpasses, hagrees⟩ :=
      scanLiteral_formatted ⟨"'é\\'ü€' x".toList, 0⟩
    obtain rfl := Option.some.inj (hscan.symm.trans hclosed)
    obtain rfl := hpasses.textTo_eq
    exact (hagrees fun c hc => of_decide_eq_true (List.all_eq_true.mp hclosedText c hc)).1
  · obtain ⟨scan, text, hscan, hpasses, hagrees⟩ := scanLiteral_formatted ⟨"\"é'😀\n".toList, 0⟩
    obtain rfl := Option.some.inj (hscan.symm.trans hended)
    obtain rfl := hpasses.textTo_eq
    exact (hagrees fun c hc => of_decide_eq_true (List.all_eq_true.mp hendedText c hc)).1

end PythonOutline
