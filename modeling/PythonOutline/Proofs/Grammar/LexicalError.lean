import PythonOutline.Proofs.Grammar.LineEnd
import PythonOutline.Proofs.Grammar.RegularStmt

/-! # Lexical errors and the errors of the parser

A source whose tokens fail is no module, and no error that is reported names an invalid token. The
lexical error is reported in place of an error at or behind it, as far as the parser has come to
know it: the lexer answers tokens only when they are looked at. -/

namespace PythonOutline

namespace Tokens

variable {tokens : Tokens} {index : Nat} {failure : SyntaxError}

/-- The tokens in front of an index, with ends of input behind them. -/
def upTo (tokens : Tokens) (index : Nat) : Tokens :=
  { tokens with
    tokens := tokens.tokens.mapIdx fun place token =>
      if place < index then token else .endOfInput tokens.size }

private theorem get_upTo (tokens : Tokens) (index place : Nat) :
    (tokens.upTo index).get place =
      if place < index then tokens.get place else .endOfInput tokens.size := by
  simp only [get, upTo, Array.getElem?_mapIdx]
  cases tokens.tokens[place]? <;> simp

/-- In front of an invalid token the tokens are in order. -/
theorem FailsAt.ordered_upTo (hfails : tokens.FailsAt index failure) :
    (tokens.upTo index).Ordered := by
  have hget : ∀ {place}, ((tokens.upTo index).get place).kind.IsSolid →
      (tokens.upTo index).get place = tokens.get place := by
    intro place hsolid
    rw [get_upTo] at hsolid ⊢
    split
    · rfl
    · rename_i hle
      rw [if_neg hle] at hsolid
      exact absurd rfl hsolid.2.1
  have hordered := hfails.inOrder
  refine ⟨⟨fun place hsolid => ?_, fun place hsolid => ?_, fun place hsolid => ?_,
    fun earlier later hlt hearlier hlater => ?_⟩, fun place => ?_⟩
  · have hplace := hget hsolid
    rw [hplace] at hsolid ⊢
    exact hordered.start_lt place hsolid
  · have hplace := hget hsolid
    rw [hplace] at hsolid ⊢
    exact hordered.start_isBoundary place hsolid
  · have hplace := hget hsolid
    rw [hplace] at hsolid ⊢
    exact hordered.stop_isBoundary place hsolid
  · have hfirst := hget hearlier
    have hsecond := hget hlater
    rw [hfirst] at hearlier ⊢
    rw [hsecond] at hlater ⊢
    exact hordered.stop_le earlier later hlt hearlier hlater
  · rw [get_upTo]
    split
    · rename_i hlt
      exact (hfails.readable place hlt).1
    · intro hinvalid
      cases hinvalid

/-- The only invalid token of a source is the one that its failure is about. -/
theorem FailsAt.eq_of_invalid (hfails : tokens.FailsAt index failure) {place : Nat}
    (hinvalid : (tokens.get place).kind = .invalid) : place = index := by
  rcases Nat.lt_trichotomy place index with hlt | heq | hlt
  · exact absurd hinvalid (hfails.readable place hlt).1
  · exact heq
  · rw [hfails.ended place hlt] at hinvalid
    cases hinvalid

/-- An invalid token of a source comes with a failure. -/
theorem failsAt_of_invalid {source : String} {place : Nat}
    (hinvalid : ((ofSource source).get place).kind = .invalid) :
    ∃ failure, (ofSource source).failure = some failure ∧
      (ofSource source).FailsAt place failure := by
  have hreading := Lexer.ofSource_reading source
  rw [get_ofSource_eq_next] at hinvalid
  obtain ⟨failure, hfailure⟩ :=
    (hreading.failure_after_iff (place + 1)).mpr ⟨place, Nat.lt_succ_self _, hinvalid⟩
  rw [← failureWithin_ofSource, failureWithin] at hfailure
  cases hknown : (ofSource source).failure with
  | none =>
    rw [hknown] at hfailure
    cases hfailure
  | some known =>
    obtain ⟨index, hfails⟩ := failsAt_ofSource hknown
    rw [← get_ofSource_eq_next] at hinvalid
    obtain rfl := hfails.eq_of_invalid hinvalid
    exact ⟨known, rfl, hfails⟩

/-- The tokens of every source that are made of text are in order. -/
theorem inOrder_ofSource (source : String) : (ofSource source).InOrder := by
  by_cases hvalid : ∀ index, ((ofSource source).get index).kind ≠ .invalid
  · exact (ordered_ofSource hvalid).toInOrder
  · simp only [ne_eq, not_forall, not_not] at hvalid
    obtain ⟨index, hinvalid⟩ := hvalid
    obtain ⟨failure, -, hfails⟩ := failsAt_of_invalid hinvalid
    exact hfails.inOrder

end Tokens

namespace Parser

variable {tokens : Tokens} {index : Nat} {failure error : SyntaxError} {place : Place}

/-- An error of the parser is about a token that it has looked at. -/
theorem module_blames (herror : Parser.module tokens .start = .error error place) :
    tokens.Blames place.seen error := by
  have hregular : Regular tokens.tokens.size stmtLevels [] Parser.module := inferInstance
  exact hregular.blames rfl (Nat.le_refl _) (fun _ hsite => nomatch hsite) herror

/-- What the parser does in front of the first invalid token does not depend on what stands from
there on. -/
theorem module_upTo (herror : Parser.module tokens .start = .error error place)
    (hseen : place.seen ≤ index) :
    Parser.module (tokens.upTo index) .start = .error error place := by
  have hregular : Regular tokens.tokens.size stmtLevels [] Parser.module := inferInstance
  obtain ⟨script, -, heval⟩ := hregular.performed
  have hsize : (tokens.upTo index).tokens.size = tokens.tokens.size := by simp [Tokens.upTo]
  rw [← heval tokens rfl] at herror
  rw [← heval _ hsize, ← herror]
  have hsource : (tokens.upTo index).source = tokens.source := rfl
  refine Script.eval_congr hsource rfl script stmtLevels (Nat.le_refl _) fun earlier hearlier => ?_
  rw [herror] at hearlier
  rw [Tokens.get_upTo, if_pos (Nat.lt_of_lt_of_le hearlier hseen)]

/-- An error that the parser finds in front of the invalid token starts in front of the failure, or
is about an empty token that stands where the failure starts. A bracket that is never closed is
reported where it was opened, so nothing is said of it. -/
theorem module_error_before (hfails : tokens.FailsAt index failure)
    (hnames : ∀ kind ∈ failure.token, ¬kind.isOpenBracket)
    (herror : Parser.module tokens .start = .error error place) (hseen : place.seen ≤ index) :
    error.span.start < failure.span.start ∨ error.span = .point failure.span.start := by
  have hstop := hfails.stop_le_failure hnames
  have hget : ∀ earlier < place.seen, (tokens.upTo index).get earlier = tokens.get earlier := by
    intro earlier hearlier
    rw [Tokens.get_upTo, if_pos (Nat.lt_of_lt_of_le hearlier hseen)]
  -- A token in front of the failure ends there at the latest, so it is empty if it starts there.
  have htoken : ∀ earlier < place.seen, (tokens.get earlier).span.start < failure.span.start ∨
      (tokens.get earlier).span = .point failure.span.start := by
    intro earlier hearlier
    have hlt := Nat.lt_of_lt_of_le hearlier hseen
    obtain ⟨offset, hcovers⟩ := hfails.covers earlier hlt
    have hstart := hcovers.start_le
    have hle := hstop earlier hlt
    rcases Nat.eq_or_lt_of_le (Nat.le_trans hstart hle) with heq | hlt
    · have hend : (tokens.get earlier).span.stop = failure.span.start := by omega
      right
      calc (tokens.get earlier).span
          = ⟨(tokens.get earlier).span.start, (tokens.get earlier).span.stop⟩ := rfl
        _ = .point failure.span.start := by rw [heq, hend, Span.point]
    · exact .inl hlt
  cases module_blames (module_upTo herror hseen) with
  | found hindex => exact hget _ hindex ▸ htoken _ hindex
  | wanted hindex hkind => exact hget _ hindex ▸ htoken _ hindex
  | node hnode =>
    obtain ⟨earlier, last, hle, hlast, hsolid, -, rfl⟩ := hnode hfails.ordered_upTo
    have hindex := Nat.lt_of_le_of_lt hle hlast
    rw [hget _ hindex] at hsolid
    have hlt := Nat.lt_of_lt_of_le hindex hseen
    obtain ⟨offset, hcovers⟩ := hfails.covers earlier hlt
    have hle := hstop earlier hlt
    have hpositive := hcovers.start_lt hsolid
    left
    rw [Span.error, hget _ hindex]
    dsimp only
    omega

end Parser

variable {source : String} {failure : SyntaxError}

/-- The error of a source is the one that the parser has found, or the failure of its tokens. -/
theorem parseModule_error_cases {error : SyntaxError} (hparse : parseModule source = .error error) :
    (∃ place, Parser.module (.ofSource source) .start = .error error place) ∨
      (Tokens.ofSource source).failure = some error := by
  have hknown : ∀ {seen}, (Tokens.ofSource source).failureWithin seen = some error →
      (Tokens.ofSource source).failure = some error := by
    intro seen hwithin
    unfold Tokens.failureWithin at hwithin
    split at hwithin
    · cases hwithin
    · rename_i hfailure
      split at hwithin <;> cases hwithin
      exact hfailure
  unfold parseModule Parser.runOn at hparse
  split at hparse
  · split at hparse <;> cases hparse
    rename_i hwithin
    exact .inr (hknown hwithin)
  · rename_i found place hmodule
    split at hparse
    · rename_i hwithin
      split at hparse <;> cases hparse
      · exact .inr (hknown hwithin)
      · exact .inl ⟨place, hmodule⟩
    · cases hparse
      exact .inl ⟨place, hmodule⟩

/-- Once the parser has looked at the invalid token, the failure takes the place of an error at or
behind it. -/
theorem parseModule_of_seen {index : Nat} {error : SyntaxError} {place : Place}
    (hfails : (Tokens.ofSource source).FailsAt index failure)
    (herror : Parser.module (.ofSource source) .start = .error error place)
    (hseen : index < place.seen) :
    parseModule source =
      .error (if failure.span.start ≤ error.span.start then failure else error) := by
  have hwithin : (Tokens.ofSource source).failureWithin place.seen = some failure := by
    rw [hfails.failureWithin_eq, if_pos hseen]
  rw [parseModule, Parser.runOn, herror]
  simp only [hwithin]

private theorem parseModule_of_unseen {index : Nat} {error : SyntaxError} {place : Place}
    (hfails : (Tokens.ofSource source).FailsAt index failure)
    (herror : Parser.module (.ofSource source) .start = .error error place)
    (hseen : place.seen ≤ index) : parseModule source = .error error := by
  have hwithin : (Tokens.ofSource source).failureWithin place.seen = none := by
    rw [hfails.failureWithin_eq, if_neg (Nat.not_lt_of_le hseen)]
  rw [parseModule, Parser.runOn, herror]
  simp only [hwithin]

/-- An error that the parser finds at the invalid token is replaced by the failure. -/
theorem parseModule_of_invalid {error : SyntaxError} {place : Place}
    (herror : Parser.module (.ofSource source) .start = .error error place)
    (hinvalid : error.token = some .invalid) :
    ∃ failure, (Tokens.ofSource source).failure = some failure ∧
      parseModule source = .error failure := by
  cases Parser.module_blames herror with
  | found hindex =>
    obtain ⟨failure, hfailure, hfails⟩ := Tokens.failsAt_of_invalid (Option.some.inj hinvalid)
    refine ⟨failure, hfailure, ?_⟩
    rw [parseModule_of_seen hfails herror hindex]
    simp [Token.error, hfails.get_eq]
  | wanted hindex hkind => exact absurd (Option.some.inj hinvalid) hkind
  | node => cases hinvalid

/-- **Lexical errors are reported.** A source whose tokens fail is no module, already as far as the
parser alone can tell. An error that the parser finds at the invalid token is replaced by the
failure, so no error names that token. -/
theorem parseModule_lexical (source : String) :
    (∀ failure, (Tokens.ofSource source).failure = some failure →
      (∃ error place, Parser.module (.ofSource source) .start = .error error place) ∧
        ∃ error, parseModule source = .error error) ∧
    (∀ error place, Parser.module (.ofSource source) .start = .error error place →
      error.token = some .invalid →
        ∃ failure, (Tokens.ofSource source).failure = some failure ∧
          parseModule source = .error failure) ∧
    ∀ error, parseModule source = .error error → error.token ≠ some .invalid := by
  have hfailure : ∀ failure, (Tokens.ofSource source).failure = some failure →
      failure.token ≠ some .invalid := by
    intro failure hfailure
    obtain ⟨index, hfails⟩ := Tokens.failsAt_ofSource hfailure
    exact hfails.token_ne
  refine ⟨fun failure hfailure => ?_, fun error place => parseModule_of_invalid,
    fun error hparse hinvalid => ?_⟩
  · obtain ⟨index, hfails⟩ := Tokens.failsAt_ofSource hfailure
    obtain ⟨error, place, herror⟩ := Parser.module_fails hfails
    refine ⟨⟨error, place, herror⟩, ?_⟩
    rcases Nat.lt_or_ge index place.seen with hseen | hseen
    · exact ⟨_, parseModule_of_seen hfails herror hseen⟩
    · exact ⟨_, parseModule_of_unseen hfails herror hseen⟩
  · rcases parseModule_error_cases hparse with ⟨place, herror⟩ | hknown
    · obtain ⟨failure, hknown, hreplaced⟩ := parseModule_of_invalid herror hinvalid
      rw [hparse] at hreplaced
      cases hreplaced
      exact hfailure error hknown hinvalid
    · exact hfailure error hknown hinvalid

/-- An indented line in front of a character that starts no token. -/
theorem failure_indented :
    (Tokens.ofSource "x\n    $").failure = some (Span.error ⟨6, 7⟩ .invalidCharacter) := by
  decide +kernel

/-- A character that starts no token fails the parser, whatever it finds in front of it. -/
theorem parseModule_lexical_indented :
    (Tokens.ofSource "x\n    $").failure = some (Span.error ⟨6, 7⟩ .invalidCharacter) ∧
      (∃ error place, Parser.module (.ofSource "x\n    $") .start = .error error place) ∧
      (∃ error, parseModule "x\n    $" = .error error) ∧
      ∀ error, parseModule "x\n    $" = .error error → error.token ≠ some .invalid := by
  obtain ⟨hfails, -, hnames⟩ := parseModule_lexical "x\n    $"
  exact ⟨failure_indented, (hfails _ failure_indented).1, (hfails _ failure_indented).2, hnames⟩

/-- **Lexical errors take priority as far as they are known.** Where the tokens of a source fail,
the parser fails too. If it has looked at the invalid token by then, the failure is reported in
place of an error at or behind it. Otherwise the error of the parser is reported, and it starts in
front of the failure or is about an empty token that stands where the failure starts, unless the
failure is a bracket that is never closed. -/
theorem parseModule_priority (hfailure : (Tokens.ofSource source).failure = some failure) :
    ∃ index error place, (Tokens.ofSource source).FailsAt index failure ∧
      Parser.module (.ofSource source) .start = .error error place ∧
      (index < place.seen → parseModule source = .error failure ∨
        parseModule source = .error error ∧ error.span.start < failure.span.start) ∧
      (place.seen ≤ index → parseModule source = .error error ∧
        ((∀ kind ∈ failure.token, ¬kind.isOpenBracket) →
          error.span.start < failure.span.start ∨ error.span = .point failure.span.start)) := by
  obtain ⟨index, hfails⟩ := Tokens.failsAt_ofSource hfailure
  obtain ⟨error, place, herror⟩ := Parser.module_fails hfails
  refine ⟨index, error, place, hfails, herror, fun hseen => ?_, fun hseen => ⟨?_, fun hnames => ?_⟩⟩
  · rw [parseModule_of_seen hfails herror hseen]
    split
    · exact .inl rfl
    · exact .inr ⟨rfl, by omega⟩
  · exact parseModule_of_unseen hfails herror hseen
  · exact Parser.module_error_before hfails hnames herror hseen

/-- The error of the parser starts in front of the character that starts no token, or stands at the
indent before it. -/
theorem parseModule_priority_indented :
    (Tokens.ofSource "x\n    $").failure = some (Span.error ⟨6, 7⟩ .invalidCharacter) ∧
      ∃ index error place,
        (Tokens.ofSource "x\n    $").FailsAt index (Span.error ⟨6, 7⟩ .invalidCharacter) ∧
        Parser.module (.ofSource "x\n    $") .start = .error error place ∧
        (place.seen ≤ index → parseModule "x\n    $" = .error error ∧
          (error.span.start < 6 ∨ error.span = .point 6)) := by
  obtain ⟨index, error, place, hfails, herror, -, hunseen⟩ := parseModule_priority failure_indented
  refine ⟨failure_indented, index, error, place, hfails, herror, fun hseen => ?_⟩
  obtain ⟨hparse, hstart⟩ := hunseen hseen
  exact ⟨hparse, hstart fun _ hkind => nomatch hkind⟩

/-- A bracket that is never closed does not take priority over an error behind it if the parser
finds that error before it has looked at the end of the input. -/
theorem parseModule_priority_unclosed :
    ∃ failure error, (Tokens.ofSource "(a b c d").failure = some failure ∧
      parseModule "(a b c d" = .error error ∧ error ≠ failure ∧
      failure.span.start < error.span.start := by
  have hfailure : (Tokens.ofSource "(a b c d").failure =
      some ⟨.unmatchedBracket, ⟨0, 1⟩, some .parenthesisOpen⟩ := by decide +kernel
  have hparse : (match parseModule "(a b c d" with
      | .ok _ => false
      | .error error =>
        error == ⟨.requiredToken .parenthesisClose, ⟨3, 4⟩, some .identifier⟩) = true := by
    decide +kernel
  cases hresult : parseModule "(a b c d" with
  | ok =>
    rw [hresult] at hparse
    cases hparse
  | error error =>
    rw [hresult] at hparse
    have herror := beq_iff_eq.mp hparse
    refine ⟨_, _, hfailure, rfl, ?_⟩
    rw [herror]
    exact ⟨by decide, by decide⟩

end PythonOutline
