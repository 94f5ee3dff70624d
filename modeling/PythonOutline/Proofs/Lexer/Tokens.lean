import PythonOutline.Lexer.Tokens
import PythonOutline.Proofs.Lexer.Tiling

/-! # The tokens of a source in one piece

The run of the lexer ends with its first end of input. Where no token of it is invalid, all tokens
that are no end of input follow each other in the source, and each covers a piece of it. Where one
is invalid, the token sequence knows the failure. -/

namespace PythonOutline

namespace Lexer

variable {lexer : Lexer} {source : List Char}

/-- The run stops at an end of the input. -/
theorem runFor_endOfInput {fuel index : Nat} {step : Token × Lexer}
    (hstep : (runFor fuel lexer)[index]? = some step) (hkind : step.1.kind = .endOfInput) :
    (runFor fuel lexer).length = index + 1 := by
  induction fuel generalizing lexer index with
  | zero => simp [runFor] at hstep
  | succ fuel ih =>
    rw [runFor] at hstep ⊢
    dsimp only at hstep ⊢
    split
    · rename_i hend
      rw [if_pos hend] at hstep
      cases index with
      | zero => rfl
      | succ index => simp at hstep
    · rename_i hend
      rw [if_neg hend] at hstep
      cases index with
      | zero =>
        simp only [List.getElem?_cons_zero, Option.some.injEq] at hstep
        subst hstep
        exact absurd hkind hend
      | succ index =>
        rw [List.getElem?_cons_succ] at hstep
        rw [List.length_cons, ih hstep]

/-- A step of a run is readable, or one at or in front of it is not. -/
theorem readable_getElem? {steps : List (Token × Lexer)} {index : Nat} {step : Token × Lexer}
    (hstep : steps[index]? = some step) :
    (readable steps)[index]? = some step ∨
      ∃ earlier ≤ index, ∃ ending, steps[earlier]? = some ending ∧
        ¬ending.1.kind.IsReadable := by
  induction steps generalizing index with
  | nil => simp at hstep
  | cons head steps ih =>
    by_cases hkind : head.1.kind.IsReadable
    · have hhead : readable (head :: steps) = head :: readable steps := by
        simp [readable, hkind]
      rw [hhead]
      cases index with
      | zero => exact .inl hstep
      | succ index =>
        rw [List.getElem?_cons_succ] at hstep ⊢
        rcases ih hstep with hreadable | ⟨earlier, hle, ending, hending, hunreadable⟩
        · exact .inl hreadable
        · exact .inr ⟨earlier + 1, by omega, ending, by simpa using hending, hunreadable⟩
    · exact .inr ⟨0, Nat.zero_le _, head, by simp, hkind⟩

/-- A lexer that has failed answers ends of input and remembers the failure. -/
theorem runFor_of_failure {failure : SyntaxError} (hfailure : lexer.failure = some failure)
    (fuel : Nat) : ∀ step ∈ runFor fuel lexer, step.2.failure = some failure := by
  cases fuel with
  | zero => simp [runFor]
  | succ fuel => simp [runFor, next, hfailure, Token.endOfInput, Token.empty]

/-- A token is invalid exactly if the lexer has failed on it. -/
theorem Reading.next_cases (hreading : lexer.Reading source) :
    lexer.next.1.kind ≠ .invalid ∧ lexer.next.2.Reading source ∨
      lexer.next.1.kind = .invalid ∧ ∃ failure, lexer.next.2.failure = some failure := by
  have houtcome := read_outcome hreading
  have hlexer : ¬lexer.failure.isSome := by simp [hreading.failure_eq]
  unfold next
  rw [if_neg hlexer]
  cases hread : lexer.read with
  | error failure => exact .inr ⟨rfl, _, rfl⟩
  | ok result =>
    rw [hread] at houtcome
    obtain ⟨-, -, -, -, -, -, -, hvalid, hbehind⟩ := houtcome
    exact .inl ⟨hvalid, hbehind⟩

/-- Behind an invalid token the failure is known to the end of the run. -/
theorem Reading.failure_of_invalid (hreading : lexer.Reading source) {fuel : Nat}
    {step : Token × Lexer} (hstep : step ∈ runFor fuel lexer) (hkind : step.1.kind = .invalid) :
    ∃ failure last, (runFor fuel lexer).getLast? = some last ∧ last.2.failure = some failure := by
  induction fuel generalizing lexer with
  | zero => simp [runFor] at hstep
  | succ fuel ih =>
    rw [runFor] at hstep ⊢
    dsimp only at hstep ⊢
    split
    · rename_i hend
      rw [if_pos hend] at hstep
      rw [List.mem_singleton.mp hstep, hend] at hkind
      cases hkind
    · rename_i hend
      rw [if_neg hend] at hstep
      rcases hreading.next_cases with ⟨hvalid, hbehind⟩ | ⟨-, failure, hfailure⟩
      · rcases List.mem_cons.mp hstep with rfl | hstep
        · exact absurd hkind hvalid
        · obtain ⟨failure, last, hlast, hfailure⟩ := ih hbehind hstep
          exact ⟨failure, last, by simp [List.getLast?_cons, hlast], hfailure⟩
      · have hall := runFor_of_failure hfailure fuel
        rw [List.getLast?_cons]
        refine ⟨failure, _, rfl, ?_⟩
        cases hrest : (runFor fuel lexer.next.2).getLast? with
        | none => exact hfailure
        | some last => exact hall last (List.mem_of_getLast? hrest)

end Lexer

namespace Tokens

/-- The tokens that are made of text cover pieces of the source that follow each other. -/
structure InOrder (tokens : Tokens) : Prop where
  start_lt : ∀ index, (tokens.get index).kind.IsSolid →
    (tokens.get index).span.start < (tokens.get index).span.stop
  start_isBoundary : ∀ index, (tokens.get index).kind.IsSolid →
    Text.IsBoundary tokens.source (tokens.get index).span.start
  stop_isBoundary : ∀ index, (tokens.get index).kind.IsSolid →
    Text.IsBoundary tokens.source (tokens.get index).span.stop
  stop_le : ∀ earlier later, earlier < later → (tokens.get earlier).kind.IsSolid →
    (tokens.get later).kind.IsSolid →
    (tokens.get earlier).span.stop ≤ (tokens.get later).span.start

/-- The tokens of a source without lexical errors: those that are no end of input cover pieces of
the source that follow each other. -/
structure Ordered (tokens : Tokens) : Prop extends InOrder tokens where
  ne_invalid : ∀ index, (tokens.get index).kind ≠ .invalid

instance {tokens : Tokens} : Coe tokens.Ordered tokens.InOrder :=
  ⟨Ordered.toInOrder⟩

/-- A sequence over the same text is in order if all its text stands in the other one too. -/
theorem InOrder.of_get_eq {tokens tokens' : Tokens} (hordered : tokens'.InOrder)
    (hsource : tokens.source = tokens'.source)
    (hget : ∀ index, (tokens.get index).kind.IsSolid → tokens.get index = tokens'.get index) :
    tokens.InOrder := by
  have hboth : ∀ {index}, (tokens.get index).kind.IsSolid →
      tokens.get index = tokens'.get index ∧ (tokens'.get index).kind.IsSolid :=
    fun {index} hsolid => ⟨hget index hsolid, hget index hsolid ▸ hsolid⟩
  refine ⟨fun index hindex => ?_, fun index hindex => ?_, fun index hindex => ?_,
    fun earlier later hlt hearlier hlater => ?_⟩
  · obtain ⟨heq, hsolid⟩ := hboth hindex
    rw [heq]
    exact hordered.start_lt index hsolid
  · obtain ⟨heq, hsolid⟩ := hboth hindex
    rw [heq, hsource]
    exact hordered.start_isBoundary index hsolid
  · obtain ⟨heq, hsolid⟩ := hboth hindex
    rw [heq, hsource]
    exact hordered.stop_isBoundary index hsolid
  · obtain ⟨heq, hsolid⟩ := hboth hearlier
    obtain ⟨heq', hsolid'⟩ := hboth hlater
    rw [heq, heq']
    exact hordered.stop_le earlier later hlt hsolid hsolid'

variable {source : String}

/-- The tokens of a source are those of the lexer's run, with the end of the input behind them. -/
theorem get_ofSource {index : Nat} :
    (ofSource source).get index =
      ((Lexer.run source)[index]?.map Prod.fst).getD (.endOfInput source.utf8ByteSize) := by
  simp [get, ofSource]

/-- A token that is no end of input is a readable step of the run, unless a token is invalid. -/
theorem readable_of_ne_endOfInput (hvalid : ∀ index, ((ofSource source).get index).kind ≠ .invalid)
    {index : Nat} (hkind : ((ofSource source).get index).kind ≠ .endOfInput) :
    ∃ step, (Lexer.readable (Lexer.run source))[index]? = some step ∧
      step.1 = (ofSource source).get index := by
  cases hstep : (Lexer.run source)[index]? with
  | none =>
    rw [get_ofSource, hstep] at hkind
    exact absurd rfl hkind
  | some step =>
    have hget : (ofSource source).get index = step.1 := by simp [get_ofSource, hstep]
    refine ⟨step, ?_, hget.symm⟩
    rcases Lexer.readable_getElem? hstep with hreadable | ⟨earlier, hle, ending, hending, hunreadable⟩
    · exact hreadable
    · -- The first token that is not readable is an end of input, and the run stops there.
      have hends : ending.1.kind = .endOfInput := by
        have hvalid := hvalid earlier
        rw [get_ofSource, hending] at hvalid
        exact Decidable.byContradiction fun hother => hunreadable ⟨hvalid, hother⟩
      have hlength : (Lexer.run source).length = earlier + 1 :=
        Lexer.runFor_endOfInput hending hends
      have hindex : index < (Lexer.run source).length := (List.getElem?_eq_some_iff.mp hstep).1
      obtain rfl : earlier = index := by omega
      rw [hstep, Option.some.injEq] at hending
      rw [hget, hending] at hkind
      exact absurd hends hkind

/-- Such a token lies in the source. -/
theorem placed_of_ne_endOfInput (hvalid : ∀ index, ((ofSource source).get index).kind ≠ .invalid)
    {index : Nat} (hkind : ((ofSource source).get index).kind ≠ .endOfInput) :
    ∃ step, step.1 = (ofSource source).get index ∧ Lexer.Placed source.toList step := by
  have hreading := Lexer.ofSource_reading source
  have htiles : Lexer.Tiles source.toList _ (Lexer.run source) := hreading.tiles _
  obtain ⟨step, hreadable, hget⟩ := readable_of_ne_endOfInput hvalid hkind
  exact ⟨step, hget, (htiles.placed hreading.isIn step (List.mem_of_getElem? hreadable)).2⟩

/-- Such tokens follow each other. -/
theorem stop_le_start_of_lt (hvalid : ∀ index, ((ofSource source).get index).kind ≠ .invalid)
    {earlier later : Nat} (hlt : earlier < later)
    (hearlier : ((ofSource source).get earlier).kind ≠ .endOfInput)
    (hlater : ((ofSource source).get later).kind ≠ .endOfInput) :
    ((ofSource source).get earlier).span.stop ≤ ((ofSource source).get later).span.start := by
  have hreading := Lexer.ofSource_reading source
  have htiles : Lexer.Tiles source.toList _ (Lexer.run source) := hreading.tiles _
  obtain ⟨first, hfirst, hfirstGet⟩ := readable_of_ne_endOfInput hvalid hearlier
  obtain ⟨second, hsecond, hsecondGet⟩ := readable_of_ne_endOfInput hvalid hlater
  obtain ⟨hfirstLt, hfirst⟩ := List.getElem?_eq_some_iff.mp hfirst
  obtain ⟨hsecondLt, hsecond⟩ := List.getElem?_eq_some_iff.mp hsecond
  have hpair := List.pairwise_iff_getElem.mp (htiles.pairwise hreading.isIn) earlier later
    hfirstLt hsecondLt hlt
  rwa [hfirst, hsecond, hfirstGet, hsecondGet] at hpair

/-- Without invalid tokens the tokens of a source are in order. -/
theorem ordered_ofSource (hvalid : ∀ index, ((ofSource source).get index).kind ≠ .invalid) :
    (ofSource source).Ordered := by
  refine ⟨⟨?_, ?_, ?_, fun earlier later hlt hearlier hlater =>
    stop_le_start_of_lt hvalid hlt hearlier.2.1 hlater.2.1⟩, hvalid⟩
  · intro index hsolid
    obtain ⟨step, hget, hstep⟩ := placed_of_ne_endOfInput hvalid hsolid.2.1
    exact hget ▸ hstep.start_lt (hget ▸ hsolid)
  · intro index hsolid
    obtain ⟨step, hget, hstep⟩ := placed_of_ne_endOfInput hvalid hsolid.2.1
    exact hget ▸ hstep.start_isBoundary
  · intro index hsolid
    obtain ⟨step, hget, hstep⟩ := placed_of_ne_endOfInput hvalid hsolid.2.1
    exact hget ▸ hstep.stop_isBoundary

/-- A lexical error is known to whoever has looked at an end of the input. -/
theorem failureWithin_of_endOfInput {index seen : Nat}
    (hinvalid : ((ofSource source).get index).kind = .invalid) {last : Nat}
    (hend : ((ofSource source).get last).kind = .endOfInput) (hseen : last < seen) :
    ∃ failure, (ofSource source).failureWithin seen = some failure := by
  cases hstep : (Lexer.run source)[index]? with
  | none =>
    rw [get_ofSource, hstep] at hinvalid
    cases hinvalid
  | some step =>
    rw [get_ofSource, hstep] at hinvalid
    obtain ⟨hindex, hget⟩ := List.getElem?_eq_some_iff.mp hstep
    have hbefore : index < last := by
      -- An end of input in front of the invalid token would have ended the run.
      refine Decidable.byContradiction fun hafter => ?_
      cases hlast : (Lexer.run source)[last]? with
      | none =>
        have hlength := List.getElem?_eq_none_iff.mp hlast
        omega
      | some ending =>
        rw [get_ofSource, hlast] at hend
        have hlength : (Lexer.run source).length = last + 1 := Lexer.runFor_endOfInput hlast hend
        obtain rfl : index = last := by omega
        rw [hstep, Option.some.injEq] at hlast
        subst hlast
        exact absurd (hinvalid.symm.trans hend) (by decide)
    obtain ⟨failure, final, hfinal, hfailure⟩ := (Lexer.ofSource_reading source).failure_of_invalid
      (List.mem_of_getElem? hstep) hinvalid
    refine ⟨failure, ?_⟩
    have hknown : (ofSource source).failure = some failure := by
      simp [ofSource, Lexer.run, hfinal, hfailure]
    have hany : (ofSource source).tokens.any (fun token => token.kind = .invalid) 0 seen := by
      rw [Array.any_iff_exists]
      refine ⟨index, by simpa [ofSource] using hindex, Nat.zero_le _, by omega, ?_⟩
      simpa [ofSource, hget] using hinvalid
    simp [failureWithin, hknown, hany]

/-- Without an invalid token no lexical error is known. -/
theorem failureWithin_eq_none {tokens : Tokens}
    (hvalid : ∀ index, (tokens.get index).kind ≠ .invalid) (seen : Nat) :
    tokens.failureWithin seen = none := by
  have hnone : tokens.tokens.any (fun token => token.kind = .invalid) 0 seen = false := by
    refine Bool.eq_false_iff.mpr fun hany => ?_
    obtain ⟨index, hindex, -, -, hinvalid⟩ := Array.any_iff_exists.mp hany
    refine hvalid index ?_
    simpa [get, hindex] using hinvalid
  unfold failureWithin
  split
  · rfl
  · rw [hnone]
    rfl

end Tokens

end PythonOutline
