import PythonOutline.Proofs.Grammar.EndOfInput
import PythonOutline.Proofs.Grammar.LexicalError

/-! # Precedence climbing

The binary operators can be read without a layer for each precedence: one loop applies every
operator that binds at least as tight as a given precedence, and reads the operand behind it with
the next higher one. The loop for a precedence is the loop for the next higher one with a layer behind it, so
climbing down to a precedence reads what the layers down to it read. It has then looked at the token
behind, which the layers have too if there are any.
-/

namespace PythonOutline

open PythonOutline.Parser

private theorem Operator.precedence_le (operator : Operator) : operator.precedence ≤ 14 := by
  cases operator <;> decide

/-- No binary operator binds tighter than those of the first layer. -/
theorem Operator.precedence_le_of_binary? {kind : TokenKind} {operator : Operator}
    (hoperator : binary? kind = some operator) : operator.precedence ≤ Level.tightestBinary := by
  cases kind <;> cases hoperator <;> decide

/-- Factors joined by the binary operators that bind at least as tight as a precedence. -/
def Level.climb (level : Level) (least : Nat) : Parser Expr := do
  let first ← level.factor
  iterate first fun left => do
    match Operator.binary? (← peekKind) with
    | none => return .done left
    | some operator =>
      if _hleast : least ≤ operator.precedence then
        let _ ← take
        let right ← level.climb (operator.precedence + 1)
        return .next ⟨left.span.join right.span, .binary operator left right⟩
      else return .done left
termination_by 15 - least
decreasing_by
  have hle := operator.precedence_le
  omega

/-- Looks at the token behind what a parser reads. -/
def Parser.thenLook {α : Type} (parser : Parser α) : Parser α := do
  let value ← parser
  let _ ← peek
  return value

private theorem Parser.thenLook_apply {α : Type} (parser : Parser α) (tokens : Tokens)
    (place : Place) :
    thenLook parser tokens place =
      match parser tokens place with
      | .ok value after => .ok value (after.look 0)
      | .error error after => .error error after := by
  rw [thenLook, bind_apply]
  cases parser tokens place <;> rfl

namespace Level

/-- What climbs down to a precedence is one loop, whose operands bind tighter than the operator in
front of them. -/
theorem climb_eq (level : Level) (least : Nat) :
    level.climb least = level.factor >>= fun first =>
      iterate first (operatorStep (least ≤ ·) fun precedence => level.climb (precedence + 1)) := by
  rw [climb]
  rfl

/-! ## Loops over operators -/

/-- No operator of one of some precedences stands at a place. -/
def StopsAt (applies : Nat → Prop) (tokens : Tokens) (place : Place) : Prop :=
  ∀ operator, Operator.binary? (tokens.kindAt place) = some operator → ¬applies operator.precedence

section

variable {tokens : Tokens} {applies : Nat → Prop} [DecidablePred applies]
  {operand : Nat → Parser Expr} {left value : Expr} {place before after : Place}
  {operator : Operator}

private theorem operatorStep_stop (hstops : StopsAt applies tokens place) :
    operatorStep applies operand left tokens place = .ok (.done left) (place.look 0) := by
  suffices hreads : (operatorStep applies operand left).Reads tokens place (.done left)
      (place.look 0) from hreads
  simp only [reads_bind, reads_peekKind, existsAndEq, true_and, and_true]
  split
  · simp
  · rename_i operator hoperator
    rw [if_neg (hstops operator hoperator)]
    simp

private theorem operatorStep_apply
    (hoperator : Operator.binary? (tokens.kindAt place) = some operator)
    (happlies : applies operator.precedence) :
    operatorStep applies operand left tokens place =
      match operand operator.precedence tokens place.step with
      | .ok right after => .ok (.next ⟨left.span.join right.span, .binary operator left right⟩) after
      | .error error after => .error error after := by
  have hpeek : peekKind tokens place = .ok (tokens.kindAt place) (place.look 0) :=
    reads_peekKind.mpr ⟨rfl, rfl⟩
  have htake : take tokens (place.look 0) = .ok (tokens.get place.next) place.step :=
    reads_take.mpr ⟨rfl, (Place.look_zero_step _).symm⟩
  rw [operatorStep, bind_apply, hpeek]
  simp only [hoperator, if_pos happlies]
  rw [bind_apply, htake]
  simp only [bind_apply]
  cases operand operator.precedence tokens place.step <;> rfl

/-- A loop over operators stops in front of any other token. -/
theorem iterate_operatorStep_stop (hstops : StopsAt applies tokens place) :
    iterate left (operatorStep applies operand) tokens place = .ok left (place.look 0) :=
  reads_iterate.mpr ⟨0, Nat.zero_le _, .done (operatorStep_stop hstops)⟩

/-- A loop over operators has stopped in front of another token, which it has looked at. -/
theorem stopsAt_of_reads
    (hreads : (iterate left (operatorStep applies operand)).Reads tokens before value after) :
    StopsAt applies tokens after ∧ after.look 0 = after := by
  obtain ⟨count, -, hiterates⟩ := reads_iterate.mp hreads
  clear hreads
  induction hiterates with
  | @done left before after value hstep =>
    have hstops : StopsAt applies tokens before := fun operator hoperator happlies => by
      have hnext := (operatorStep_apply hoperator happlies).symm.trans hstep
      split at hnext <;> cases hnext
    cases (operatorStep_stop hstops).symm.trans hstep
    exact ⟨hstops, by simp⟩
  | next _ _ ih => exact ih

/-- A loop over operators looks at the token in front of it anyway. -/
theorem iterate_operatorStep_look :
    iterate left (operatorStep applies operand) tokens (place.look 0) =
      iterate left (operatorStep applies operand) tokens place := by
  have hstep : operatorStep applies operand left tokens (place.look 0) =
      operatorStep applies operand left tokens place := by
    by_cases hstops : StopsAt applies tokens place
    · have hlooked : StopsAt applies tokens (place.look 0) := hstops
      rw [operatorStep_stop hlooked, operatorStep_stop hstops, Place.look_look, Nat.max_self]
    · simp only [StopsAt, not_forall, not_not] at hstops
      obtain ⟨operator, hoperator, happlies⟩ := hstops
      have hlooked : Operator.binary? (tokens.kindAt (place.look 0)) = some operator := hoperator
      rw [operatorStep_apply hlooked happlies, operatorStep_apply hoperator happlies,
        Place.look_zero_step]
  change iterateFor _ (tokens.tokens.size + 1) left tokens _ =
    iterateFor _ (tokens.tokens.size + 1) left tokens place
  rw [iterateFor, bind_apply, bind_apply, hstep]

end

/-! ## One precedence after the other -/

section

variable {tokens : Tokens} {bound : Nat} (hends : tokens.EndsAt bound)
  (hsize : bound ≤ tokens.tokens.size)

include hends hsize

/-- The loop for a precedence is that for the next higher one with a layer behind it, if operands
behind the operators of the precedence are read alike by both. -/
theorem iterate_layer {precedence : Nat} {next : Nat → Parser Expr} {operand : Parser Expr}
    (hnext : ∀ precedence, (next precedence).Takes tokens 1) (hoperand : operand.Takes tokens 1)
    (hsame : ∀ place, next precedence tokens place = thenLook operand tokens place)
    (hstops : ∀ ⦃before right after⦄, (next precedence).Reads tokens before right after →
      StopsAt (precedence + 1 ≤ ·) tokens after) (left : Expr) (place : Place) :
    iterate left (operatorStep (precedence ≤ ·) next) tokens place =
      (iterate left (operatorStep (precedence + 1 ≤ ·) next) >>= fun left =>
        iterate left (applyStep precedence operand)) tokens place := by
  have hended : ∀ index, bound ≤ index → (tokens.get index).kind = .endOfInput :=
    fun index => (hends index).mpr
  have hlow : Advances (operatorStep (precedence ≤ ·) next) tokens :=
    operatorStep_advances fun operator _ => hnext operator.precedence
  have hhigh : Advances (operatorStep (precedence + 1 ≤ ·) next) tokens :=
    operatorStep_advances fun operator _ => hnext operator.precedence
  have hlayer : Advances (operatorStep (· = precedence) fun _ => operand) tokens :=
    operatorStep_advances fun _ _ => hoperand
  change _ = (_ >>= fun left => iterate left (operatorStep (· = precedence) fun _ => operand)) _ _
  induction left, place using hlow.induction hended with
  | hnext left place ih =>
    rw [bind_apply]
    by_cases hlooser : StopsAt (precedence ≤ ·) tokens place
    · -- No loop applies the operator.
      have hhigher : StopsAt (precedence + 1 ≤ ·) tokens place :=
        fun operator hoperator hle => hlooser operator hoperator (Nat.le_of_succ_le hle)
      have hequal : StopsAt (· = precedence) tokens (place.look 0) :=
        fun operator hoperator heq => hlooser operator hoperator (Nat.le_of_eq heq.symm)
      rw [iterate_operatorStep_stop hlooser, iterate_operatorStep_stop hhigher]
      change _ = iterate left _ tokens (place.look 0)
      rw [iterate_operatorStep_stop hequal, Place.look_look, Nat.max_self]
    simp only [StopsAt, not_forall, not_not] at hlooser
    obtain ⟨operator, hoperator, hle⟩ := hlooser
    have hstep : operatorStep (precedence ≤ ·) next left tokens place = _ :=
      operatorStep_apply hoperator hle
    rw [hlow.iterate_apply hended hsize, hstep]
    rcases Nat.eq_or_lt_of_le hle with rfl | hlt
    · -- The operator is left to the layer, which goes on behind the operand.
      have hhigher : StopsAt (operator.precedence + 1 ≤ ·) tokens place := by
        intro other hother
        cases hoperator.symm.trans hother
        exact Nat.not_succ_le_self _
      have hlayerStep : operatorStep (· = operator.precedence) (fun _ => operand) left tokens place =
          _ := operatorStep_apply hoperator rfl
      rw [iterate_operatorStep_stop hhigher]
      change _ = iterate left _ tokens (place.look 0)
      rw [iterate_operatorStep_look, hlayer.iterate_apply hended hsize, hlayerStep, hsame,
        thenLook_apply]
      cases hresult : operand tokens place.step with
      | error error after => rfl
      | ok right after =>
        have hnextReads :
            (next operator.precedence).Reads tokens place.step right (after.look 0) := by
          rw [Reads, hsame, thenLook_apply, hresult]
        have hrest := ih _ _ (hstep.trans (by rw [hnextReads]))
        rw [bind_apply, iterate_operatorStep_stop (hstops hnextReads)] at hrest
        exact hrest.trans (iterate_operatorStep_look.trans iterate_operatorStep_look)
    · -- Both loops apply the operator.
      have hhighStep : operatorStep (precedence + 1 ≤ ·) next left tokens place = _ :=
        operatorStep_apply hoperator hlt
      rw [hhigh.iterate_apply hended hsize, hhighStep]
      cases hresult : next operator.precedence tokens place.step with
      | error error after => rfl
      | ok right after =>
        have hrest := ih _ _ (hstep.trans (by rw [hresult]))
        rwa [bind_apply] at hrest

end

/-! ## All precedences -/

section

variable {tokens : Tokens} {level : Level} {least : Nat} {before after : Place} {value : Expr}

/-- What climbs down to a precedence stops in front of the operators that bind less tight. -/
theorem climb_stopsAt (hreads : (level.climb least).Reads tokens before value after) :
    StopsAt (least ≤ ·) tokens after := by
  rw [climb_eq] at hreads
  obtain ⟨first, middle, -, hrest⟩ := reads_bind.mp hreads
  exact (stopsAt_of_reads hrest).1

private theorem climb_takes (hfactor : level.factor.Takes tokens 1) (least : Nat) :
    (level.climb least).Takes tokens 1 := by
  induction hmeasure : 15 - least using Nat.strongRecOn generalizing least with
  | ind measure ih =>
    have hadvances : Advances
        (operatorStep (least ≤ ·) fun precedence => level.climb (precedence + 1)) tokens := by
      refine operatorStep_advances fun operator hle => ih _ ?_ _ rfl
      have hprecedence := operator.precedence_le
      omega
    intro before value after hreads
    rw [climb_eq] at hreads
    obtain ⟨first, middle, hfirst, hrest⟩ := reads_bind.mp hreads
    exact (hfactor hfirst).append (hadvances.takes first hrest)

/-- Layers look at the token behind what they read, if there are any. -/
theorem thenLook_binary (tiers : Nat) (place : Place) :
    thenLook (level.binary (tiers + 1)) tokens place = level.binary (tiers + 1) tokens place := by
  rw [thenLook_apply]
  cases hresult : level.binary (tiers + 1) tokens place with
  | error error after => rfl
  | ok value after =>
    have hreads : (leftChain (tightestBinary - tiers) (level.binary tiers)).Reads tokens place value
        after := hresult
    rw [leftChain] at hreads
    obtain ⟨first, middle, -, hrest⟩ := reads_bind.mp hreads
    have hloop : (iterate first (operatorStep (· = tightestBinary - tiers) fun _ =>
        level.binary tiers)).Reads tokens middle value after := hrest
    exact congrArg (EStateM.Result.ok value) (stopsAt_of_reads hloop).2

variable {bound : Nat} (hends : tokens.EndsAt bound) (hsize : bound ≤ tokens.tokens.size)

include hends hsize

/-- What climbs down to a precedence reads what the layers down to it read. -/
theorem climb_eq_binary (hbinary : ∀ tiers, (level.binary tiers).Takes tokens 1) {tiers : Nat}
    (htiers : tiers ≤ tightestBinary + 1) (place : Place) :
    level.climb (tightestBinary + 1 - tiers) tokens place =
      thenLook (level.binary tiers) tokens place := by
  induction tiers generalizing place with
  | zero =>
    have hstops : ∀ place, StopsAt (tightestBinary + 1 ≤ ·) tokens place :=
      fun place operator hoperator =>
        Nat.not_le_of_lt (Nat.lt_succ_of_le (Operator.precedence_le_of_binary? hoperator))
    rw [Nat.sub_zero, climb_eq, bind_apply, thenLook_apply, binary]
    cases level.factor tokens place with
    | error error after => rfl
    | ok first after => exact iterate_operatorStep_stop (hstops after)
  | succ tiers ih =>
    obtain ⟨precedence, hprecedence⟩ : ∃ precedence, tightestBinary = precedence + tiers :=
      Nat.exists_eq_add_of_le' (Nat.le_of_succ_le_succ htiers)
    have hlow : tightestBinary + 1 - (tiers + 1) = precedence := by omega
    have hhigh : tightestBinary + 1 - tiers = precedence + 1 := by omega
    have hlayer : tightestBinary - tiers = precedence := by omega
    have hhigher : ∀ place, level.climb (precedence + 1) tokens place =
        thenLook (level.binary tiers) tokens place :=
      fun place => hhigh ▸ ih (Nat.le_of_succ_le htiers) place
    rw [hlow, thenLook_binary]
    calc level.climb precedence tokens place
        = (level.climb (precedence + 1) >>= fun left =>
            iterate left (applyStep precedence (level.binary tiers))) tokens place := by
          rw [climb_eq, climb_eq, bind_assoc, bind_apply, bind_apply]
          cases level.factor tokens place with
          | error error after => rfl
          | ok first after =>
            have hnext : ∀ precedence, (level.climb (precedence + 1)).Takes tokens 1 :=
              fun precedence => climb_takes (hbinary 0) (precedence + 1)
            have hstops : ∀ ⦃before right after⦄,
                (level.climb (precedence + 1)).Reads tokens before right after →
                StopsAt (precedence + 1 ≤ ·) tokens after :=
              fun _ _ _ hreads => climb_stopsAt hreads
            exact iterate_layer hends hsize hnext (hbinary tiers) hhigher hstops first after
      _ = level.binary (tiers + 1) tokens place := by
          rw [binary, leftChain, hlayer, bind_apply, bind_apply, hhigher, thenLook_apply]
          cases level.binary tiers tokens place with
          | error error after => rfl
          | ok value after =>
            change iterate value (operatorStep (· = precedence) fun _ => level.binary tiers) tokens
              (after.look 0) = _
            exact iterate_operatorStep_look

end

/-- **Climbing by precedence reads what the layers of the grammar read.** On the tokens of any
source, with lexical errors or without, and at any level, both yield the same expression with the
same spans, or fail with the same error, and look at the same tokens. -/
theorem bitwiseOr_eq_climb (source : String) (count : Nat) (place : Place) :
    (withInner count).climb Operator.bitwiseOr.precedence (.ofSource source) place =
      (withInner count).bitwiseOr (.ofSource source) place := by
  have hordered := Tokens.inOrder_ofSource source
  have hbinary : ∀ tiers, ((withInner count).binary tiers).Takes (.ofSource source) 1 :=
    fun tiers => (binary_lays hordered (withInner_lays hordered count) tiers).takes
  have hclimb := climb_eq_binary (Tokens.endsAt_ofSource source) (Nat.sub_le _ _) hbinary
    (show 6 ≤ tightestBinary + 1 by decide) place
  exact hclimb.trans (thenLook_binary 5 place)

end Level

end PythonOutline
