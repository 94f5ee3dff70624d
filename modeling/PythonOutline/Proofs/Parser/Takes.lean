import PythonOutline.Proofs.Parser.Script
import PythonOutline.Proofs.Tree.Lays

/-! # What parsers take

A parser takes the tokens between the place where it starts and the place where it ends. `Run` tells
how many these are at least, and that the end of the input is not among them. A loop takes what its
steps take: `Advances` says it of the step, and that a step which goes on takes a token.
-/

namespace PythonOutline

namespace Tokens

variable {tokens : Tokens}

/-- A run of at least some number of tokens, none of which is the end of the input. -/
structure Run (tokens : Tokens) (least start stop : Nat) : Prop where
  add_le : start + least ≤ stop
  ne_endOfInput : ∀ index, start ≤ index → index < stop → (tokens.get index).kind ≠ .endOfInput

namespace Run

variable {least other start middle stop index : Nat}

/-- No tokens are a run. -/
theorem nil : tokens.Run 0 index index :=
  ⟨Nat.le_refl _, fun _ _ _ => by omega⟩

/-- A run does not lead back. -/
theorem le (hrun : tokens.Run least start stop) : start ≤ stop :=
  Nat.le_trans (Nat.le_add_right _ _) hrun.add_le

/-- A run of some tokens is one of no less than fewer. -/
theorem mono (hrun : tokens.Run least start stop) (hle : other ≤ least) :
    tokens.Run other start stop :=
  { hrun with add_le := Nat.le_trans (Nat.add_le_add_left hle _) hrun.add_le }

/-- A single token. -/
theorem token {kind : TokenKind} (hkind : (tokens.get index).kind = kind)
    (hend : kind ≠ .endOfInput) : tokens.Run 1 index (index + 1) := by
  refine ⟨Nat.le_refl _, fun other hstart hstop => ?_⟩
  obtain rfl : other = index := by omega
  rwa [hkind]

/-- Two runs one behind the other are as long as the first one. -/
theorem append (hfirst : tokens.Run least start middle) (hsecond : tokens.Run other middle stop) :
    tokens.Run least start stop := by
  refine ⟨Nat.le_trans hfirst.add_le hsecond.le, fun index hstart hstop => ?_⟩
  by_cases hmiddle : index < middle
  · exact hfirst.ne_endOfInput index hstart hmiddle
  · exact hsecond.ne_endOfInput index (Nat.le_of_not_lt hmiddle) hstop

/-- Two runs one behind the other are as long as the second one. -/
theorem behind (hfirst : tokens.Run other start middle) (hsecond : tokens.Run least middle stop) :
    tokens.Run least start stop :=
  { hfirst.append hsecond with
    add_le := Nat.le_trans (Nat.add_le_add_right hfirst.le _) hsecond.add_le }

/-- A run behind a token. -/
theorem behindToken {kind : TokenKind} (hkind : (tokens.get start).kind = kind)
    (hend : kind ≠ .endOfInput) (hrun : tokens.Run other (start + 1) stop) :
    tokens.Run 1 start stop :=
  (token hkind hend).append hrun

/-- A token behind a run. -/
theorem thenToken (hrun : tokens.Run other start stop) {kind : TokenKind}
    (hkind : (tokens.get stop).kind = kind) (hend : kind ≠ .endOfInput) :
    tokens.Run 1 start (stop + 1) :=
  hrun.behind (token hkind hend)

end Run

namespace Fits

variable {allowed : TokenKind → Prop} {start stop : Nat} {nodes : List Node}

/-- Nodes fit a run of tokens. -/
theorem run (hfits : tokens.Fits allowed start stop nodes) (hend : ¬allowed .endOfInput) :
    tokens.Run 0 start stop := by
  refine ⟨hfits.le, fun index hstart hstop hkind => hend ?_⟩
  rw [← hkind]
  exact hfits.kinds index hstart hstop

/-- A node fits a run that holds a token. -/
theorem run_of_mem {node : Node} (hfits : tokens.Fits allowed start stop nodes)
    (hend : ¬allowed .endOfInput) (hnode : node ∈ nodes) : tokens.Run 1 start stop :=
  { hfits.run hend with add_le := hfits.lt hnode }

end Fits

end Tokens

namespace Parser

variable {α σ : Type} {tokens : Tokens} {least other : Nat} {before after : Place}

/-- A parser takes at least some number of tokens, and it does not take the end of the input. -/
def Takes (parser : Parser α) (tokens : Tokens) (least : Nat) : Prop :=
  ∀ ⦃before value after⦄, parser.Reads tokens before value after →
    tokens.Run least before.next after.next

/-- Tokens that were only looked at do not count. -/
theorem Takes.look {parser : Parser α} (htakes : parser.Takes tokens least) {distance : Nat}
    {value : α} (hreads : parser.Reads tokens (before.look distance) value after) :
    tokens.Run least before.next after.next :=
  @htakes (before.look distance) value after hreads

/-- What takes some tokens takes no less than fewer of them. -/
theorem Takes.mono {parser : Parser α} (htakes : parser.Takes tokens least) (hle : other ≤ least) :
    parser.Takes tokens other :=
  fun _ _ _ hreads => (htakes hreads).mono hle

/-- A parser takes the tokens of the nodes that it lays out. -/
theorem Lays.takes {parser : Parser α} {allowed : TokenKind → Prop} {nodes : α → List Node}
    (hlays : parser.Lays tokens allowed nodes) (hend : ¬allowed .endOfInput) :
    parser.Takes tokens 0 :=
  fun _ _ _ hreads => (hlays hreads).run hend

/-- A parser that lays out a node takes a token. -/
theorem Lays.takes_one {parser : Parser α} {allowed : TokenKind → Prop} {node : α → Node}
    (hlays : parser.Lays tokens allowed fun value => [node value]) (hend : ¬allowed .endOfInput) :
    parser.Takes tokens 1 :=
  fun _ _ _ hreads => (hlays hreads).run_of_mem hend (List.mem_singleton_self _)

/-- What may be accepted is not the end of the input. -/
theorem takes_accept {kind : TokenKind} (hend : kind ≠ .endOfInput) :
    (accept kind).Takes tokens 0 := by
  intro before value after hreads
  rw [reads_accept] at hreads
  split at hreads
  · rename_i hkind
    obtain ⟨-, rfl⟩ := hreads
    exact (Tokens.Run.token hkind hend).mono (Nat.zero_le _)
  · obtain ⟨-, rfl⟩ := hreads
    exact .nil

/-- A token that has to be there is taken. -/
theorem takes_expect {kind : TokenKind} (hend : kind ≠ .endOfInput) :
    (expect kind).Takes tokens 1 := by
  intro before token after hreads
  obtain ⟨hkind, -, rfl⟩ := reads_expect.mp hreads
  exact .token hkind hend

/-- An identifier is a token. -/
theorem takes_identifier : identifier.Takes tokens 1 := by
  intro before value after hreads
  obtain ⟨hkind, -, rfl⟩ := reads_identifier.mp hreads
  exact .token hkind (by decide)

/-! ## Loops -/

/-- A step of a loop takes a token or more if the loop goes on behind it, and neither it nor a step
that stops takes the end of the input. -/
structure Advances (step : σ → Parser (Step σ α)) (tokens : Tokens) : Prop where
  next : ∀ ⦃state before state' after⦄, (step state).Reads tokens before (.next state') after →
    tokens.Run 1 before.next after.next
  done : ∀ ⦃state before result after⦄, (step state).Reads tokens before (.done result) after →
    tokens.Run 0 before.next after.next

/-- A loop takes what its steps take. -/
theorem Advances.takes {step : σ → Parser (Step σ α)} (hstep : Advances step tokens) (state : σ) :
    (iterate state step).Takes tokens 0 := by
  intro before value after hreads
  obtain ⟨count, -, hiterates⟩ := reads_iterate.mp hreads
  clear hreads
  induction hiterates with
  | done hlast => exact hstep.done hlast
  | next hfirst _ ih => exact ((hstep.next hfirst).append ih).mono (Nat.zero_le _)

/-- A loop goes on for a number of steps until one stops it or fails. -/
inductive Cycles (step : σ → Parser (Step σ α)) (tokens : Tokens) :
    Nat → σ → Place → Outcome α → Prop where
  | done {state : σ} {before after : Place} {result : α}
      (hstep : (step state).Reads tokens before (.done result) after) :
      Cycles step tokens 0 state before (.ok result after)
  | fail {state : σ} {before after : Place} {error : SyntaxError}
      (hstep : step state tokens before = .error error after) :
      Cycles step tokens 0 state before (.error error after)
  | next {count : Nat} {state state' : σ} {before middle : Place} {outcome : Outcome α}
      (hstep : (step state).Reads tokens before (.next state') middle)
      (hrest : Cycles step tokens count state' middle outcome) :
      Cycles step tokens (count + 1) state before outcome

/-- What comes of a loop is told by its steps. -/
theorem Cycles.unique {step : σ → Parser (Step σ α)} {count count' : Nat} {state : σ}
    {outcome outcome' : Outcome α} (hcycles : Cycles step tokens count state before outcome)
    (hcycles' : Cycles step tokens count' state before outcome') : outcome = outcome' := by
  induction hcycles generalizing count' with
  | done hstep | fail hstep =>
    cases hcycles' with
    | done hstep' | fail hstep' | next hstep' =>
      cases hstep.symm.trans hstep'
      try rfl
  | next hstep _ ih =>
    cases hcycles' with
    | done hstep' | fail hstep' => cases hstep.symm.trans hstep'
    | next hstep' hrest' =>
      cases hstep.symm.trans hstep'
      exact ih hrest'

section

variable {step : σ → Parser (Step σ α)} (hstep : Advances step tokens) {bound : Nat}
  (hended : ∀ index, bound ≤ index → (tokens.get index).kind = .endOfInput)

include hstep hended

/-- A step that goes on leaves fewer tokens in front of the end of the input. The one that it has
taken is none of those that end the input. -/
theorem Advances.left_lt {state state' : σ}
    (hreads : (step state).Reads tokens before (.next state') after) :
    bound - after.next < bound - before.next := by
  have hrun := hstep.next hreads
  have hle := hrun.add_le
  have hlt : before.next < bound := Nat.lt_of_not_le fun hbound =>
    hrun.ne_endOfInput before.next (Nat.le_refl _) hle (hended _ hbound)
  omega

/-- A loop whose steps advance goes on at most as often as there are tokens left in front of the end
of the input. The bound on its steps is not what ends it. -/
theorem Advances.cycles {fuel : Nat} {place : Place} (hfuel : bound - place.next < fuel) (state : σ) :
    ∃ count ≤ bound - place.next,
      Cycles step tokens count state place (iterateFor step fuel state tokens place) := by
  induction fuel generalizing state place with
  | zero => omega
  | succ fuel ih =>
    rw [iterateFor, bind_apply]
    cases hresult : step state tokens place with
    | error error after => exact ⟨0, Nat.zero_le _, .fail hresult⟩
    | ok decision middle =>
      cases decision with
      | done result => exact ⟨0, Nat.zero_le _, .done hresult⟩
      | next state' =>
        have hlt := hstep.left_lt hended hresult
        obtain ⟨count, hcount, hcycles⟩ := ih (show bound - middle.next < fuel by omega) state'
        exact ⟨count + 1, by omega, .next hresult hcycles⟩

/-- What holds at a state and a place if it holds wherever the step goes on from there holds at all of
them. -/
theorem Advances.induction {motive : σ → Place → Prop}
    (hnext : ∀ state place, (∀ state' middle, (step state).Reads tokens place (.next state') middle →
      motive state' middle) → motive state place) (state : σ) (place : Place) :
    motive state place := by
  induction hleft : bound - place.next using Nat.strongRecOn generalizing state place with
  | ind left ih =>
    refine hnext state place fun state' middle hreads => ih _ ?_ state' middle rfl
    exact hleft ▸ hstep.left_lt hended hreads

/-- A loop does a step, and goes on as a loop if the step does. -/
theorem Advances.iterate_apply (hsize : bound ≤ tokens.tokens.size) (state : σ) (place : Place) :
    iterate state step tokens place =
      match step state tokens place with
      | .ok (.next state') middle => iterate state' step tokens middle
      | .ok (.done result) middle => .ok result middle
      | .error error middle => .error error middle := by
  have hcycles : ∀ state place, ∃ count,
      Cycles step tokens count state place (iterate state step tokens place) := fun state place =>
    have ⟨count, _, hcycles⟩ := hstep.cycles hended (show bound - place.next < _ by omega) state
    ⟨count, hcycles⟩
  obtain ⟨_, hloop⟩ := hcycles state place
  cases hresult : step state tokens place with
  | error error middle => exact hloop.unique (.fail hresult)
  | ok decision middle =>
    cases decision with
    | done result => exact hloop.unique (.done hresult)
    | next state' =>
      obtain ⟨_, hrest⟩ := hcycles state' middle
      exact hloop.unique (.next hresult hrest)

end

/-! ## Steps of loops -/

/-- Items behind something that tells whether there is one more. -/
theorem advances_repeatStep {condition : Parser Bool} {item : Parser α}
    (hstop : ∀ ⦃before after⦄, condition.Reads tokens before false after →
      tokens.Run 0 before.next after.next)
    (hitem : ∀ ⦃before start value after⦄, condition.Reads tokens before true start →
      item.Reads tokens start value after → tokens.Run 1 before.next after.next) :
    Advances (repeatStep condition item) tokens := by
  constructor
  · intro items before items' after hreads
    obtain ⟨more, start, hcondition, hrest⟩ := reads_bind.mp hreads
    cases more with
    | false => simp at hrest
    | true =>
      obtain ⟨value, hvalue, -⟩ : ∃ value, item.Reads tokens start value after ∧ _ := by
        simpa using hrest
      exact hitem hcondition hvalue
  · intro items before values after hreads
    obtain ⟨more, start, hcondition, hrest⟩ := reads_bind.mp hreads
    cases more with
    | false =>
      obtain ⟨-, rfl⟩ : _ ∧ after = start := by simpa using hrest
      exact hstop hcondition
    | true => simp at hrest

/-- Items in front of which a token stands. -/
theorem advances_repeatAt {kind : TokenKind} {item : Parser α}
    (hitem : ∀ ⦃before value after⦄, item.Reads tokens before value after →
      tokens.kindAt before = kind → tokens.Run 1 before.next after.next) :
    Advances (repeatStep (nextIs kind) item) tokens := by
  refine advances_repeatStep ?_ ?_
  · intro before after hstop
    obtain ⟨-, rfl⟩ := reads_nextIs.mp hstop
    exact .nil
  · intro before start value after hstart hvalue
    obtain ⟨hkind, rfl⟩ := reads_nextIs.mp hstart
    exact @hitem (before.look 0) value after hvalue (by simpa using hkind)

/-- Items behind a token that is taken. -/
theorem advances_repeatBehind {kind : TokenKind} (hend : kind ≠ .endOfInput) {item : Parser α}
    (hitem : item.Takes tokens least) : Advances (repeatStep (accept kind) item) tokens := by
  refine advances_repeatStep (fun _ _ hstop => takes_accept hend hstop) ?_
  intro before start value after hstart hvalue
  obtain ⟨hkind, rfl⟩ := reads_accept_true.mp hstart
  exact (hitem hvalue).behindToken hkind hend

/-- Values between commas take as many tokens as the first one. -/
theorem Takes.commaSeparated {item : Parser α} (hitem : item.Takes tokens least) :
    (commaSeparated item).Takes tokens least := by
  intro before values after hreads
  simp only [Parser.commaSeparated, reads_bind, reads_pure] at hreads
  obtain ⟨first, middle, hfirst, others, _, hothers, -, rfl⟩ := hreads
  exact (hitem hfirst).append ((advances_repeatBehind (by decide) hitem).takes [] hothers)

/-- Steps that take a separator and then an item, if what follows the separator may start one. -/
theorem advances_separated (separator : TokenKind) (starts : TokenKind → Bool) {item : Parser α}
    {step : List α → Parser (Step (List α) (List α))}
    (hstep : ∀ {items : List α} {before after : Place} {outcome : Step (List α) (List α)},
      (step items).Reads tokens before outcome after →
        if tokens.kindAt before = separator then
          if starts (tokens.kindAt before.step) then
            ∃ value, item.Reads tokens (before.step.look 0) value after ∧
              outcome = .next (value :: items)
          else outcome = .done items.reverse ∧ after = before.step.look 0
        else outcome = .done items.reverse ∧ after = before.look 0)
    (hend : separator ≠ .endOfInput) (hitem : item.Takes tokens least) :
    Advances step tokens := by
  constructor
  · intro items before items' after hreads
    have hnext := hstep hreads
    split at hnext
    · rename_i hkind
      split at hnext
      · obtain ⟨value, hvalue, -⟩ := hnext
        exact (hitem.look hvalue).behindToken hkind hend
      · cases hnext.1
    · cases hnext.1
  · intro items before values after hreads
    have hlast := hstep hreads
    split at hlast
    · rename_i hkind
      split at hlast
      · obtain ⟨_, _, hnext⟩ := hlast
        cases hnext
      · obtain ⟨-, rfl⟩ := hlast
        exact (Tokens.Run.token hkind hend).mono (Nat.zero_le _)
    · obtain ⟨-, rfl⟩ := hlast
      exact .nil

/-- Each round of a list in brackets takes a token, or closes the list. -/
theorem advances_listStep {close : TokenKind} (hend : close ≠ .endOfInput) {item : Parser α}
    (hitem : item.Takes tokens least) : Advances (listStep close item) tokens := by
  constructor
  · intro items before items' after hreads
    obtain ⟨-, value, middle, hvalue, hkind, -, rfl⟩ : tokens.kindAt before ≠ close ∧
        ∃ value middle, item.Reads tokens (before.look 0) value middle ∧
          tokens.kindAt middle = .comma ∧ items' = value :: items ∧ after = middle.step := by
      simpa using hreads
    exact (hitem.look hvalue).thenToken hkind (by decide)
  · intro items before values after hreads
    have hlast : if tokens.kindAt before = close then values = items.reverse ∧ after = before.step
        else ∃ value middle, item.Reads tokens (before.look 0) value middle ∧
          tokens.kindAt middle ≠ .comma ∧ (tokens.kindAt middle = close ∧ after = middle.step) ∧
          values = items.reverse ++ [value] := by
      simpa using hreads
    split at hlast
    · rename_i hkind
      obtain ⟨-, rfl⟩ := hlast
      exact (Tokens.Run.token hkind hend).mono (Nat.zero_le _)
    · obtain ⟨value, middle, hvalue, -, ⟨hkind, rfl⟩, -⟩ := hlast
      exact ((hitem.look hvalue).thenToken hkind hend).mono (Nat.zero_le _)

end Parser

end PythonOutline
