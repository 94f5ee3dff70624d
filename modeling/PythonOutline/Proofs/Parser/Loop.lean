import PythonOutline.Proofs.Parser.Reads

/-! # What loops read

Every loop is an iteration of one step. `Iterates` follows the steps; the relations behind it
say the same of the loops that gather items into a list, without the reversed list that the
steps carry. -/

namespace PythonOutline

namespace Parser

variable {α β : Type} {tokens : Tokens} {before after : Place}

/-- A loop goes on for a number of steps and then stops with a result. -/
inductive Iterates (step : α → Parser (Step α β)) (tokens : Tokens) :
    Nat → α → Place → β → Place → Prop where
  | done {state : α} {before after : Place} {result : β}
      (hstep : (step state).Reads tokens before (.done result) after) :
      Iterates step tokens 0 state before result after
  | next {count : Nat} {state state' : α} {before middle after : Place} {result : β}
      (hstep : (step state).Reads tokens before (.next state') middle)
      (hrest : Iterates step tokens count state' middle result after) :
      Iterates step tokens (count + 1) state before result after

/-- A loop with enough fuel reads what some number of its steps reads. -/
private theorem reads_iterateFor {step : α → Parser (Step α β)} {fuel : Nat} {state : α}
    {result : β} : (iterateFor step fuel state).Reads tokens before result after ↔
      ∃ count < fuel, Iterates step tokens count state before result after := by
  induction fuel generalizing state before with
  | zero => simp [iterateFor]
  | succ fuel ih =>
    simp only [iterateFor, reads_bind]
    constructor
    · rintro ⟨outcome, middle, hstep, hrest⟩
      cases outcome with
      | next state' =>
        obtain ⟨count, hcount, hiterates⟩ := ih.mp hrest
        exact ⟨count + 1, by omega, .next hstep hiterates⟩
      | done result' =>
        obtain ⟨rfl, rfl⟩ := reads_pure.mp hrest
        exact ⟨0, by omega, .done hstep⟩
    · rintro ⟨count, hcount, hiterates⟩
      cases hiterates with
      | done hstep => exact ⟨_, _, hstep, reads_pure.mpr ⟨rfl, rfl⟩⟩
      | next hstep hrest => exact ⟨_, _, hstep, ih.mpr ⟨_, by omega, hrest⟩⟩

/-- A loop reads what its steps read, at most as many as there are tokens before the last one. -/
theorem reads_iterate {step : α → Parser (Step α β)} {state : α} {result : β} :
    (iterate state step).Reads tokens before result after ↔
      ∃ count ≤ tokens.tokens.size, Iterates step tokens count state before result after := by
  simp only [iterate, reads_bind, reads_read, reads_iterateFor, Nat.lt_succ_iff, existsAndEq,
    true_and]

/-! ## Repetition -/

/-- Items are read for as long as a condition holds in front of them. -/
inductive Repeats (condition : Parser Bool) (item : Parser α) (tokens : Tokens) :
    Place → List α → Place → Prop where
  | stop {before after : Place} (hcondition : condition.Reads tokens before false after) :
      Repeats condition item tokens before [] after
  | item {before start middle after : Place} {value : α} {values : List α}
      (hcondition : condition.Reads tokens before true start)
      (hitem : item.Reads tokens start value middle)
      (hrest : Repeats condition item tokens middle values after) :
      Repeats condition item tokens before (value :: values) after

/-- A repetition reads items, at most as many as there are tokens. -/
theorem reads_repeatWhile {condition : Parser Bool} {item : Parser α} {values : List α} :
    (repeatWhile condition item).Reads tokens before values after ↔
      values.length ≤ tokens.tokens.size ∧
        Repeats condition item tokens before values after := by
  simp only [repeatWhile, reads_iterate]
  constructor
  · rintro ⟨count, hcount, hiterates⟩
    -- The list that the steps carry holds the items in front, the last one first.
    generalize hitems : ([] : List α) = items at hiterates
    suffices hothers : ∃ others, values = items.reverse ++ others ∧ others.length = count ∧
        Repeats condition item tokens before others after by
      obtain ⟨others, rfl, rfl, hrepeats⟩ := hothers
      subst hitems
      exact ⟨hcount, hrepeats⟩
    clear hcount hitems
    induction hiterates with
    | done hstep =>
      obtain ⟨go, middle, hcondition, hstep⟩ := reads_bind.mp hstep
      cases go with
      | false =>
        simp only [Bool.false_eq_true, reduceIte, reads_pure, Step.done.injEq] at hstep
        obtain ⟨rfl, rfl⟩ := hstep
        exact ⟨[], by simp, rfl, .stop hcondition⟩
      | true => simp at hstep
    | next hstep _ ih =>
      obtain ⟨go, middle, hcondition, hstep⟩ := reads_bind.mp hstep
      cases go with
      | false => simp at hstep
      | true =>
        simp only [reduceIte, reads_bind, reads_pure, Step.next.injEq] at hstep
        obtain ⟨value, _, hitem, rfl, rfl⟩ := hstep
        obtain ⟨others, rfl, rfl, hrepeats⟩ := ih
        exact ⟨value :: others, by simp, rfl, .item hcondition hitem hrepeats⟩
  · rintro ⟨hlength, hrepeats⟩
    refine ⟨values.length, hlength, ?_⟩
    suffices hitems : ∀ items : List α,
        Iterates _ tokens values.length items before (items.reverse ++ values) after from hitems []
    clear hlength
    induction hrepeats with
    | stop hcondition =>
      intro items
      exact .done (reads_bind.mpr ⟨false, _, hcondition, by simp⟩)
    | @item _ _ _ _ value values hcondition hitem _ ih =>
      intro items
      have hrest := ih (value :: items)
      rw [List.reverse_cons, List.append_assoc] at hrest
      refine .next (reads_bind.mpr ⟨true, _, hcondition, ?_⟩) hrest
      simpa using hitem

/-- One item, and then further ones behind commas. -/
theorem reads_commaSeparated {item : Parser α} {values : List α} :
    (commaSeparated item).Reads tokens before values after ↔
      ∃ first others middle, values = first :: others ∧ item.Reads tokens before first middle ∧
        others.length ≤ tokens.tokens.size ∧
        Repeats (accept .comma) item tokens middle others after := by
  simp only [commaSeparated, reads_bind, reads_repeatWhile, reads_pure]
  constructor
  · rintro ⟨first, middle, hfirst, others, _, ⟨hlength, hrepeats⟩, rfl, rfl⟩
    exact ⟨first, others, middle, rfl, hfirst, hlength, hrepeats⟩
  · rintro ⟨first, others, middle, rfl, hfirst, hlength, hrepeats⟩
    exact ⟨first, middle, hfirst, others, _, ⟨hlength, hrepeats⟩, rfl, rfl⟩

/-! ## Lists -/

/-- Items with commas between them are read up to a closing token, which is taken. -/
inductive Lists (close : TokenKind) (item : Parser α) (tokens : Tokens) :
    Place → List α → Place → Prop where
  | close {before : Place} (hclose : tokens.kindAt before = close) :
      Lists close item tokens before [] before.step
  | last {before middle : Place} {value : α} (hopen : tokens.kindAt before ≠ close)
      (hitem : item.Reads tokens (before.look 0) value middle)
      (hclose : tokens.kindAt middle = close) :
      Lists close item tokens before [value] middle.step
  | item {before middle after : Place} {value : α} {values : List α}
      (hopen : tokens.kindAt before ≠ close)
      (hitem : item.Reads tokens (before.look 0) value middle)
      (hcomma : tokens.kindAt middle = .comma)
      (hrest : Lists close item tokens middle.step values after) :
      Lists close item tokens before (value :: values) after

/-- What is read as a list in brackets is one. -/
theorem Lists.of_reads {close : TokenKind} {item : Parser α} {values : List α}
    (hreads : (listUntil close item).Reads tokens before values after) :
    Lists close item tokens before values after := by
  simp only [listUntil, reads_iterate] at hreads
  obtain ⟨count, -, hiterates⟩ := hreads
  generalize hitems : ([] : List α) = items at hiterates
  suffices hothers : ∃ others, values = items.reverse ++ others ∧
      Lists close item tokens before others after by
    obtain ⟨others, rfl, hlists⟩ := hothers
    subst hitems
    exact hlists
  clear hitems
  induction hiterates with
  | @done items before after result hstep =>
    have hend : if tokens.kindAt before = close then result = items.reverse ∧ after = before.step
        else ∃ value middle, item.Reads tokens (before.look 0) value middle ∧
          tokens.kindAt middle ≠ .comma ∧ (tokens.kindAt middle = close ∧ after = middle.step) ∧
          result = items.reverse ++ [value] := by
      simpa using hstep
    split at hend
    · rename_i hclose
      obtain ⟨rfl, rfl⟩ := hend
      exact ⟨[], by simp, .close hclose⟩
    · rename_i hopen
      obtain ⟨value, middle, hitem, -, ⟨hclose, rfl⟩, rfl⟩ := hend
      exact ⟨[value], rfl, .last hopen hitem hclose⟩
  | @next _ items items' before start _ _ hstep _ ih =>
    have hitem : tokens.kindAt before ≠ close ∧ ∃ value middle,
        item.Reads tokens (before.look 0) value middle ∧ tokens.kindAt middle = .comma ∧
          items' = value :: items ∧ start = middle.step := by
      simpa using hstep
    obtain ⟨hopen, value, middle, hitem, hcomma, rfl, rfl⟩ := hitem
    obtain ⟨others, rfl, hlists⟩ := ih
    exact ⟨value :: others, by simp, .item hopen hitem hcomma hlists⟩

/-- Further items are read, each behind a separator. A separator that nothing follows which may
start an item is the last one. -/
inductive Continues (separator : TokenKind) (starts : TokenKind → Bool) (item : Parser α)
    (tokens : Tokens) : Place → List α → Place → Prop where
  | stop {before : Place} (hseparator : tokens.kindAt before ≠ separator) :
      Continues separator starts item tokens before [] (before.look 0)
  | trailing {before : Place} (hseparator : tokens.kindAt before = separator)
      (hstarts : starts (tokens.kindAt before.step) = false) :
      Continues separator starts item tokens before [] (before.step.look 0)
  | item {before middle after : Place} {value : α} {values : List α}
      (hseparator : tokens.kindAt before = separator)
      (hstarts : starts (tokens.kindAt before.step) = true)
      (hitem : item.Reads tokens (before.step.look 0) value middle)
      (hrest : Continues separator starts item tokens middle values after) :
      Continues separator starts item tokens before (value :: values) after

/-- A loop whose steps take a separator and then an item, and put the item in front of those read
before. -/
theorem Continues.of_iterates (separator : TokenKind) (starts : TokenKind → Bool)
    (item : Parser α) {step : List α → Parser (Step (List α) (List α))} {count : Nat}
    {items result : List α}
    (hstep : ∀ {items : List α} {before after : Place} {outcome : Step (List α) (List α)},
      (step items).Reads tokens before outcome after →
        if tokens.kindAt before = separator then
          if starts (tokens.kindAt before.step) then
            ∃ value, item.Reads tokens (before.step.look 0) value after ∧
              outcome = .next (value :: items)
          else outcome = .done items.reverse ∧ after = before.step.look 0
        else outcome = .done items.reverse ∧ after = before.look 0)
    (hiterates : Iterates step tokens count items before result after) :
    ∃ others, result = items.reverse ++ others ∧
      Continues separator starts item tokens before others after := by
  induction hiterates with
  | done hreads =>
    have hend := hstep hreads
    split at hend
    · rename_i hseparator
      split at hend
      · obtain ⟨_, _, hnext⟩ := hend
        cases hnext
      · rename_i hstarts
        obtain ⟨hdone, rfl⟩ := hend
        cases hdone
        exact ⟨[], by simp, .trailing hseparator (by simpa using hstarts)⟩
    · rename_i hseparator
      obtain ⟨hdone, rfl⟩ := hend
      cases hdone
      exact ⟨[], by simp, .stop hseparator⟩
  | next hreads _ ih =>
    have hnext := hstep hreads
    split at hnext
    · rename_i hseparator
      split at hnext
      · rename_i hstarts
        obtain ⟨value, hitem, hnext⟩ := hnext
        cases hnext
        obtain ⟨others, rfl, hcontinues⟩ := ih
        exact ⟨value :: others, by simp, .item hseparator hstarts hitem hcontinues⟩
      · cases hnext.1
    · cases hnext.1

end Parser

end PythonOutline
