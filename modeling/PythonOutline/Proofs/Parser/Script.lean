import PythonOutline.Proofs.Lexer.Run
import PythonOutline.Proofs.Parser.Reads

/-! # Parsers as scripts of operations

A script is what a parser does with its tokens, one operation after another, where each operation
may depend on the answers before it. `Script.eval` performs a script on a token sequence, as the
parsers of the grammar do. The lemmas behind it tell what no script can do: forget a token that it
has looked at, depend on a token that it has not looked at, or, unless it restores a checkpoint on
its own, go back. -/

namespace PythonOutline

/-- The operations of a parser that yield a value or fail. -/
inductive Script : Type → Type 1 where
  | done {α : Type} (value : α) : Script α
  | fail {α : Type} (error : SyntaxError) : Script α
  /-- Looks at the next token, and takes it if it is to be kept. -/
  | forward {α : Type} (keep : Token → Bool) (rest : Token → Script α) : Script α
  /-- Looks at the next tokens, without taking them. -/
  | ahead {α : Type} (count : Nat) (rest : List Token → Script α) : Script α
  /-- Remembers the next token. -/
  | checkpoint {α : Type} (rest : Nat → Script α) : Script α
  /-- Goes back to a token that was remembered. What is no checkpoint changes nothing. -/
  | restore {α : Type} (checkpoint : Nat) (rest : Script α) : Script α
  /-- Asks for the spans of the tokens taken since a checkpoint. -/
  | spans {α : Type} (rest : (Nat → Span) → Script α) : Script α
  /-- Asks for the source and its size. -/
  | source {α : Type} (rest : List Char → Nat → Script α) : Script α
  /-- Runs a script one nesting level deeper. -/
  | nested {α β : Type} (body : Script β) (rest : β → Script α) : Script α
  /-- Runs a script, and goes back if it yields none or fails. -/
  | rewindable {α β : Type} (body : Script (Option β)) (rest : Option β → Script α) : Script α

namespace Tokens

variable {tokens tokens' : Tokens}

/-- A number of tokens from an index on. -/
def window (tokens : Tokens) (start count : Nat) : List Token :=
  (List.range count).map fun distance => tokens.get (start + distance)

private theorem window_congr {start count : Nat}
    (hget : ∀ index < start + count, tokens'.get index = tokens.get index) :
    tokens'.window start count = tokens.window start count := by
  apply List.map_congr_left
  intro distance hdistance
  exact hget _ (Nat.add_lt_add_left (List.mem_range.mp hdistance) start)

/-- The span of a run of tokens depends only on the tokens up to its end. -/
theorem spanBetween_congr {start stop : Nat}
    (hget : ∀ index < stop, tokens'.get index = tokens.get index) :
    tokens'.spanBetween start stop = tokens.spanBetween start stop := by
  have hfirst : ∀ count start, start + count ≤ stop →
      tokens'.firstSignificant? start count = tokens.firstSignificant? start count := by
    intro count
    induction count with
    | zero => exact fun _ _ => rfl
    | succ count ih =>
      intro start hcount
      rw [firstSignificant?, firstSignificant?, hget start (by omega), ih (start + 1) (by omega)]
  have hlast : ∀ count, start + count ≤ stop →
      tokens'.lastSignificant? start count = tokens.lastSignificant? start count := by
    intro count
    induction count with
    | zero => exact fun _ => rfl
    | succ count ih =>
      intro hcount
      rw [lastSignificant?, lastSignificant?, hget (start + count) (by omega), ih (by omega)]
  have hbetween : tokens'.firstSignificant? start (stop - start) =
        tokens.firstSignificant? start (stop - start) ∧
      tokens'.lastSignificant? start (stop - start) =
        tokens.lastSignificant? start (stop - start) := by
    rcases Nat.le_total start stop with hle | hle
    · exact ⟨hfirst _ _ (by omega), hlast _ (by omega)⟩
    · rw [Nat.sub_eq_zero_of_le hle]
      exact ⟨rfl, rfl⟩
  rw [spanBetween, spanBetween, hbetween.1, hbetween.2]
  cases stop with
  | zero => rfl
  | succ stop => rw [Nat.add_sub_cancel, hget stop (Nat.lt_succ_self _)]

end Tokens

namespace Place

/-- Goes back to a token that was looked at, or to the one behind these. -/
def restore (place : Place) (checkpoint : Nat) : Place :=
  if checkpoint ≤ place.seen then { place with next := checkpoint } else place

/-- The place behind a look at the next token, which may be kept. -/
def forward (place : Place) (keep : Bool) : Place :=
  if keep then place.step else place.look 0

/-- The place once a number of tokens have been looked at. -/
def ahead (place : Place) (count : Nat) : Place :=
  { place with seen := max place.seen (place.next + count) }

/-- A later place: no token is forgotten, and none is behind those that were looked at. -/
structure Grows (place after : Place) : Prop where
  seen_le : place.seen ≤ after.seen
  next_le : after.next ≤ after.seen

/-- Places that grow one after another grow. -/
theorem Grows.trans {place middle after : Place} (hfirst : place.Grows middle)
    (hsecond : middle.Grows after) : place.Grows after :=
  ⟨Nat.le_trans hfirst.seen_le hsecond.seen_le, hsecond.next_le⟩

/-- Going back to where it all began. -/
theorem Grows.back {place middle : Place} (hplace : place.next ≤ place.seen)
    (hgrows : place.Grows middle) : place.Grows { middle with next := place.next } :=
  ⟨hgrows.seen_le, Nat.le_trans hplace hgrows.seen_le⟩

/-- Going back forgets no token. -/
theorem grows_restore {place : Place} (hplace : place.next ≤ place.seen) (checkpoint : Nat) :
    place.Grows (place.restore checkpoint) := by
  unfold restore
  split
  · rename_i hcheckpoint
    exact ⟨Nat.le_refl _, hcheckpoint⟩
  · exact ⟨Nat.le_refl _, hplace⟩

@[simp]
theorem seen_forward (place : Place) (keep : Bool) :
    (place.forward keep).seen = max place.seen (place.next + 1) := by
  cases keep <;> rfl

@[simp]
theorem next_forward (place : Place) (keep : Bool) :
    (place.forward keep).next = place.next + keep.toNat := by
  cases keep <;> rfl

/-- Taking or looking at a token forgets none. -/
theorem grows_forward {place : Place} (hplace : place.next ≤ place.seen) (keep : Bool) :
    place.Grows (place.forward keep) := by
  have hkeep := keep.toNat_le
  refine ⟨?_, ?_⟩ <;> simp only [seen_forward, next_forward] <;> omega

/-- Looking ahead forgets no token. -/
theorem grows_ahead {place : Place} (hplace : place.next ≤ place.seen) (count : Nat) :
    place.Grows (place.ahead count) :=
  ⟨Nat.le_max_left _ _, Nat.le_trans hplace (Nat.le_max_left _ _)⟩

end Place

namespace Script

variable {α β : Type}

/-- One script after another. -/
def bind : Script α → (α → Script β) → Script β
  | done value, others => others value
  | fail error, _ => fail error
  | forward keep rest, others => forward keep fun token => (rest token).bind others
  | ahead count rest, others => ahead count fun tokens => (rest tokens).bind others
  | checkpoint rest, others => checkpoint fun index => (rest index).bind others
  | restore index rest, others => restore index (rest.bind others)
  | spans rest, others => spans fun spanSince => (rest spanSince).bind others
  | source rest, others => source fun text size => (rest text size).bind others
  | nested body rest, others => nested body fun value => (rest value).bind others
  | rewindable body rest, others => rewindable body fun value => (rest value).bind others

/-- What a script does with a token sequence where a number of nesting levels may still
be opened. -/
def eval {α : Type} : Script α → (levels : Nat) → Parser α
  | done value, _ => pure value
  | fail error, _ => throw error
  | forward keep rest, levels => fun tokens place =>
    let token := tokens.get place.next
    (rest token).eval levels tokens (place.forward (keep token))
  | ahead count rest, levels => fun tokens place =>
    (rest (tokens.window place.next count)).eval levels tokens (place.ahead count)
  | checkpoint rest, levels => fun tokens place => (rest place.next).eval levels tokens place
  | restore index rest, levels => fun tokens place =>
    rest.eval levels tokens (place.restore index)
  | spans rest, levels => fun tokens place =>
    (rest fun start => tokens.spanBetween start place.next).eval levels tokens place
  | source rest, levels => fun tokens place =>
    (rest tokens.source tokens.size).eval levels tokens place
  | nested _ _, 0 => Parser.failNext .nestingTooDeep
  | nested body rest, levels + 1 => do
    let value ← body.eval levels
    (rest value).eval (levels + 1)
  | rewindable body rest, levels => do
    let value ← Parser.attempt (body.eval levels)
    (rest value).eval levels

/-- A script that restores no checkpoint on its own. -/
def Plain {α : Type} : Script α → Prop
  | done _ => True
  | fail _ => True
  | forward _ rest => ∀ token, (rest token).Plain
  | ahead _ rest => ∀ tokens, (rest tokens).Plain
  | checkpoint rest => ∀ index, (rest index).Plain
  | restore _ _ => False
  | spans rest => ∀ spanSince, (rest spanSince).Plain
  | source rest => ∀ text size, (rest text size).Plain
  | nested body rest => body.Plain ∧ ∀ value, (rest value).Plain
  | rewindable body rest => body.Plain ∧ ∀ value, (rest value).Plain

/-- Plain scripts may follow each other. -/
theorem Plain.bind {script : Script α} {others : α → Script β} (hscript : script.Plain)
    (hothers : ∀ value, (others value).Plain) : (script.bind others).Plain := by
  induction script with
  | done value => exact hothers value
  | fail => trivial
  | forward keep rest ih => exact fun token => ih token (hscript token) hothers
  | ahead count rest ih => exact fun tokens => ih tokens (hscript tokens) hothers
  | checkpoint rest ih => exact fun index => ih index (hscript index) hothers
  | restore => exact hscript.elim
  | spans rest ih => exact fun spanSince => ih spanSince (hscript spanSince) hothers
  | source rest ih => exact fun text size => ih text size (hscript text size) hothers
  | nested body rest _ ih => exact ⟨hscript.1, fun value => ih value (hscript.2 value) hothers⟩
  | rewindable body rest _ ih => exact ⟨hscript.1, fun value => ih value (hscript.2 value) hothers⟩

end Script

/-! ## What comes of a parser -/

namespace Parser

variable {α β : Type}

/-- What comes of a parser: a value or an error, and the place where it stopped. -/
abbrev Outcome (α : Type) :=
  EStateM.Result SyntaxError Place α

/-- The place where a parser stopped. -/
def stop : Outcome α → Place
  | .ok _ place => place
  | .error _ place => place

/-- Two outcomes that differ at most by how many tokens were looked at. -/
def Agrees : Outcome α → Outcome α → Prop
  | .ok value place, .ok value' place' => value' = value ∧ place'.next = place.next
  | .error error place, .error error' place' => error' = error ∧ place'.next = place.next
  | _, _ => False

private theorem failNext_apply (cause : SyntaxCause) (tokens : Tokens) (place : Place) :
    (failNext cause : Parser α) tokens place =
      .error ((tokens.get place.next).error cause) (place.look 0) :=
  rfl

/-- A parser starts where the one in front of it has read, and is not reached behind an error. -/
theorem bind_apply (first : Parser α) (others : α → Parser β) (tokens : Tokens) (place : Place) :
    (first >>= others) tokens place =
      match first tokens place with
      | .ok value middle => others value tokens middle
      | .error error middle => .error error middle := by
  simp only [bind, ReaderT.bind, EStateM.bind]
  cases first tokens place <;> rfl

end Parser

namespace Script

open PythonOutline.Parser

variable {α β : Type}

/-- Scripts behind each other are performed one after another. -/
theorem eval_bind (script : Script α) (others : α → Script β) (levels : Nat) :
    (script.bind others).eval levels =
      script.eval levels >>= fun value => (others value).eval levels := by
  induction script generalizing levels with
  | done | fail => rfl
  | forward keep rest ih => funext tokens place; exact congrFun (congrFun (ih ..) _) _
  | ahead count rest ih => funext tokens place; exact congrFun (congrFun (ih ..) _) _
  | checkpoint rest ih => funext tokens place; exact congrFun (congrFun (ih ..) _) _
  | restore index rest ih => funext tokens place; exact congrFun (congrFun (ih ..) _) _
  | spans rest ih => funext tokens place; exact congrFun (congrFun (ih ..) _) _
  | source rest ih => funext tokens place; exact congrFun (congrFun (ih ..) _) _
  | nested body rest _ ih =>
    cases levels with
    | zero => rfl
    | succ levels => simp only [Script.bind, eval, ih, bind_assoc]
  | rewindable body rest _ ih => simp only [Script.bind, eval, ih, bind_assoc]

/-- Where a level may be opened, a nested script is performed in it. -/
theorem eval_nested_succ (body : Script β) (rest : β → Script α) (levels : Nat) (tokens : Tokens)
    (place : Place) :
    (nested body rest).eval (levels + 1) tokens place =
      match body.eval levels tokens place with
      | .ok value middle => (rest value).eval (levels + 1) tokens middle
      | .error error middle => .error error middle :=
  bind_apply ..

/-- A script that may be undone is performed, and the place goes back unless it has read
something. -/
theorem eval_rewindable (body : Script (Option β)) (rest : Option β → Script α) (levels : Nat)
    (tokens : Tokens) (place : Place) :
    (rewindable body rest).eval levels tokens place =
      match body.eval levels tokens place with
      | .ok (some value) middle => (rest (some value)).eval levels tokens middle
      | .ok none middle => (rest none).eval levels tokens { middle with next := place.next }
      | .error _ middle => (rest none).eval levels tokens { middle with next := place.next } := by
  refine (bind_apply ..).trans ?_
  rw [attempt]
  cases body.eval levels tokens place with
  | error => rfl
  | ok value => cases value <;> rfl

/-! ## What no script can do -/

variable {tokens : Tokens} {place : Place}

/-- A script never forgets that it has looked at a token, and never stands behind a token that it
has not looked at. -/
theorem grows_eval (script : Script α) (levels : Nat) (tokens : Tokens) {place : Place}
    (hplace : place.next ≤ place.seen) :
    place.Grows (stop (script.eval levels tokens place)) := by
  induction script generalizing levels place with
  | done | fail => exact ⟨Nat.le_refl _, hplace⟩
  | forward keep rest ih =>
    have hforward := Place.grows_forward hplace (keep (tokens.get place.next))
    exact hforward.trans (ih _ levels hforward.next_le)
  | ahead count rest ih =>
    have hahead := Place.grows_ahead hplace count
    exact hahead.trans (ih _ levels hahead.next_le)
  | checkpoint rest ih => exact ih _ levels hplace
  | restore index rest ih =>
    have hrestore := Place.grows_restore hplace index
    exact hrestore.trans (ih levels hrestore.next_le)
  | spans rest ih => exact ih _ levels hplace
  | source rest ih => exact ih _ _ levels hplace
  | nested body rest ihBody ih =>
    cases levels with
    | zero => exact ⟨Nat.le_max_left _ _, Nat.le_trans hplace (Nat.le_max_left _ _)⟩
    | succ levels =>
      have hbody := ihBody levels hplace
      rw [eval_nested_succ]
      split <;> rename_i hresult <;> rw [hresult] at hbody
      · exact hbody.trans (ih _ _ hbody.next_le)
      · exact hbody
  | rewindable body rest ihBody ih =>
    have hbody := ihBody levels hplace
    rw [eval_rewindable]
    split <;> rename_i hresult <;> rw [hresult] at hbody
    · exact hbody.trans (ih _ _ hbody.next_le)
    · have hback := hbody.back hplace
      exact hback.trans (ih _ _ hback.next_le)
    · have hback := hbody.back hplace
      exact hback.trans (ih _ _ hback.next_le)

/-- What comes of a plain script does not depend on how many tokens were looked at before. -/
theorem Plain.agrees {script : Script α} (hscript : script.Plain) (levels : Nat)
    {other : Place} (hnext : other.next = place.next) :
    Agrees (script.eval levels tokens place) (script.eval levels tokens other) := by
  induction script generalizing levels place other with
  | done | fail => exact ⟨rfl, hnext⟩
  | forward keep rest ih =>
    simp only [eval, hnext]
    exact ih _ (hscript _) levels (by simp [hnext])
  | ahead count rest ih =>
    simp only [eval, hnext]
    exact ih _ (hscript _) levels hnext
  | checkpoint rest ih =>
    simp only [eval, hnext]
    exact ih _ (hscript _) levels hnext
  | restore => exact hscript.elim
  | spans rest ih =>
    simp only [eval, hnext]
    exact ih _ (hscript _) levels hnext
  | source rest ih => exact ih _ _ (hscript _ _) levels hnext
  | nested body rest ihBody ih =>
    cases levels with
    | zero => exact ⟨by simp [hnext], hnext⟩
    | succ levels =>
      have hbody := ihBody hscript.1 levels hnext
      rw [eval_nested_succ, eval_nested_succ]
      cases hfirst : body.eval levels tokens place <;>
        cases hsecond : body.eval levels tokens other <;> rw [hfirst, hsecond] at hbody
      · obtain ⟨rfl, hmiddle⟩ := hbody
        exact ih _ (hscript.2 _) _ hmiddle
      · exact hbody.elim
      · exact hbody.elim
      · exact hbody
  | rewindable body rest ihBody ih =>
    have hbody := ihBody hscript.1 levels hnext
    rw [eval_rewindable, eval_rewindable]
    cases hfirst : body.eval levels tokens place with
    | ok value middle =>
      cases hsecond : body.eval levels tokens other with
      | error => rw [hfirst, hsecond] at hbody; exact hbody.elim
      | ok value' middle' =>
        rw [hfirst, hsecond] at hbody
        obtain ⟨rfl, hmiddle⟩ := hbody
        cases value' with
        | none => exact ih _ (hscript.2 _) _ hnext
        | some value => exact ih _ (hscript.2 _) _ hmiddle
    | error error middle =>
      cases hsecond : body.eval levels tokens other with
      | error => exact ih _ (hscript.2 _) _ hnext
      | ok => rw [hfirst, hsecond] at hbody; exact hbody.elim

/-- What comes of a script depends only on the tokens that it looks at. -/
theorem eval_congr {tokens' : Tokens} (hsource : tokens'.source = tokens.source)
    (hsize : tokens'.size = tokens.size) (script : Script α) (levels : Nat)
    (hplace : place.next ≤ place.seen)
    (hget : ∀ index < (stop (script.eval levels tokens place)).seen,
      tokens'.get index = tokens.get index) :
    script.eval levels tokens' place = script.eval levels tokens place := by
  induction script generalizing levels place with
  | done | fail => rfl
  | forward keep rest ih =>
    have hforward := Place.grows_forward hplace (keep (tokens.get place.next))
    have hgrows := grows_eval (rest (tokens.get place.next)) levels tokens hforward.next_le
    have hseen := hgrows.seen_le
    rw [Place.seen_forward] at hseen
    have hnext : tokens'.get place.next = tokens.get place.next := hget _ (by
      simp only [eval]
      omega)
    simp only [eval, hnext]
    exact ih _ levels hforward.next_le hget
  | ahead count rest ih =>
    have hahead := Place.grows_ahead hplace count
    have hgrows := grows_eval (rest (tokens.window place.next count)) levels tokens hahead.next_le
    have hwindow : tokens'.window place.next count = tokens.window place.next count := by
      apply Tokens.window_congr
      intro index hindex
      apply hget
      exact Nat.lt_of_lt_of_le hindex (Nat.le_trans (Nat.le_max_right _ _) hgrows.seen_le)
    simp only [eval, hwindow]
    exact ih _ levels hahead.next_le hget
  | checkpoint rest ih => exact ih _ levels hplace hget
  | restore index rest ih => exact ih levels (Place.grows_restore hplace index).next_le hget
  | spans rest ih =>
    have hspans : ∀ start, tokens'.spanBetween start place.next =
        tokens.spanBetween start place.next := by
      intro start
      apply Tokens.spanBetween_congr
      intro index hindex
      have hgrows := grows_eval
        (rest fun start => tokens.spanBetween start place.next) levels tokens hplace
      exact hget index (Nat.lt_of_lt_of_le hindex (Nat.le_trans hplace hgrows.seen_le))
    simp only [eval, hspans]
    exact ih _ levels hplace hget
  | source rest ih =>
    simp only [eval, hsource, hsize]
    exact ih _ _ levels hplace hget
  | nested body rest ihBody ih =>
    cases levels with
    | zero =>
      have hnext : tokens'.get place.next = tokens.get place.next :=
        hget _ (Nat.lt_of_lt_of_le (Nat.lt_succ_self _) (Nat.le_max_right _ _))
      rw [eval, failNext_apply, failNext_apply, hnext]
    | succ levels =>
      have hgrows := grows_eval body levels tokens hplace
      rw [eval_nested_succ] at hget
      have hbody : body.eval levels tokens' place = body.eval levels tokens place := by
        apply ihBody levels hplace
        intro index hindex
        apply hget
        cases hresult : body.eval levels tokens place with
        | error => rwa [hresult] at hindex
        | ok value middle =>
          rw [hresult] at hindex hgrows
          exact Nat.lt_of_lt_of_le hindex (grows_eval _ _ _ hgrows.next_le).seen_le
      rw [eval_nested_succ, eval_nested_succ, hbody]
      cases hresult : body.eval levels tokens place with
      | error => rfl
      | ok value middle =>
        rw [hresult] at hget hgrows
        exact ih _ _ hgrows.next_le hget
  | rewindable body rest ihBody ih =>
    have hgrows := grows_eval body levels tokens hplace
    have hback := hgrows.back hplace
    rw [eval_rewindable] at hget
    have hbody : body.eval levels tokens' place = body.eval levels tokens place := by
      apply ihBody levels hplace
      intro index hindex
      apply hget
      cases hresult : body.eval levels tokens place with
      | error error middle =>
        rw [hresult] at hindex hback
        exact Nat.lt_of_lt_of_le hindex (grows_eval (rest none) levels tokens hback.next_le).seen_le
      | ok value middle =>
        rw [hresult] at hindex hgrows hback
        cases value with
        | none =>
          exact Nat.lt_of_lt_of_le hindex
            (grows_eval (rest none) levels tokens hback.next_le).seen_le
        | some value =>
          exact Nat.lt_of_lt_of_le hindex
            (grows_eval (rest (some value)) levels tokens hgrows.next_le).seen_le
    rw [eval_rewindable, eval_rewindable, hbody]
    cases hresult : body.eval levels tokens place with
    | error error middle =>
      rw [hresult] at hget hback
      exact ih _ _ hback.next_le hget
    | ok value middle =>
      rw [hresult] at hget hgrows hback
      cases value with
      | none => exact ih _ _ hback.next_le hget
      | some value => exact ih _ _ hgrows.next_le hget

end Script

end PythonOutline
