import PythonOutline.Parser.Nesting
import PythonOutline.Proofs.Parser.Script

/-! # A parser with a buffer

The parsers of the grammar read from a token sequence that is complete from the start. A machine has
only a lexer: it asks for a token when it first looks at it, keeps all tokens it was given in a
buffer, and counts the open nesting levels. It performs any script as `Script.eval` does on the
token sequence of its source (`run_at`). So its buffer always holds the first tokens of the source,
its lexer stands behind these, and the levels that a script opens are closed behind it, whether it
fails or not. -/

namespace PythonOutline

namespace Lexer

/-- The tokens that a lexer answers first. -/
def firstTokens (lexer : Lexer) : (count : Nat) → List Token
  | 0 => []
  | count + 1 => lexer.next.1 :: lexer.next.2.firstTokens count

private theorem firstTokens_succ (lexer : Lexer) (count : Nat) :
    lexer.firstTokens (count + 1) = lexer.firstTokens count ++ [(lexer.after count).next.1] := by
  induction count generalizing lexer with
  | zero => rfl
  | succ count ih =>
    rw [firstTokens, ih]
    rfl

@[simp]
theorem length_firstTokens (lexer : Lexer) (count : Nat) :
    (lexer.firstTokens count).length = count := by
  induction count generalizing lexer with
  | zero => rfl
  | succ count ih => rw [firstTokens, List.length_cons, ih]

end Lexer

namespace Tokens

private theorem window_succ (tokens : Tokens) (start count : Nat) :
    tokens.window start (count + 1) = tokens.get start :: tokens.window (start + 1) count := by
  simp only [window, List.range_succ_eq_map, List.map_cons, List.map_map, Nat.add_zero]
  congr 1
  apply List.map_congr_left
  intro distance _
  simp only [Function.comp_apply]
  congr 1
  omega

private theorem window_succ_last (tokens : Tokens) (start count : Nat) :
    tokens.window start (count + 1) = tokens.window start count ++ [tokens.get (start + count)] := by
  rw [window, List.range_succ, List.map_append, window, List.map_cons, List.map_nil]

private theorem find?_window (tokens : Tokens) (start count : Nat) :
    ((tokens.window start count).find? fun token => token.kind.isSignificant) =
      tokens.firstSignificant? start count := by
  induction count generalizing start with
  | zero => rfl
  | succ count ih =>
    rw [window_succ, List.find?_cons, firstSignificant?, ih]
    cases (tokens.get start).kind.isSignificant <;> rfl

private theorem find?_reverse_window (tokens : Tokens) (start count : Nat) :
    ((tokens.window start count).reverse.find? fun token => token.kind.isSignificant) =
      tokens.lastSignificant? start count := by
  induction count with
  | zero => rfl
  | succ count ih =>
    rw [window_succ_last, List.reverse_append, List.reverse_singleton, List.singleton_append,
      List.find?_cons, lastSignificant?, ih]
    cases (tokens.get (start + count)).kind.isSignificant <;> rfl

private theorem drop_window (tokens : Tokens) (start count : Nat) :
    (tokens.window 0 count).drop start = tokens.window start (count - start) := by
  apply List.ext_getElem
  · simp [window]
  · intro index _ _
    simp [window]

private theorem take_window (tokens : Tokens) {start count rest : Nat} (hle : count ≤ rest) :
    (tokens.window start rest).take count = tokens.window start count := by
  rw [window, window, ← List.map_take, List.take_range, Nat.min_eq_left hle]

/-- The first tokens that the lexer answers are the first of the sequence. -/
theorem firstTokens_eq_window (source : String) (count : Nat) :
    (Lexer.ofSource source).firstTokens count = (ofSource source).window 0 count := by
  induction count with
  | zero => rfl
  | succ count ih =>
    rw [Lexer.firstTokens_succ, ih, window, window, List.range_succ, List.map_append,
      ← get_ofSource_eq_next]
    simp

end Tokens

/-- A parser that asks its lexer for a token when it first looks at it. -/
structure Machine where
  /-- The text that is parsed. -/
  source : String
  /-- The lexer behind the tokens it was asked for. -/
  lexer : Lexer
  /-- The tokens that the lexer was asked for. -/
  buffer : List Token
  /-- The index of the next token. -/
  next : Nat
  /-- The number of open nesting levels. -/
  nesting : Nat

namespace Machine

variable {α : Type}

/-- A new parser for a source. -/
def ofSource (source : String) : Machine where
  source := source
  lexer := .ofSource source
  buffer := []
  next := 0
  nesting := 0

/-- Asks the lexer for the next token, unless it is in the buffer. -/
def fill (machine : Machine) : Machine :=
  if machine.buffer.length = machine.next then
    { machine with
      lexer := machine.lexer.next.2, buffer := machine.buffer ++ [machine.lexer.next.1] }
  else machine

/-- The next token, which is in the buffer. -/
def token (machine : Machine) : Token :=
  (machine.buffer[machine.next]?).getD (.endOfInput machine.source.utf8ByteSize)

/-- Looks at the next token, and takes it if it is to be kept. -/
def forward (keep : Token → Bool) (machine : Machine) : Token × Machine :=
  let filled := machine.fill
  (filled.token, if keep filled.token then { filled with next := filled.next + 1 } else filled)

/-- Takes a number of tokens. -/
def takeMany : (count : Nat) → Machine → List Token × Machine
  | 0, machine => ([], machine)
  | count + 1, machine =>
    let (token, machine) := machine.forward fun _ => true
    let (tokens, machine) := takeMany count machine
    (token :: tokens, machine)

/-- Goes back to a checkpoint. -/
def restore (machine : Machine) (checkpoint : Nat) : Machine :=
  if checkpoint ≤ machine.buffer.length then { machine with next := checkpoint } else machine

/-- The span of the significant tokens taken since a checkpoint. -/
def spanSince (machine : Machine) (checkpoint : Nat) : Span :=
  let taken := machine.buffer.take machine.next
  let since := taken.drop checkpoint
  match since.find? fun token => token.kind.isSignificant,
    since.reverse.find? fun token => token.kind.isSignificant with
  | some first, some last => ⟨first.span.start, last.span.stop⟩
  | _, _ => Span.point (taken.getLast?.elim 0 fun token => token.span.stop)

/-- Opens a nesting level. -/
def enter (machine : Machine) : Machine :=
  { machine with nesting := machine.nesting + 1 }

/-- Closes a nesting level. -/
def leave (machine : Machine) : Machine :=
  { machine with nesting := machine.nesting - 1 }

end Machine

namespace Script

variable {α β : Type}

/-- What a script does with a machine. A nesting level that was opened is closed again on either
path. -/
def run {α : Type} : Script α → Machine → Except SyntaxError α × Machine
  | done value, machine => (.ok value, machine)
  | fail error, machine => (.error error, machine)
  | forward keep rest, machine =>
    let (token, machine) := machine.forward keep
    (rest token).run machine
  | ahead count rest, machine =>
    let (tokens, later) := Machine.takeMany count machine
    (rest tokens).run (later.restore machine.next)
  | checkpoint rest, machine => (rest machine.next).run machine
  | restore index rest, machine => rest.run (machine.restore index)
  | spans rest, machine => (rest machine.spanSince).run machine
  | source rest, machine =>
    (rest machine.source.toList machine.source.utf8ByteSize).run machine
  | nested body rest, machine =>
    if Level.maxCount ≤ machine.nesting + 1 then
      let (token, machine) := machine.forward fun _ => false
      (.error (token.error .nestingTooDeep), machine)
    else
      match body.run machine.enter with
      | (.ok value, inner) => (rest value).run inner.leave
      | (.error error, inner) => (.error error, inner.leave)
  | rewindable body rest, machine =>
    match body.run machine with
    | (.ok (some value), after) => (rest (some value)).run after
    | (.ok none, after) => (rest none).run (after.restore machine.next)
    | (.error _, after) => (rest none).run (after.restore machine.next)

end Script

namespace Machine

variable {α : Type} {source : String} {place : Place} {nesting : Nat}

/-! ## The machine at a place -/

/-- The machine that has looked at the tokens of a source as a parser at a place has. -/
def ofPlace (source : String) (place : Place) (nesting : Nat) : Machine where
  source := source
  lexer := (Lexer.ofSource source).after place.seen
  buffer := (Lexer.ofSource source).firstTokens place.seen
  next := place.next
  nesting := nesting

private theorem getElem?_firstTokens {index count : Nat} (hindex : index < count) :
    ((Lexer.ofSource source).firstTokens count)[index]? = some ((Tokens.ofSource source).get index) := by
  rw [Tokens.firstTokens_eq_window, Tokens.window, List.getElem?_map, List.getElem?_range hindex]
  simp

/-- A filled buffer has seen the next token, and nothing behind it that was not seen before. -/
private theorem fill_ofPlace (hplace : place.next ≤ place.seen) :
    (ofPlace source place nesting).fill = ofPlace source (place.look 0) nesting := by
  have hlength : (ofPlace source place nesting).buffer.length = place.seen :=
    Lexer.length_firstTokens ..
  rw [fill, hlength]
  split
  · rename_i hfull
    have hfull : place.seen = place.next := hfull
    have hseen : (place.look 0).seen = place.seen + 1 := by
      simp only [Place.look]
      omega
    simp only [ofPlace, hseen, Lexer.after_succ, Lexer.firstTokens_succ, Place.look_next]
  · rename_i hfull
    have hfull : place.seen ≠ place.next := hfull
    have hseen : (place.look 0).seen = place.seen := by
      simp only [Place.look]
      omega
    simp only [ofPlace, hseen, Place.look_next]

private theorem forward_ofPlace (hplace : place.next ≤ place.seen) (keep : Token → Bool) :
    (ofPlace source place nesting).forward keep =
      ((Tokens.ofSource source).get place.next,
        ofPlace source (place.forward (keep ((Tokens.ofSource source).get place.next))) nesting) := by
  have hseen : place.next < (place.look 0).seen :=
    Nat.lt_of_lt_of_le (Nat.lt_succ_self _) (Nat.le_max_right _ _)
  have htoken : (ofPlace source (place.look 0) nesting).token =
      (Tokens.ofSource source).get place.next := by
    have hget : (ofPlace source (place.look 0) nesting).buffer[place.next]? =
        some ((Tokens.ofSource source).get place.next) := getElem?_firstTokens hseen
    change Option.getD ((ofPlace source (place.look 0) nesting).buffer[place.next]?) _ = _
    rw [hget, Option.getD_some]
  rw [forward, fill_ofPlace hplace, htoken]
  cases keep ((Tokens.ofSource source).get place.next) <;> rfl

private theorem restore_ofPlace (checkpoint : Nat) :
    (ofPlace source place nesting).restore checkpoint =
      ofPlace source (place.restore checkpoint) nesting := by
  have hlength : (ofPlace source place nesting).buffer.length = place.seen :=
    Lexer.length_firstTokens ..
  rw [restore, hlength, Place.restore]
  split <;> rfl

/-- A machine that goes back to a checkpoint stands there, with the same tokens in its buffer. -/
theorem restore_ofPlace_of_le {checkpoint : Nat} (hle : checkpoint ≤ place.seen) :
    (ofPlace source place nesting).restore checkpoint =
      ofPlace source { place with next := checkpoint } nesting := by
  rw [restore_ofPlace, Place.restore, if_pos hle]

/-- Taking tokens one by one takes the window of them. -/
private theorem takeMany_ofPlace (hplace : place.next ≤ place.seen) (count : Nat) :
    takeMany count (ofPlace source place nesting) =
      ((Tokens.ofSource source).window place.next count,
        ofPlace source ⟨place.next + count, max place.seen (place.next + count)⟩ nesting) := by
  induction count generalizing place with
  | zero =>
    rw [takeMany, Nat.add_zero, Nat.max_eq_left hplace]
    rfl
  | succ count ih =>
    have hforward := Place.grows_forward hplace true
    have hnext : place.next + 1 + count = place.next + (count + 1) := by omega
    have hseen : max (max place.seen (place.next + 1)) (place.next + (count + 1)) =
        max place.seen (place.next + (count + 1)) := by omega
    rw [takeMany, forward_ofPlace hplace]
    dsimp only
    rw [ih hforward.next_le, Tokens.window_succ, Place.seen_forward, Place.next_forward,
      Bool.toNat_true, hnext, hseen]

private theorem spanSince_ofPlace (hplace : place.next ≤ place.seen) :
    (ofPlace source place nesting).spanSince =
      fun start => (Tokens.ofSource source).spanBetween start place.next := by
  funext start
  have htaken : (ofPlace source place nesting).buffer.take (ofPlace source place nesting).next =
      (Tokens.ofSource source).window 0 place.next := by
    rw [ofPlace, Tokens.firstTokens_eq_window, Tokens.take_window _ hplace]
  have hlast : ((Tokens.ofSource source).window 0 place.next).getLast?.elim 0
        (fun token => token.span.stop) =
      if place.next = 0 then 0 else ((Tokens.ofSource source).get (place.next - 1)).span.stop := by
    cases place.next with
    | zero => rfl
    | succ next =>
      rw [Tokens.window_succ_last, List.getLast?_concat]
      simp
  rw [spanSince, htaken, Tokens.drop_window, Tokens.find?_window, Tokens.find?_reverse_window,
    hlast]
  rfl

/-- What a machine says and where it stands once a parser has said something at its place. -/
def answer (source : String) (nesting : Nat) : Parser.Outcome α → Except SyntaxError α × Machine
  | .ok value place => (.ok value, ofPlace source place nesting)
  | .error error place => (.error error, ofPlace source place nesting)

/-- A machine performs a script as it is performed on the tokens of its source. -/
theorem run_ofPlace (script : Script α) (hplace : place.next ≤ place.seen) :
    script.run (ofPlace source place nesting) =
      answer source nesting
        (script.eval (Level.maxCount - 1 - nesting) (Tokens.ofSource source) place) := by
  induction script generalizing place nesting with
  | done value => rfl
  | fail error => rfl
  | forward keep rest ih =>
    rw [Script.run, forward_ofPlace hplace]
    exact ih _ (Place.grows_forward hplace _).next_le
  | ahead count rest ih =>
    have hahead := Place.grows_ahead hplace count
    have hle : place.next ≤ max place.seen (place.next + count) :=
      Nat.le_trans hplace (Nat.le_max_left _ _)
    have hback : (ofPlace source ⟨place.next + count, max place.seen (place.next + count)⟩
        nesting).restore place.next = ofPlace source (place.ahead count) nesting :=
      restore_ofPlace_of_le hle
    rw [Script.run, takeMany_ofPlace hplace]
    refine (congrArg _ hback).trans ?_
    exact ih _ hahead.next_le
  | checkpoint rest ih => exact ih _ hplace
  | restore index rest ih =>
    rw [Script.run, restore_ofPlace]
    exact ih (Place.grows_restore hplace index).next_le
  | spans rest ih =>
    rw [Script.run, spanSince_ofPlace hplace]
    exact ih _ hplace
  | source rest ih => exact ih _ _ hplace
  | nested body rest ihBody ih =>
    rw [Script.run]
    split
    · rename_i hdeep
      have hlevels : Level.maxCount - 1 - nesting = 0 := by
        have hdeep : Level.maxCount ≤ nesting + 1 := hdeep
        omega
      rw [hlevels, Script.eval, forward_ofPlace hplace]
      rfl
    · rename_i hdeep
      have hlevels : Level.maxCount - 1 - nesting = Level.maxCount - 1 - (nesting + 1) + 1 := by
        have hdeep : ¬Level.maxCount ≤ nesting + 1 := hdeep
        omega
      have hbody : body.run (ofPlace source place nesting).enter =
          answer source (nesting + 1)
            (body.eval (Level.maxCount - 1 - (nesting + 1)) (Tokens.ofSource source) place) :=
        ihBody hplace
      have hgrows := body.grows_eval (Level.maxCount - 1 - (nesting + 1)) (Tokens.ofSource source)
        hplace
      rw [hbody, hlevels, Script.eval_nested_succ, ← hlevels]
      cases hresult : body.eval (Level.maxCount - 1 - (nesting + 1)) (Tokens.ofSource source) place with
      | error error middle => rfl
      | ok value middle =>
        rw [hresult] at hgrows
        exact ih _ hgrows.next_le
  | rewindable body rest ihBody ih =>
    have hgrows := body.grows_eval (Level.maxCount - 1 - nesting) (Tokens.ofSource source) hplace
    have hback := hgrows.back hplace
    rw [Script.run, Script.eval_rewindable, ihBody hplace]
    cases hresult : body.eval (Level.maxCount - 1 - nesting) (Tokens.ofSource source) place with
    | error error middle =>
      rw [hresult] at hback
      have hle : place.next ≤ middle.seen := hback.next_le
      have hrest : (rest none).run (ofPlace source { middle with next := place.next } nesting) = _ :=
        ih none hle
      exact (congrArg (rest none).run (restore_ofPlace_of_le hle)).trans hrest
    | ok value middle =>
      rw [hresult] at hgrows hback
      cases value with
      | none =>
        have hle : place.next ≤ middle.seen := hback.next_le
        have hrest : (rest none).run (ofPlace source { middle with next := place.next } nesting) = _ :=
          ih none hle
        exact (congrArg (rest none).run (restore_ofPlace_of_le hle)).trans hrest
      | some value => exact ih _ hgrows.next_le

end Machine

end PythonOutline
