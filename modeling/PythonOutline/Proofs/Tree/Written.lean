import PythonOutline.Proofs.Parser.Loop
import PythonOutline.Proofs.Tree.Balanced
import PythonOutline.Proofs.Tree.Laminar
import PythonOutline.Proofs.Tree.Nesting

/-! # The tokens that expressions are written in

An expression is read from a balanced run of tokens, and its span is that of the run in all cases
but two. Parentheses that only group an expression leave no trace in the tree. A binary operator has
the span from its left to its right operand, which is less than the run if the operands are grouped.

`Tokens.Writes` says which run an expression is written in, and `Tokens.Holds` that a balanced run holds
some expressions. The rules here are those for the building blocks of parsers.
-/

namespace PythonOutline

/-- The expressions that a form is made of. -/
def ExprForm.parts (form : ExprForm) : List Expr :=
  form.besideParts ++ form.nestedParts

private theorem ExprForm.parts_binary (operator : Operator) (left right : Expr) :
    (binary operator left right).parts = [left, right] := by
  cases operator <;> rfl

/-- The parts of a comprehension are its elements and those of its clauses. -/
theorem ExprForm.parts_comprehension (kind : ComprehensionKind) (element : Expr) (value : Option Expr)
    (clauses : List ForClause) :
    (comprehension kind element value clauses).parts = comprehensionParts element value clauses := by
  cases kind <;> first | rfl | exact List.append_nil _

namespace Tokens

/-- The run of tokens that an expression was read from, with the ways in which its span comes from
the run. -/
inductive Places (tokens : Tokens) : (start stop : Nat) → Expr → Prop where
  | whole {start stop : Nat} {form : ExprForm} (hlt : start < stop)
      (hbalanced : tokens.Balanced start stop) :
      Places tokens start stop ⟨tokens.spanBetween start stop, form⟩
  | joined {start middle stop : Nat} {operator : Operator} {left right : Expr}
      (hne : operator ≠ .exponentiation) (hleft : Places tokens start middle left)
      (hplain : (tokens.get middle).kind.IsPlain)
      (hright : Places tokens (middle + 1) stop right) :
      Places tokens start stop ⟨left.span.join right.span, .binary operator left right⟩
  | grouped {start stop : Nat} {expr : Expr} (hopen : (tokens.get start).kind = .parenthesisOpen)
      (hinner : Places tokens (start + 1) stop expr)
      (hclose : (tokens.get stop).kind = .parenthesisClose) : Places tokens start (stop + 1) expr

end Tokens

/-- An expression and all expressions in it were read from runs of tokens. -/
def Expr.IsWritten (tokens : Tokens) (expr : Expr) : Prop :=
  ∀ ⦃count below⦄, expr.Descends count below → ∃ start stop, tokens.Places start stop below

private theorem Expr.isWritten_of_parts {tokens : Tokens} {expr : Expr} {start stop : Nat}
    (hplaced : tokens.Places start stop expr)
    (hparts : ∀ part ∈ expr.form.parts, part.IsWritten tokens) : expr.IsWritten tokens := by
  intro count below hdescends
  cases hdescends with
  | here => exact ⟨start, stop, hplaced⟩
  | beside hpart hrest => exact hparts _ (List.mem_append_left _ hpart) hrest
  | nested hpart hrest => exact hparts _ (List.mem_append_right _ hpart) hrest

namespace Tokens

/-- An expression was read from a run of tokens, and those in it from runs as well. -/
structure Writes (tokens : Tokens) (start stop : Nat) (expr : Expr) : Prop where
  placed : tokens.Places start stop expr
  written : expr.IsWritten tokens

/-- A balanced run of tokens from which some expressions were read, among others. -/
structure Holds (tokens : Tokens) (start stop : Nat) (exprs : List Expr) : Prop where
  balanced : tokens.Balanced start stop
  written : ∀ expr ∈ exprs, expr.IsWritten tokens

/-- A balanced run from which some expressions were read, and the token behind it, of a kind. -/
def HoldsTo (tokens : Tokens) (close : TokenKind) (start stop : Nat) (exprs : List Expr) : Prop :=
  ∃ last, stop = last + 1 ∧ (tokens.get last).kind = close ∧ tokens.Holds start last exprs

variable {tokens : Tokens} {start middle stop : Nat} {expr left right : Expr}
  {exprs others : List Expr} {form : ExprForm} {kind : TokenKind}

/-- An expression takes a token at least. -/
theorem Places.lt (hplaced : tokens.Places start stop expr) : start < stop := by
  induction hplaced <;> omega

/-- An expression is a balanced run. -/
theorem Places.balanced (hplaced : tokens.Places start stop expr) : tokens.Balanced start stop := by
  induction hplaced with
  | whole _ hbalanced => exact hbalanced
  | joined _ _ hplain _ ihLeft ihRight => exact ihLeft.append (.plain hplain ihRight)
  | grouped hopen _ hclose ih => exact .enclosed (by rw [hopen, hclose]; rfl) ih

/-- A run that writes an expression holds it. -/
theorem Writes.holds (hwrites : tokens.Writes start stop expr) : tokens.Holds start stop [expr] :=
  ⟨hwrites.placed.balanced, by simpa using hwrites.written⟩

/-- An expression is written with a token at least. -/
theorem Writes.lt (hwrites : tokens.Writes start stop expr) : start < stop :=
  hwrites.placed.lt

/-! ## Runs -/

namespace Holds

/-- No tokens hold no expressions. -/
theorem nil (tokens : Tokens) (index : Nat) : tokens.Holds index index [] :=
  ⟨.nil _, by simp⟩

/-- Expressions do not lead back. -/
theorem le (hholds : tokens.Holds start stop exprs) : start ≤ stop :=
  hholds.balanced.le

/-- A token that is no bracket holds no expression. -/
theorem token (hkind : (tokens.get start).kind = kind) (hplain : kind.IsPlain) :
    tokens.Holds start (start + 1) [] :=
  ⟨.single (hkind ▸ hplain), by simp⟩

/-- Runs behind each other hold the expressions of both. -/
theorem append (hfirst : tokens.Holds start middle exprs) (hsecond : tokens.Holds middle stop others) :
    tokens.Holds start stop (exprs ++ others) :=
  ⟨hfirst.balanced.append hsecond.balanced,
    List.forall_mem_append.mpr ⟨hfirst.written, hsecond.written⟩⟩

/-- A token that is no bracket may stand in front. -/
theorem behindToken (hkind : (tokens.get start).kind = kind) (hplain : kind.IsPlain)
    (hholds : tokens.Holds (start + 1) stop exprs) : tokens.Holds start stop exprs :=
  (token hkind hplain).append hholds

/-- A token that is no bracket may stand behind. -/
theorem thenToken (hholds : tokens.Holds start stop exprs) (hkind : (tokens.get stop).kind = kind)
    (hplain : kind.IsPlain) : tokens.Holds start (stop + 1) exprs := by
  have happend := hholds.append (token hkind hplain)
  rwa [List.append_nil] at happend

/-- The order of the expressions does not count, nor do those that are left out. -/
theorem mono (hholds : tokens.Holds start stop exprs) (hmem : ∀ expr ∈ others, expr ∈ exprs) :
    tokens.Holds start stop others :=
  ⟨hholds.balanced, fun expr hexpr => hholds.written expr (hmem expr hexpr)⟩

/-- What is held in brackets ends with the closing one. -/
theorem toClose {close : TokenKind} (hholds : tokens.Holds start stop exprs)
    (hclose : (tokens.get stop).kind = close) : tokens.HoldsTo close start (stop + 1) exprs :=
  ⟨stop, rfl, hclose, hholds⟩

/-- Expressions may stand in front of others in the same brackets. -/
theorem appendTo {close : TokenKind} (hfirst : tokens.Holds start middle exprs)
    (hsecond : tokens.HoldsTo close middle stop others) :
    tokens.HoldsTo close start stop (exprs ++ others) := by
  obtain ⟨last, rfl, hclose, hsecond⟩ := hsecond
  exact ⟨last, rfl, hclose, hfirst.append hsecond⟩

/-- An expression with the span of a run that holds the expressions it is made of. -/
theorem writes (hholds : tokens.Holds start stop exprs) (hlt : start < stop)
    (hparts : ∀ part ∈ form.parts, part ∈ exprs) :
    tokens.Writes start stop ⟨tokens.spanBetween start stop, form⟩ :=
  have hplaced := .whole hlt hholds.balanced
  ⟨hplaced, Expr.isWritten_of_parts hplaced fun part hpart => hholds.written part (hparts part hpart)⟩

end Holds

namespace HoldsTo

variable {close : TokenKind}

/-- The closing bracket is a token. -/
theorem lt (hholds : tokens.HoldsTo close start stop exprs) : start < stop := by
  obtain ⟨last, rfl, -, hholds⟩ := hholds
  exact Nat.lt_succ_of_le hholds.le

/-- All expressions in brackets are written. -/
theorem written (hholds : tokens.HoldsTo close start stop exprs) :
    ∀ expr ∈ exprs, expr.IsWritten tokens := by
  obtain ⟨last, rfl, -, hholds⟩ := hholds
  exact hholds.written

/-- A token that ends a run without closing a bracket. -/
theorem holds (hholds : tokens.HoldsTo close start stop exprs) (hplain : close.IsPlain) :
    tokens.Holds start stop exprs := by
  obtain ⟨last, rfl, hclose, hholds⟩ := hholds
  exact hholds.thenToken hclose hplain

/-- A run with brackets round it. -/
theorem enclosed (hholds : tokens.HoldsTo close (start + 1) stop exprs)
    (hopen : (tokens.get start).kind = kind) (hmatch : kind.closingBracket? = some close) :
    tokens.Holds start stop exprs := by
  obtain ⟨last, rfl, hclose, hinner⟩ := hholds
  exact ⟨.enclosed (by rw [hopen, hclose, hmatch]) hinner.balanced, hinner.written⟩

/-- An expression with the span of some brackets and what they hold. -/
theorem writes (hholds : tokens.HoldsTo close (start + 1) stop exprs)
    (hopen : (tokens.get start).kind = kind) (hmatch : kind.closingBracket? = some close)
    (hparts : ∀ part ∈ form.parts, part ∈ exprs) :
    tokens.Writes start stop ⟨tokens.spanBetween start stop, form⟩ :=
  (hholds.enclosed hopen hmatch).writes (Nat.lt_of_succ_lt hholds.lt) hparts

end HoldsTo

/-! ## Expressions -/

namespace Writes

/-- A token writes an expression without parts. -/
theorem leaf (hkind : (tokens.get start).kind = kind) (hplain : kind.IsPlain)
    (hform : form.parts = []) :
    tokens.Writes start (start + 1) ⟨(tokens.get start).span, form⟩ := by
  have hsignificant : (tokens.get start).kind.isSignificant := by
    rw [hkind]
    exact hplain.1.1
  rw [← spanBetween_succ hsignificant]
  exact (Holds.token hkind hplain).writes (Nat.lt_succ_self _) (by simp [hform])

/-- Two operands and an operator between them write an operation with the span of both. -/
theorem join {operator : Operator} (hne : operator ≠ .exponentiation)
    (hleft : tokens.Writes start middle left) (hplain : (tokens.get middle).kind.IsPlain)
    (hright : tokens.Writes (middle + 1) stop right) :
    tokens.Writes start stop ⟨left.span.join right.span, .binary operator left right⟩ := by
  have hplaced := Places.joined hne hleft.placed hplain hright.placed
  refine ⟨hplaced, Expr.isWritten_of_parts hplaced ?_⟩
  rw [ExprForm.parts_binary]
  simpa using ⟨hleft.written, hright.written⟩

/-- Parentheses around an expression write the same expression. -/
theorem grouped (hopen : (tokens.get start).kind = .parenthesisOpen)
    (hinner : tokens.Writes (start + 1) stop expr)
    (hclose : (tokens.get stop).kind = .parenthesisClose) : tokens.Writes start (stop + 1) expr :=
  ⟨.grouped hopen hinner.placed hclose, hinner.written⟩

end Writes

end Tokens

/-! ## Parsers -/

namespace Parser

variable {α : Type} {tokens : Tokens} {before after : Place}

/-- What a parser reads is written in the tokens that it takes. -/
def Writes (parser : Parser Expr) (tokens : Tokens) : Prop :=
  ∀ ⦃before value after⦄, parser.Reads tokens before value after →
    tokens.Writes before.next after.next value

/-- The tokens that a parser takes hold the expressions of what it reads. -/
def Holds (parser : Parser α) (tokens : Tokens) (exprs : α → List Expr) : Prop :=
  ∀ ⦃before value after⦄, parser.Reads tokens before value after →
    tokens.Holds before.next after.next (exprs value)

/-- A parser that writes what it reads holds it. -/
theorem Writes.holds {parser : Parser Expr} (hwrites : parser.Writes tokens) :
    parser.Holds tokens fun value => [value] :=
  fun _ _ _ hreads => (hwrites hreads).holds

/-- Tokens that were only looked at do not count. -/
theorem Writes.look {parser : Parser Expr} (hwrites : parser.Writes tokens) {distance : Nat}
    {value : Expr} (hreads : parser.Reads tokens (before.look distance) value after) :
    tokens.Writes before.next after.next value :=
  @hwrites (before.look distance) value after hreads

/-- A token that may be there holds no expression. -/
theorem holds_accept {kind : TokenKind} (hplain : kind.IsPlain) :
    (accept kind).Holds tokens fun _ => [] := by
  intro before value after hreads
  rw [reads_accept] at hreads
  split at hreads
  · rename_i hkind
    obtain ⟨-, rfl⟩ := hreads
    exact .token hkind hplain
  · obtain ⟨-, rfl⟩ := hreads
    exact .nil _ _

/-- A look at the next token takes none. -/
theorem holds_nextIs {kind : TokenKind} : (nextIs kind).Holds tokens fun _ => [] := by
  intro before value after hreads
  obtain ⟨-, rfl⟩ := reads_nextIs.mp hreads
  exact .nil _ _

variable {item : Parser α} {exprs : α → List Expr} {values : List α}

/-- Looking ahead does not change what is held. -/
theorem Holds.look (hitem : item.Holds tokens exprs) {distance : Nat} {value : α}
    (hreads : item.Reads tokens (before.look distance) value after) :
    tokens.Holds before.next after.next (exprs value) :=
  @hitem (before.look distance) value after hreads

/-- What may be there is held if it is. -/
theorem Holds.ifAccepted (hitem : item.Holds tokens exprs) {kind : TokenKind} (hplain : kind.IsPlain) :
    (Parser.ifAccepted kind item).Holds tokens fun value => value.toList.flatMap exprs := by
  intro before value after hreads
  rw [reads_ifAccepted] at hreads
  split at hreads
  · rename_i hkind
    obtain ⟨value, hvalue, rfl⟩ := hreads
    simpa using (hitem hvalue).behindToken hkind hplain
  · obtain ⟨rfl, rfl⟩ := hreads
    exact .nil _ _

/-- The values of a repetition hold their expressions one after another. -/
theorem Holds.repeats {condition : Parser Bool}
    (hstop : ∀ ⦃before after⦄, condition.Reads tokens before false after →
      tokens.Holds before.next after.next [])
    (hitem : ∀ ⦃before start value after⦄, condition.Reads tokens before true start →
      item.Reads tokens start value after → tokens.Holds before.next after.next (exprs value))
    (hrepeats : Repeats condition item tokens before values after) :
    tokens.Holds before.next after.next (values.flatMap exprs) := by
  induction hrepeats with
  | stop hcondition => exact hstop hcondition
  | item hcondition hvalue _ ih =>
    rw [List.flatMap_cons]
    exact (hitem hcondition hvalue).append ih

/-- Items that are read while a token stands in front of them, which is taken. -/
theorem Holds.repeatsBehind (hitem : item.Holds tokens exprs) {kind : TokenKind}
    (hplain : kind.IsPlain) (hrepeats : Repeats (accept kind) item tokens before values after) :
    tokens.Holds before.next after.next (values.flatMap exprs) :=
  Holds.repeats (fun _ _ hcondition => holds_accept hplain hcondition)
    (fun _ _ _ _ hcondition hvalue => (holds_accept hplain hcondition).append (hitem hvalue)) hrepeats

/-- The values of a list hold their expressions up to the closing bracket. -/
theorem Holds.lists (hitem : item.Holds tokens exprs) {close : TokenKind}
    (hlists : Lists close item tokens before values after) :
    tokens.HoldsTo close before.next after.next (values.flatMap exprs) := by
  induction hlists with
  | close hkind => exact (Tokens.Holds.nil _ _).toClose hkind
  | last _ hvalue hkind => simpa using (hitem hvalue).toClose hkind
  | item _ hvalue hkind _ ih =>
    rw [List.flatMap_cons]
    exact ((hitem hvalue).thenToken hkind (by decide)).appendTo ih

/-- Further values behind separators hold their expressions one after another. -/
theorem Holds.continues (hitem : item.Holds tokens exprs) {separator : TokenKind}
    (hplain : separator.IsPlain) {starts : TokenKind → Bool}
    (hcontinues : Continues separator starts item tokens before values after) :
    tokens.Holds before.next after.next (values.flatMap exprs) := by
  induction hcontinues with
  | stop => exact .nil _ _
  | trailing hkind => exact .token hkind hplain
  | item hkind _ hvalue _ ih =>
    rw [List.flatMap_cons]
    exact ((hitem hvalue).behindToken hkind hplain).append ih

end Parser

end PythonOutline
