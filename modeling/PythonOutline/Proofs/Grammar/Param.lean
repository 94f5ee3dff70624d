import PythonOutline.Parser.Nesting
import PythonOutline.Proofs.Grammar.Argument

/-! # The grammar of parameters and of nesting levels

What the parsers of parameter lists and of lambdas read, one rule a parser, and what a level adds to
the one inside it.
-/

namespace PythonOutline.Level

open PythonOutline.Parser

variable {level : Level} {tokens : Tokens} {before after : Place} {value : Expr}

/-- The type hint of a parameter of a kind. -/
def typeHint (level : Level) (kind : ParamKind) : Parser Expr :=
  if kind = .varPositional then level.starExpr else level.expr

/-- A parameter is a name that may have a type hint and a default, unless its kind rules them
out. -/
theorem reads_param {kind : ParamKind} {typeHints : Bool} {param : Param}
    (hreads : (level.param kind typeHints).Reads tokens before param after) :
    tokens.kindAt before = .identifier ∧
      ∃ hint middle defaultValue,
        (if typeHints then
            (ifAccepted .colon (level.typeHint kind)).Reads tokens before.step hint middle
          else hint = none ∧ middle = before.step) ∧
        (if kind = .varPositional ∨ kind = .varKeyword then defaultValue = none ∧ after = middle
          else (ifAccepted .equals level.expr).Reads tokens middle defaultValue after) ∧
        param = ⟨tokens.spanBetween before.next after.next, (tokens.get before.next).text, kind,
          hint, defaultValue⟩ := by
  simp only [Level.param, ite_bind, reads_spanned, reads_bind, reads_identifier, reads_pure,
    existsAndEq, and_true] at hreads
  obtain ⟨hinted, start, hint, middle, defaultValue, ⟨hname, hhinted, hhint, hdefault⟩, rfl⟩ :=
    hreads
  refine ⟨hname, hint, middle, defaultValue, ?_, by simpa only [reads_ite, reads_pure] using hdefault,
    rfl⟩
  cases typeHints with
  | false =>
    obtain ⟨rfl, rfl⟩ := reads_pure.mp hhinted
    exact reads_pure.mp hhint
  | true =>
    simp only [reduceIte, reads_ifAccepted, reads_accept, typeHint] at hhinted ⊢
    split at hhinted
    · rename_i hcolon
      obtain ⟨rfl, rfl⟩ := hhinted
      rw [if_pos hcolon]
      exact reads_map.mp hhint
    · rename_i hcolon
      obtain ⟨rfl, rfl⟩ := hhinted
      rw [if_neg hcolon]
      exact reads_pure.mp hhint

/-- An entry of a parameter list is told by its first token and by whether a `*` stands before. -/
theorem reads_paramsEntry {typeHints : Bool} {state state' : ParamsState} :
    (level.paramsEntry typeHints state).Reads tokens before state' after ↔
      state.seenVarKeyword = false ∧
        match tokens.kindAt before, state.keywordOnly with
        | .slash, _ => after = before.step ∧ closePositional? state = some state'
        | .asterisk, false =>
          if tokens.kindAt before.step = .comma then
            state' = { state with keywordOnly := true } ∧ after = before.step.look 0
          else
            ∃ param,
              (level.param .varPositional typeHints).Reads tokens (before.step.look 0) param after ∧
              state' = { state with params := param :: state.params, keywordOnly := true }
        | .asteriskAsterisk, _ =>
          ∃ param, (level.param .varKeyword typeHints).Reads tokens before.step param after ∧
            state' = { state with params := param :: state.params, seenVarKeyword := true }
        | _, true =>
          ∃ param, (level.param .keywordOnly typeHints).Reads tokens (before.look 0) param after ∧
            state' = { state with params := param :: state.params }
        | _, false =>
          ∃ param, (level.param .regular typeHints).Reads tokens (before.look 0) param after ∧
            (param.defaultValue.isNone && state.seenDefault) = false ∧
            state' = { state with
              params := param :: state.params
              seenDefault := state.seenDefault || param.defaultValue.isSome } := by
  simp only [paramsEntry, reads_bind, reads_peek, existsAndEq, true_and, and_true, Tokens.get_kind]
  obtain ⟨params, keywordOnly, seenDefault, seenVarKeyword⟩ := state
  cases seenVarKeyword with
  | true => simp
  | false =>
    simp only [Bool.false_eq_true, reduceIte, true_and]
    generalize tokens.kindAt before = kind
    split
    · simp only [reads_bind, reads_take, existsAndEq, true_and, and_true]
      cases closePositional? ⟨params, keywordOnly, seenDefault, false⟩ with
      | none => simp
      | some closed => simp [and_comm, eq_comm]
    · simp
    · simp
    · simp
    · simp

/-- The entries of a parameter list are read up to a closing token, which is taken. -/
inductive Enters (level : Level) (close : TokenKind) (typeHints : Bool) (tokens : Tokens) :
    ParamsState → Place → ParamsState → Place → Prop where
  | close {state : ParamsState} {before : Place} (hclose : tokens.kindAt before = close) :
      Enters level close typeHints tokens state before state before.step
  | last {state state' : ParamsState} {before middle : Place}
      (hopen : tokens.kindAt before ≠ close)
      (hentry : (level.paramsEntry typeHints state).Reads tokens (before.look 0) state' middle)
      (hclose : tokens.kindAt middle = close) :
      Enters level close typeHints tokens state before state' middle.step
  | entry {state state' result : ParamsState} {before middle after : Place}
      (hopen : tokens.kindAt before ≠ close)
      (hentry : (level.paramsEntry typeHints state).Reads tokens (before.look 0) state' middle)
      (hcomma : tokens.kindAt middle = .comma)
      (hrest : Enters level close typeHints tokens state' middle.step result after) :
      Enters level close typeHints tokens state before result after

/-- A parameter list is what its entries have brought, in order. -/
theorem reads_params {close : TokenKind} {typeHints : Bool} {params : List Param}
    (hreads : (level.params close typeHints).Reads tokens before params after) :
    ∃ result, level.Enters close typeHints tokens ⟨[], false, false, false⟩ before result after ∧
      params = result.params.reverse := by
  simp only [Level.params, reads_iterate] at hreads
  obtain ⟨count, -, hiterates⟩ := hreads
  generalize (⟨[], false, false, false⟩ : ParamsState) = state at hiterates ⊢
  induction hiterates with
  | @done state before after params hstep =>
    have hend : if tokens.kindAt before = close then
          params = state.params.reverse ∧ after = before.step
        else ∃ state' middle,
          (level.paramsEntry typeHints state).Reads tokens (before.look 0) state' middle ∧
          tokens.kindAt middle ≠ .comma ∧ (tokens.kindAt middle = close ∧ after = middle.step) ∧
          params = state'.params.reverse := by
      simpa using hstep
    split at hend
    · rename_i hclose
      obtain ⟨rfl, rfl⟩ := hend
      exact ⟨state, .close hclose, rfl⟩
    · rename_i hopen
      obtain ⟨state', middle, hentry, -, ⟨hclose, rfl⟩, rfl⟩ := hend
      exact ⟨state', .last hopen hentry hclose, rfl⟩
  | @next _ state next before start _ _ hstep _ ih =>
    have hentry : tokens.kindAt before ≠ close ∧ ∃ state' middle,
        (level.paramsEntry typeHints state).Reads tokens (before.look 0) state' middle ∧
          tokens.kindAt middle = .comma ∧ next = state' ∧ start = middle.step := by
      simpa using hstep
    obtain ⟨hopen, state', middle, hentry, hcomma, rfl, rfl⟩ := hentry
    obtain ⟨result, henters, rfl⟩ := ih
    exact ⟨result, .entry hopen hentry hcomma henters, rfl⟩

/-- A lambda is its parameters, without type hints, and its body. -/
theorem reads_lambdaExpr :
    level.lambdaExpr.Reads tokens before value after ↔
      tokens.kindAt before = .keywordLambda ∧
        ∃ params middle, (level.params .colon false).Reads tokens before.step params middle ∧
          ∃ body, level.expr.Reads tokens middle body after ∧
            value = ⟨tokens.spanBetween before.next after.next, .lambda params body⟩ := by
  simp [lambdaExpr, and_assoc]

/-! ## Nesting levels -/

/-- Inside the level that a call opens stand its arguments. -/
theorem reads_innerArguments {arguments : List Argument} :
    level.around.innerArguments.Reads tokens before arguments after ↔
      level.arguments.Reads tokens before.step arguments after := by
  simp [around]

/-- Inside the level that a subscript opens stand its elements and the closing bracket. -/
theorem reads_innerIndex {index : Expr} :
    level.around.innerIndex.Reads tokens before index after ↔
      ∃ last, level.subscript.Reads tokens before.step index last ∧
        tokens.kindAt last = .bracketClose ∧ after = last.step := by
  simp [around]

end PythonOutline.Level
