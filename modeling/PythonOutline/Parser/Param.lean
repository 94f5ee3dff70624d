import PythonOutline.Parser.Expr

/-! # Parameter lists

The parameters of functions and lambdas. A `/` makes all parameters before it positional-only, a `*`
makes those behind it keyword-only, and nothing may follow a `**` parameter. Among the parameters
before a `*`, those with a default come last.
-/

namespace PythonOutline.Level

open PythonOutline.Parser

/-- One parameter of a kind. Only a `*` parameter may have a starred type hint, and `*` and `**`
parameters have no default. -/
def param (level : Level) (kind : ParamKind) (typeHints : Bool) : Parser Param := spanned do
  let name ← identifier
  let hinted ← if typeHints then accept .colon else pure false
  let typeHint ←
    if hinted then
      some <$> if kind = .varPositional then level.starExpr else level.expr
    else pure none
  let defaultValue ←
    if kind = .varPositional ∨ kind = .varKeyword then pure none
    else ifAccepted .equals level.expr
  return fun span => ⟨span, name, kind, typeHint, defaultValue⟩

/-- What a parameter list has brought so far. -/
structure ParamsState where
  /-- The parameters, last one first. -/
  params : List Param
  /-- Whether a `*` stands before. -/
  keywordOnly : Bool
  /-- Whether a regular parameter has a default. -/
  seenDefault : Bool
  /-- Whether a `**` parameter stands before. -/
  seenVarKeyword : Bool

/-- The parameters with all of them positional-only, unless a `/` may not stand behind them. -/
def closePositional? (state : ParamsState) : Option ParamsState :=
  if state.keywordOnly || state.params.isEmpty ||
      state.params.any (fun param => param.kind = .positionalOnly) then none
  else
    some { state with params := state.params.map fun param =>
      { param with kind := .positionalOnly } }

/-- Takes one entry of a parameter list: a parameter, a `/`, or a `*` alone. -/
def paramsEntry (level : Level) (typeHints : Bool) (state : ParamsState) : Parser ParamsState := do
  let token ← peek
  if state.seenVarKeyword then throw (token.error (.expected "end of parameters"))
  match token.kind, state.keywordOnly with
  | .slash, _ =>
    let _ ← take
    match closePositional? state with
    | some state => return state
    | none => throw (token.error (.expected "parameter before `/`"))
  | .asterisk, false =>
    let _ ← take
    if ← nextIs .comma then return { state with keywordOnly := true }
    let param ← level.param .varPositional typeHints
    return { state with params := param :: state.params, keywordOnly := true }
  | .asteriskAsterisk, _ =>
    let _ ← take
    let param ← level.param .varKeyword typeHints
    return { state with params := param :: state.params, seenVarKeyword := true }
  | _, true =>
    let param ← level.param .keywordOnly typeHints
    return { state with params := param :: state.params }
  | _, false =>
    let param ← level.param .regular typeHints
    if param.defaultValue.isNone && state.seenDefault then
      throw (param.span.error .nonDefaultAfterDefault)
    return { state with
      params := param :: state.params
      seenDefault := state.seenDefault || param.defaultValue.isSome }

/-- Takes the closing token of a parameter list, or one entry with the comma or the closing token
behind it. -/
abbrev paramsStep (level : Level) (close : TokenKind) (typeHints : Bool) (state : ParamsState) :
    Parser (Step ParamsState (List Param)) := do
  if ← accept close then return .done state.params.reverse
  let state ← level.paramsEntry typeHints state
  if ← accept .comma then return .next state
  let _ ← expect close
  return .done state.params.reverse

/-- The parameters up to a closing token, which is taken. Those of a lambda have no type hints. -/
def params (level : Level) (close : TokenKind) (typeHints : Bool) : Parser (List Param) :=
  iterate (⟨[], false, false, false⟩ : ParamsState) (level.paramsStep close typeHints)

/-- A lambda expression. -/
def lambdaExpr (level : Level) : Parser Expr := spanned do
  let _ ← expect .keywordLambda
  let params ← level.params .colon false
  let body ← level.expr
  return fun span => ⟨span, .lambda params body⟩

end PythonOutline.Level
