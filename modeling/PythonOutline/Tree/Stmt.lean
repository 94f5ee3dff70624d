import PythonOutline.Tree.Expr

/-! # Statement trees

A statement is a form together with the span of the source it was read from. The span of a
definition starts at its first decorator. An `elif` is one conditional statement in the alternate of
the one before it.
-/

namespace PythonOutline

/-- What a type parameter stands for. -/
inductive TypeParamKind where
  | typeVar
  /-- `*name` -/
  | typeVarTuple
  /-- `**name` -/
  | paramSpec
  deriving DecidableEq, Repr

/-- An entry of a type parameter list. Only a type variable has a bound. -/
structure TypeParam where
  span : Span
  name : String
  kind : TypeParamKind
  bound : Option Expr
  defaultValue : Option Expr

/-- A decorator of a definition. -/
structure Decorator where
  span : Span
  expression : Expr

/-- An imported name, dotted if a module is imported as such, with the name it is bound to. -/
structure ImportAlias where
  span : Span
  name : String
  boundAs : Option String
  deriving DecidableEq, Repr

/-- The names that are imported from a module. -/
inductive ImportedNames where
  /-- `*` -/
  | all
  | specific (names : List ImportAlias)
  deriving DecidableEq, Repr

/-- A context of a `with` statement and what it is bound to. -/
structure WithItem where
  span : Span
  context : Expr
  target : Option Expr

mutual

/-- A statement with its span. -/
structure Stmt where
  span : Span
  form : StmtForm

/-- The form of a statement. -/
inductive StmtForm where
  /-- `target: hint = value` -/
  | annotate (target hint : Expr) (value : Option Expr)
  | assert (test : Expr) (message : Option Expr)
  /-- An assignment of one value to one or more targets. -/
  | assign (targets : List Expr) (value : Expr)
  /-- `target op= value` -/
  | augment (operator : Operator) (target value : Expr)
  | break
  | classDef (decorators : List Decorator) (name : Name) (typeParams : List TypeParam)
      (arguments : List Argument) (body : List Stmt)
  | continue
  | delete (targets : List Expr)
  | expression (value : Expr)
  | forLoop (isAsync : Bool) (target iterable : Expr) (body orElse : List Stmt)
  | functionDef (decorators : List Decorator) (isAsync : Bool) (name : Name)
      (typeParams : List TypeParam) (params : List Param) (returns : Option Expr)
      (body : List Stmt)
  | global (names : List String)
  | conditional (test : Expr) (consequent alternate : List Stmt)
  | importModules (names : List ImportAlias)
  /-- An import from a module, relative if `level` dots lead it. -/
  | importFrom (level : Nat) (module : Option String) (names : ImportedNames)
  | matchCases (subject : Expr) (cases : List MatchCase)
  | nonlocal (names : List String)
  | pass
  | raise (exception cause : Option Expr)
  | return (value : Option Expr)
  /-- A `try` statement; `star` holds if a handler is an `except*`. -/
  | tryBlock (body : List Stmt) (handlers : List Handler) (orElse finalBody : List Stmt)
      (star : Bool)
  | typeAlias (name : String) (typeParams : List TypeParam) (value : Expr)
  | whileLoop (test : Expr) (body orElse : List Stmt)
  | withBlock (isAsync : Bool) (items : List WithItem) (body : List Stmt)

/-- An `except` clause. -/
structure Handler where
  span : Span
  exception : Option Expr
  name : Option String
  body : List Stmt

/-- A case of a `match` statement. The pattern is kept as its source text. -/
structure MatchCase where
  span : Span
  pattern : String
  guard : Option Expr
  body : List Stmt

end

/-- A module: the span of its whole source and its statements. -/
structure Module where
  span : Span
  body : List Stmt

end PythonOutline
