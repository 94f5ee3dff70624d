import PythonOutline.Proofs.Grammar.Method
import PythonOutline.Proofs.Tree.CompositionalDisplay

/-! # How deep the expressions of a module are nested

A statement reads its expressions at the outermost level, so any way down one of them has fewer
edges to nested parts than there are levels. A parser that counts open levels starts every statement
with its counter at zero, as no operation on it leaves a level open. -/

namespace PythonOutline

open PythonOutline.Expr

namespace Parser

variable {tokens : Tokens} {before : Place} {stmt : Stmt}

end Parser

/-! ## The nesting counter -/

/-- A plain script does what a parser does with the tokens of a source where a statement
may start. -/
structure Script.Performs {α : Type} (script : Script α) (source : String) (parser : Parser α) :
    Prop where
  plain : script.Plain
  eval_eq : script.eval Parser.stmtLevels (.ofSource source) = parser (.ofSource source)

namespace Machine

variable {source : String} {machine : Machine} {stmt : Stmt}

/-- The machines between two operations at the level of statements: a new one, and what an operation
leaves behind, whether it yields a value or fails. -/
inductive Between (source : String) : Machine → Prop where
  | start : Between source (ofSource source)
  | operation {machine : Machine} {α : Type} (script : Script α) (hbetween : Between source machine) :
      Between source (script.run machine).2

/-- A statement is what a machine reads next, by the method for simple statements, by that for
lines, or by that for the clause of an `elif`. -/
inductive Starts (machine : Machine) (stmt : Stmt) : Prop where
  | simple {script : Script Stmt} (hscript : script.Performs machine.source Parser.simpleStmt)
      (hrun : (script.run machine).1 = .ok stmt)
  | compound {depth : Nat} {script : Script (List Stmt)}
      (hscript : script.Performs machine.source (Parser.stmtLineOver (Parser.blockWithin depth)))
      (hrun : (script.run machine).1 = .ok [stmt])
  | elif {depth : Nat} {script : Script Parser.IfClause} {clause : Parser.IfClause}
      {alternate : List Stmt}
      (hscript : script.Performs machine.source (Parser.ifClause (Parser.blockWithin depth)))
      (hrun : (script.run machine).1 = .ok clause)
      (hform : stmt.form = .conditional clause.test clause.body alternate)

/-- No operation leaves a level open. -/
theorem Between.eq_ofPlace (hbetween : Between source machine) :
    ∃ place : Place, place.next ≤ place.seen ∧ machine = ofPlace source place 0 := by
  induction hbetween with
  | start => exact ⟨.start, Nat.le_refl _, rfl⟩
  | operation script _ ih =>
    obtain ⟨place, hplace, rfl⟩ := ih
    rw [run_ofPlace script hplace, answer_snd]
    exact ⟨_, (script.grows_eval _ _ hplace).next_le, rfl⟩

end Machine

end PythonOutline
