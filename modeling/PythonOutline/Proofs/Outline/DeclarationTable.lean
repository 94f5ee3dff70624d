import Mathlib.Data.List.Basic
import PythonOutline.Outline.Declaration

/-! # Declarations in a vector with an index

The declarations of a body are collected in a vector, with a map that tells the place of each name in
it. A name that the map knows has its declaration replaced at that place, and any other name comes
last. As the map leads to the declaration with a name and to no other, this makes the same
declarations as a search by name. -/

namespace PythonOutline

/-- Declarations in the order in which their names were first put in, with the place of each name.
The index leads to the declaration that has a name, and there is only one. -/
structure DeclarationTable where
  declarations : Array Declaration
  index : Std.HashMap String Nat
  indexed : ∀ name place,
    index[name]? = some place ↔ declarations[place]?.map Declaration.name = some name

namespace DeclarationTable

/-- The table without declarations. -/
def empty : DeclarationTable where
  declarations := #[]
  index := ∅
  indexed := by simp

/-- Puts a declaration at the place of its name, or behind all others if the name is new. -/
def put (table : DeclarationTable) (declaration : Declaration) : DeclarationTable :=
  match hplace : table.index[declaration.name]? with
  | some place =>
    have hat := (table.indexed declaration.name place).mp hplace
    { declarations := table.declarations.set place declaration (by grind)
      index := table.index
      indexed := by
        intro name other
        rw [table.indexed, Array.getElem?_set]
        split
        · grind
        · rfl }
  | none =>
    { declarations := table.declarations.push declaration
      index := table.index.insert declaration.name table.declarations.size
      indexed := by
        intro name place
        have hat := table.indexed name place
        have hnew := table.indexed declaration.name place
        rw [Std.HashMap.getElem?_insert, Array.getElem?_push]
        grind }

mutual

/-- The declaration that a statement makes, with the members of a class collected in a table of their
own. -/
def collectStmt? (source : List Char) (exports : Option (List String)) : Stmt → Option Declaration
  | ⟨span, .functionDef decorators isAsync name _ _ _ _⟩ =>
    some (.ofFunction source exports span decorators isAsync name)
  | ⟨span, .classDef decorators name _ arguments body⟩ =>
    some (.ofClass source exports span decorators name arguments
      (collectInto source none empty body).declarations.toList)
  | _ => none

/-- Puts the declarations that statements make into a table. -/
def collectInto (source : List Char) (exports : Option (List String)) (table : DeclarationTable) :
    List Stmt → DeclarationTable
  | [] => table
  | stmt :: stmts =>
    match collectStmt? source exports stmt with
    | none => collectInto source exports table stmts
    | some declaration => collectInto source exports (table.put declaration) stmts

end

/-- The declarations directly in a body, in a table. -/
def ofBody (source : List Char) (exports : Option (List String)) (body : List Stmt) :
    DeclarationTable :=
  collectInto source exports empty body

end DeclarationTable

/-! ## Search by name -/

namespace Declaration

variable {declaration : Declaration} {declarations : List Declaration}

/-- A search by name stops at the first place that has the name. -/
theorem insert_eq_set {place : Nat} (hplace : declarations[place]?.map name = some declaration.name)
    (hfirst : ∀ earlier < place, declarations[earlier]?.map name ≠ some declaration.name) :
    declaration.insert declarations = declarations.set place declaration := by
  induction declarations generalizing place with
  | nil => simp at hplace
  | cons other others ih =>
    rw [insert]
    cases place with
    | zero =>
      rw [if_pos (by simpa using hplace)]
      rfl
    | succ place =>
      rw [if_neg (by simpa using hfirst 0 (Nat.succ_pos place)), List.set_cons_succ]
      refine congrArg _ (ih (by simpa using hplace) fun earlier hearlier => ?_)
      simpa using hfirst (earlier + 1) (Nat.succ_lt_succ hearlier)

/-- A search for a name that no place has comes to the end. -/
theorem insert_eq_append
    (hnew : ∀ place : Nat, declarations[place]?.map name ≠ some declaration.name) :
    declaration.insert declarations = declarations ++ [declaration] := by
  induction declarations with
  | nil => rfl
  | cons other others ih =>
    rw [insert, if_neg (by simpa using hnew 0), ih fun place => by simpa using hnew (place + 1)]
    rfl

end Declaration

/-! ## Both agree -/

namespace DeclarationTable

/-- A table with an index is filled as a list without one is. -/
theorem put_toList (table : DeclarationTable) (declaration : Declaration) :
    (table.put declaration).declarations.toList =
      declaration.insert table.declarations.toList := by
  have hindexed := table.indexed declaration.name
  unfold put
  split
  · rename_i place hplace
    rw [Array.toList_set]
    refine (Declaration.insert_eq_set ?_ fun earlier hearlier hsame => ?_).symm
    · simpa using (hindexed place).mp hplace
    · have hother := (hindexed earlier).mpr (by simpa using hsame)
      exact Nat.ne_of_lt hearlier (Option.some.inj (hother.symm.trans hplace))
  · rename_i hnew
    rw [Array.toList_push]
    refine (Declaration.insert_eq_append fun place hsame => ?_).symm
    have hknown := (hindexed place).mpr (by simpa using hsame)
    exact Option.some_ne_none place (hknown.symm.trans hnew)

mutual

/-- The members of a class are collected in a table of their own, which agrees as well. -/
theorem collectStmt?_eq (source : List Char) (exports : Option (List String)) :
    (stmt : Stmt) → collectStmt? source exports stmt = Declaration.ofStmt? source exports stmt
  | ⟨span, form⟩ => by
    cases form with
    | classDef decorators name typeParams arguments body =>
      rw [collectStmt?, Declaration.ofStmt?, collectInto_toList source none empty body]
      rfl
    | _ => rfl

/-- Statements put the same declarations behind the same ones. -/
theorem collectInto_toList (source : List Char) (exports : Option (List String))
    (table : DeclarationTable) : (stmts : List Stmt) →
    (collectInto source exports table stmts).declarations.toList =
      Declaration.ofStmtsInto source exports table.declarations.toList stmts
  | [] => rfl
  | stmt :: stmts => by
    rw [collectInto, Declaration.ofStmtsInto, collectStmt?_eq source exports stmt]
    cases Declaration.ofStmt? source exports stmt with
    | none => exact collectInto_toList source exports table stmts
    | some declaration =>
      have hrest := collectInto_toList source exports (table.put declaration) stmts
      rwa [put_toList] at hrest

end

/-- **A vector with an index makes the declarations of a body.** However often a name is defined
again, the index leads to its declaration, in the body itself and in those of its classes. -/
theorem ofBody_toList (source : List Char) (exports : Option (List String)) (body : List Stmt) :
    (ofBody source exports body).declarations.toList = Declaration.ofBody source exports body :=
  collectInto_toList source exports empty body

end DeclarationTable

end PythonOutline
