import PythonOutline.Proofs.Outline.Dictionary
import PythonOutline.Proofs.Outline.Exports

/-! # What an export list decides

An export list decides which of a module's own declarations are exported, and which of those with
private names are shown nevertheless. It decides nothing else: neither what is declared or imported,
nor anything about the members of classes. So it makes no difference whether the module's own list
is found or given. -/

namespace PythonOutline

/-- An export list that may be absent holds a name. -/
def Exports (exports : Option (List String)) (name : String) : Prop :=
  ∃ names, exports = some names ∧ name ∈ names

private theorem isExported_iff {exports : Option (List String)} {name : String} :
    isExported exports name ↔ Exports exports name := by
  cases exports <;> simp [isExported, Exports]

private theorem not_exports_none (name : String) : ¬Exports none name :=
  nofun

namespace Declaration

/-- A declaration but for what an export list says about it. -/
def withoutExports (declaration : Declaration) : Declaration :=
  { declaration with visibility := .shown, exported := false }

/-- A declaration is among the members of another one, at any depth. -/
inductive IsMemberOf (member : Declaration) : Declaration → Prop where
  | direct {outer : Declaration} (hmember : member ∈ outer.members) : IsMemberOf member outer
  | within {outer middle : Declaration} (hmiddle : middle ∈ outer.members)
      (hmember : IsMemberOf member middle) : IsMemberOf member outer

/-- A declaration is exported if an export list holds its name, and hidden if its name is private
and not in the list. -/
structure Follows (exports : Option (List String)) (declaration : Declaration) : Prop where
  exported_iff : declaration.exported = true ↔ Exports exports declaration.name
  hidden_iff : declaration.visibility = .hidden ↔
    isPrivateName declaration.name ∧ ¬Exports exports declaration.name

variable {source : List Char} {exports exports' : Option (List String)} {stmt : Stmt}
  {declaration member : Declaration}

/-! ## Single declarations -/

/-- What every declaration of a body is: its flags follow the export list, and its members are those
of a body without one. -/
theorem ofStmt?_follows (hstmt : ofStmt? source exports stmt = some declaration) :
    declaration.Follows exports ∧ ∃ body, declaration.members = ofBody source none body := by
  have hvisibility : ∀ name, Visibility.of exports name = .hidden ↔
      isPrivateName name ∧ ¬Exports exports name := by
    intro name
    rw [Visibility.of, ← isExported_iff]
    cases isPrivateName name <;> cases isExported exports name <;> decide
  obtain ⟨span, form⟩ := stmt
  cases form with
  | functionDef =>
    cases Option.some.inj hstmt
    exact ⟨⟨isExported_iff, hvisibility _⟩, [], rfl⟩
  | classDef decorators name typeParams arguments body =>
    cases Option.some.inj hstmt
    exact ⟨⟨isExported_iff, hvisibility _⟩, body, rfl⟩
  | _ => cases hstmt

private theorem follows_of_mem {body : List Stmt}
    (hmem : declaration ∈ ofBody source exports body) :
    declaration.Follows exports ∧ ∃ body, declaration.members = ofBody source none body := by
  obtain ⟨stmt, -, hstmt⟩ := (isDictionary_ofStmt?_iff.mpr rfl).exists_described hmem
  exact ofStmt?_follows hstmt

/-- No export list reaches the members of a class. -/
theorem IsMemberOf.follows (hmember : member.IsMemberOf declaration)
    (hmembers : ∃ body, declaration.members = ofBody source none body) : member.Follows none := by
  induction hmember with
  | direct hmember =>
    obtain ⟨body, hbody⟩ := hmembers
    exact (follows_of_mem (hbody ▸ hmember)).1
  | within hmiddle _ ih =>
    obtain ⟨body, hbody⟩ := hmembers
    exact ih (follows_of_mem (hbody ▸ hmiddle)).2

/-! ## Two export lists -/

private theorem withoutExports_name (declaration : Declaration) :
    declaration.withoutExports.name = declaration.name :=
  rfl

private theorem map_withoutExports_insert (declaration : Declaration) (others : List Declaration) :
    (declaration.insert others).map withoutExports =
      declaration.withoutExports.insert (others.map withoutExports) := by
  induction others with
  | nil => rfl
  | cons other others ih =>
    rw [List.map_cons, insert, insert, withoutExports_name, withoutExports_name]
    split
    · rfl
    · rw [List.map_cons, ih]

private theorem ofStmt?_withoutExports (exports exports' : Option (List String)) (stmt : Stmt) :
    (ofStmt? source exports stmt).map withoutExports =
      (ofStmt? source exports' stmt).map withoutExports := by
  obtain ⟨span, form⟩ := stmt
  cases form <;> rfl

/-- Two export lists give the same declarations, but for what the lists say about them. -/
theorem ofStmtsInto_withoutExports {declarations declarations' : List Declaration}
    (stmts : List Stmt)
    (hsame : declarations.map withoutExports = declarations'.map withoutExports) :
    (ofStmtsInto source exports declarations stmts).map withoutExports =
      (ofStmtsInto source exports' declarations' stmts).map withoutExports := by
  induction stmts generalizing declarations declarations' with
  | nil => exact hsame
  | cons stmt stmts ih =>
    have hstmt := @ofStmt?_withoutExports source exports exports' stmt
    rw [ofStmtsInto, ofStmtsInto]
    cases hfirst : ofStmt? source exports stmt with
    | none =>
      rw [hfirst] at hstmt
      rw [Option.map_eq_none_iff.mp hstmt.symm]
      exact ih hsame
    | some declaration =>
      rw [hfirst] at hstmt
      obtain ⟨declaration', hsecond, hflags⟩ := Option.map_eq_some_iff.mp hstmt.symm
      rw [hsecond]
      refine ih ?_
      rw [map_withoutExports_insert, map_withoutExports_insert, hflags, hsame]

end Declaration

/-! ## Outlines -/

open Declaration

private theorem Outline.ofSource_of_parseModule {source : String} {module : Module}
    (hparse : parseModule source = .ok module) (exports : Option (List String)) :
    ofSource source exports = .ok (ofModule source.toList exports module) := by
  rw [ofSource, hparse]
  rfl

/-- **An export list decides nothing but the flags of a module's own declarations.** They follow the
list that is given, or the module's own if none is. Members are never exported, and hidden if their
names are private. Two lists give the same imports and, but for the flags, the same declarations,
and the module's own list gives what no list does. -/
theorem Outline.ofSource_exports {source : String} {module : Module}
    (hparse : parseModule source = .ok module) :
    (∀ exports, ∃ outline, ofSource source exports = .ok outline ∧
      outline.exports = exports.or module.exports ∧
      ∀ declaration ∈ outline.declarations, declaration.Follows outline.exports ∧
        ∀ member : Declaration, member.IsMemberOf declaration →
          member.exported = false ∧ (member.visibility = .hidden ↔ isPrivateName member.name)) ∧
    (∀ exports exports' outline outline', ofSource source exports = .ok outline →
      ofSource source exports' = .ok outline' →
        outline.imports = outline'.imports ∧
        outline.declarations.map withoutExports = outline'.declarations.map withoutExports) ∧
    ofSource source module.exports = ofSource source none := by
  have hsource := ofSource_of_parseModule hparse
  refine ⟨fun exports => ⟨_, hsource exports, ?_, fun declaration hdeclaration => ?_⟩, ?_, ?_⟩
  · cases exports <;> rfl
  · obtain ⟨hfollows, hmembers⟩ := follows_of_mem hdeclaration
    refine ⟨hfollows, fun member hmember => ?_⟩
    have hnone := hmember.follows hmembers
    constructor
    · exact Bool.eq_false_iff.mpr fun hexported =>
        not_exports_none _ (hnone.exported_iff.mp hexported)
    · exact hnone.hidden_iff.trans (and_iff_left (not_exports_none _))
  · intro exports exports' outline outline' houtline houtline'
    cases (hsource exports).symm.trans houtline
    cases (hsource exports').symm.trans houtline'
    exact ⟨rfl, ofStmtsInto_withoutExports module.body rfl⟩
  · rw [hsource, hsource, ofModule, ofModule]
    cases module.exports <;> rfl

/-- The flags of the declarations of an outline. -/
def Outline.flags (outline : Outline) : List (Bool × Visibility) :=
  outline.declarations.map fun declaration => (declaration.exported, declaration.visibility)

/-- An empty list in the place of the module's own takes from a private class that it is exported,
and hides it. -/
theorem Outline.ofSource_exports_emptied :
    ∃ outline outline',
      ofSource "__all__ = ['_A']\nclass _A:\n  def _f(self): pass\n" none = .ok outline ∧
      ofSource "__all__ = ['_A']\nclass _A:\n  def _f(self): pass\n" (some []) = .ok outline' ∧
      outline.flags = [(true, .shown)] ∧ outline'.flags = [(false, .hidden)] ∧
      outline.declarations.map withoutExports = outline'.declarations.map withoutExports := by
  have hflags : (parseModule "__all__ = ['_A']\nclass _A:\n  def _f(self): pass\n").toOption.any
      fun module =>
        (ofModule "__all__ = ['_A']\nclass _A:\n  def _f(self): pass\n".toList none module).flags ==
            [(true, .shown)] &&
          (ofModule "__all__ = ['_A']\nclass _A:\n  def _f(self): pass\n".toList (some [])
            module).flags == [(false, .hidden)] := by
    decide +kernel
  obtain ⟨module, hparse, hflags⟩ := exists_module_of_any hflags
  obtain ⟨hown, hempty⟩ := (Bool.and_eq_true ..).mp hflags
  obtain ⟨hlists, hsame, -⟩ := ofSource_exports hparse
  obtain ⟨outline, houtline, -⟩ := hlists none
  obtain ⟨outline', houtline', -⟩ := hlists (some [])
  have hsource := ofSource_of_parseModule hparse
  refine ⟨outline, outline', houtline, houtline', ?_, ?_, (hsame _ _ _ _ houtline houtline').2⟩
  · cases (hsource none).symm.trans houtline
    exact beq_iff_eq.mp hown
  · cases (hsource (some [])).symm.trans houtline'
    exact beq_iff_eq.mp hempty

end PythonOutline
