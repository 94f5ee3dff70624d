import Mathlib.Data.List.Basic
import PythonOutline.Proofs.Outline.Declarations
import PythonOutline.Proofs.Outline.DeclarationTable

/-! # Declarations by name

The declarations of a body are the dictionary that its definitions make, put in one after the other
by their names: each name stands where it was first defined, with the content of its last
definition. The members of a class are the dictionary of its own body, at any depth. -/

namespace PythonOutline

/-- The name that a statement defines, if it is the definition of a function or a class. -/
def Stmt.definedName? (stmt : Stmt) : Option String :=
  stmt.definition?.map fun definition => definition.2.text

/-- The names that the statements of a body define themselves, one for each definition. -/
def definedNames (body : List Stmt) : List String :=
  body.filterMap Stmt.definedName?

/-- The last definition of a name among the statements of a body. -/
def lastDefinition? (body : List Stmt) (name : String) : Option Stmt :=
  (body.filter fun stmt => stmt.definedName? = some name).getLast?

/-- The declarations have the names that a body defines, each of them once, in the order in which
they are first defined. -/
structure ListsNames (body : List Stmt) (declarations : List Declaration) : Prop where
  distinct : (declarations.map Declaration.name).Nodup
  complete : ∀ name, name ∈ declarations.map Declaration.name ↔ name ∈ definedNames body
  ordered : (declarations.map Declaration.name).Pairwise fun first later =>
    (definedNames body).idxOf first < (definedNames body).idxOf later

/-- The dictionary of a body's definitions, in the order in which the names were first put in. Each
entry describes the last definition of its name. -/
structure IsDictionary (describes : Stmt → Declaration → Prop) (body : List Stmt)
    (declarations : List Declaration) : Prop extends ListsNames body declarations where
  described : ∀ declaration ∈ declarations, ∀ stmt,
    lastDefinition? body declaration.name = some stmt → describes stmt declaration

/-- What a declaration says about the definition it was made from. A function has no members. Those
of a class are the dictionary of its body, for which there is no export list. -/
inductive Describes (source : List Char) : Option (List String) → Stmt → Declaration → Prop where
  | function {exports : Option (List String)} {span : Span} {decorators : List Decorator}
      {isAsync : Bool} {name : Name} {typeParams : List TypeParam} {params : List Param}
      {returns : Option Expr} {body : List Stmt} :
      Describes source exports
        ⟨span, .functionDef decorators isAsync name typeParams params returns body⟩
        { name := name.text
          kind := if isAsync then .asyncFunction else .function
          visibility := .of exports name.text
          exported := isExported exports name.text
          decorators := decorators.map (Declaration.decoratorName source)
          bases := []
          span := span
          line := name.span.line source
          members := [] }
  | classType {exports : Option (List String)} {span : Span} {decorators : List Decorator}
      {name : Name} {typeParams : List TypeParam} {arguments : List Argument} {body : List Stmt}
      {members : List Declaration} (hnames : ListsNames body members)
      (hmembers : ∀ member ∈ members, ∀ stmt,
        lastDefinition? body member.name = some stmt → Describes source none stmt member) :
      Describes source exports ⟨span, .classDef decorators name typeParams arguments body⟩
        { name := name.text
          kind := .classType
          visibility := .of exports name.text
          exported := isExported exports name.text
          decorators := decorators.map (Declaration.decoratorName source)
          bases := Declaration.baseTexts source arguments
          span := span
          line := name.span.line source
          members := members }

/-! ## Names and last definitions -/

private theorem definedNames_append (body others : List Stmt) :
    definedNames (body ++ others) = definedNames body ++ definedNames others :=
  List.filterMap_append

private theorem lastDefinition?_append (body : List Stmt) (stmt : Stmt) (name : String) :
    lastDefinition? (body ++ [stmt]) name =
      if stmt.definedName? = some name then some stmt else lastDefinition? body name := by
  unfold lastDefinition?
  split <;> simp [*]

private theorem lastDefinition?_mem {body : List Stmt} {name : String} {stmt : Stmt}
    (hlast : lastDefinition? body name = some stmt) :
    stmt ∈ body ∧ stmt.definedName? = some name := by
  simpa using List.mem_of_getLast? hlast

/-- Every name that is defined is defined a last time. -/
theorem exists_lastDefinition {body : List Stmt} {name : String} (hname : name ∈ definedNames body) :
    ∃ stmt, lastDefinition? body name = some stmt := by
  obtain ⟨stmt, hstmt, hdefines⟩ := List.mem_filterMap.mp hname
  have hne : (body.filter fun stmt => stmt.definedName? = some name) ≠ [] :=
    List.ne_nil_of_mem (List.mem_filter.mpr ⟨hstmt, by simpa using hdefines⟩)
  exact ⟨_, List.getLast?_eq_some_getLast hne⟩

/-! ## Names that are put in -/

variable {body : List Stmt} {stmt : Stmt} {declaration : Declaration}
  {declarations declarations' : List Declaration}

namespace ListsNames

/-- No statements define no names. -/
theorem nil : ListsNames [] [] where
  distinct := List.nodup_nil
  complete _ := Iff.rfl
  ordered := .nil

/-- Behind a statement that is no definition the names are the same. -/
theorem skip (hlists : ListsNames body declarations) (hname : stmt.definedName? = none) :
    ListsNames (body ++ [stmt]) declarations := by
  have hnames : definedNames (body ++ [stmt]) = definedNames body := by
    rw [definedNames_append, definedNames, definedNames, List.filterMap_cons_none hname,
      List.filterMap_nil, List.append_nil]
  obtain ⟨hdistinct, hcomplete, hordered⟩ := hlists
  refine ⟨hdistinct, ?_, ?_⟩ <;> rwa [hnames]

/-- A new name is the last one. A known name stays where it is. -/
theorem insert (hlists : ListsNames body declarations)
    (hname : stmt.definedName? = some declaration.name) :
    ListsNames (body ++ [stmt]) (declaration.insert declarations) := by
  have hnames : definedNames (body ++ [stmt]) = definedNames body ++ [declaration.name] := by
    rw [definedNames_append, definedNames, definedNames, List.filterMap_cons_some hname,
      List.filterMap_nil]
  have hinsert := declaration.insert_names declarations
  have hordered : (declarations.map Declaration.name).Pairwise fun first later =>
      (definedNames (body ++ [stmt])).idxOf first < (definedNames (body ++ [stmt])).idxOf later := by
    refine hlists.ordered.imp_of_mem fun hfirst hlater hlt => ?_
    rwa [hnames, List.idxOf_append_of_mem ((hlists.complete _).mp hfirst),
      List.idxOf_append_of_mem ((hlists.complete _).mp hlater)]
  by_cases hknown : declaration.name ∈ declarations.map Declaration.name
  · rw [if_pos hknown] at hinsert
    refine ⟨?_, fun name => ?_, ?_⟩
    · rw [hinsert]
      exact hlists.distinct
    · rw [hinsert, hlists.complete, hnames, List.mem_append, List.mem_singleton]
      refine ⟨.inl, fun hdefined => hdefined.elim id ?_⟩
      rintro rfl
      exact (hlists.complete _).mp hknown
    · rwa [hinsert]
  · rw [if_neg hknown] at hinsert
    have hfresh : declaration.name ∉ definedNames body := by rwa [← hlists.complete]
    refine ⟨?_, fun name => ?_, ?_⟩
    · rw [hinsert]
      exact hlists.distinct.append (List.nodup_singleton _) (by simpa using hknown)
    · rw [hinsert, hnames, List.mem_append, List.mem_append, hlists.complete]
    · rw [hinsert]
      refine List.pairwise_append.mpr ⟨hordered, List.pairwise_singleton .., ?_⟩
      intro first hfirst last hlast
      obtain rfl := List.mem_singleton.mp hlast
      have hdefined := (hlists.complete _).mp hfirst
      have hlt := List.idxOf_lt_length_iff.mpr hdefined
      rw [hnames, List.idxOf_append_of_mem hdefined, List.idxOf_append_of_notMem hfresh]
      omega

/-- The names that a body defines stand in one order only. -/
theorem unique (hlists : ListsNames body declarations) (hlists' : ListsNames body declarations') :
    declarations.map Declaration.name = declarations'.map Declaration.name := by
  have hperm : (declarations.map Declaration.name).Perm (declarations'.map Declaration.name) :=
    (List.perm_ext_iff_of_nodup hlists.distinct hlists'.distinct).mpr fun name =>
      (hlists.complete name).trans (hlists'.complete name).symm
  exact hperm.eq_of_pairwise (fun _ _ _ _ hlt hgt => absurd hlt (Nat.lt_asymm hgt))
    hlists.ordered hlists'.ordered

/-- Every entry is for a name that is defined a last time. -/
theorem exists_last (hlists : ListsNames body declarations) (hmem : declaration ∈ declarations) :
    ∃ stmt, lastDefinition? body declaration.name = some stmt :=
  exists_lastDefinition ((hlists.complete _).mp (List.mem_map_of_mem hmem))

end ListsNames

/-! ## Entries that are put in -/

namespace IsDictionary

variable {describes describes' : Stmt → Declaration → Prop}

/-- The dictionary of no statements is empty. -/
theorem nil : IsDictionary describes [] [] where
  toListsNames := .nil
  described _ hmem := absurd hmem List.not_mem_nil

/-- What entries say about statements matters for those of the body only. -/
theorem congr (hdictionary : IsDictionary describes body declarations)
    (hagree : ∀ stmt ∈ body, ∀ declaration, describes stmt declaration →
      describes' stmt declaration) : IsDictionary describes' body declarations where
  toListsNames := hdictionary.toListsNames
  described declaration hmem stmt hlast :=
    hagree stmt (lastDefinition?_mem hlast).1 declaration
      (hdictionary.described declaration hmem stmt hlast)

/-- Every entry describes a statement of the body. -/
theorem exists_described (hdictionary : IsDictionary describes body declarations)
    (hmem : declaration ∈ declarations) : ∃ stmt ∈ body, describes stmt declaration := by
  obtain ⟨stmt, hlast⟩ := hdictionary.exists_last hmem
  exact ⟨stmt, (lastDefinition?_mem hlast).1, hdictionary.described _ hmem stmt hlast⟩

/-- A statement that is no definition changes nothing. -/
theorem skip (hdictionary : IsDictionary describes body declarations)
    (hname : stmt.definedName? = none) :
    IsDictionary describes (body ++ [stmt]) declarations where
  toListsNames := hdictionary.toListsNames.skip hname
  described declaration hmem last hlast := by
    rw [lastDefinition?_append, if_neg (by simp [hname])] at hlast
    exact hdictionary.described declaration hmem last hlast

/-- A declaration that is put among others leaves those with other names. -/
theorem mem_insert {other : Declaration} (hdistinct : (declarations.map Declaration.name).Nodup)
    (hmem : other ∈ declaration.insert declarations) :
    other = declaration ∨ other ∈ declarations ∧ other.name ≠ declaration.name := by
  induction declarations with
  | nil => exact .inl (by simpa [Declaration.insert] using hmem)
  | cons first others ih =>
    rw [List.map_cons, List.nodup_cons] at hdistinct
    rw [Declaration.insert] at hmem
    split at hmem
    · rename_i hsame
      refine (List.mem_cons.mp hmem).imp_right fun hmem => ⟨List.mem_cons_of_mem _ hmem, ?_⟩
      rintro hname
      exact hdistinct.1 (hsame.trans hname.symm ▸ List.mem_map_of_mem hmem)
    · rename_i hdifferent
      rcases List.mem_cons.mp hmem with rfl | hmem
      · exact .inr ⟨List.mem_cons_self .., hdifferent⟩
      · exact (ih hdistinct.2 hmem).imp_right (And.imp_left (List.mem_cons_of_mem _))

/-- A definition is put in under its name. -/
theorem insert (hdictionary : IsDictionary describes body declarations)
    (hname : stmt.definedName? = some declaration.name) (hdescribes : describes stmt declaration) :
    IsDictionary describes (body ++ [stmt]) (declaration.insert declarations) where
  toListsNames := hdictionary.toListsNames.insert hname
  described entry hmem last hlast := by
    rw [lastDefinition?_append] at hlast
    rcases mem_insert hdictionary.distinct hmem with rfl | ⟨hearlier, hother⟩
    · rw [if_pos hname] at hlast
      cases hlast
      exact hdescribes
    · rw [if_neg (by simpa [hname] using hother.symm)] at hlast
      exact hdictionary.described entry hearlier last hlast

/-- The entries of a dictionary are told by what they describe. -/
theorem unique (hdictionary : IsDictionary describes body declarations)
    (hdictionary' : IsDictionary describes body declarations')
    (hdescribes : ∀ stmt first second, describes stmt first → describes stmt second →
      first = second) : declarations = declarations' := by
  have hnames := hdictionary.toListsNames.unique hdictionary'.toListsNames
  have hlength : declarations.length = declarations'.length := by
    simpa using congrArg List.length hnames
  refine List.ext_getElem hlength fun index hindex hindex' => ?_
  have hname : declarations[index].name = declarations'[index].name := by
    have hnameAt := List.getElem_of_eq hnames (by simpa using hindex)
    simpa using hnameAt
  obtain ⟨stmt, hlast⟩ := hdictionary.exists_last (List.getElem_mem hindex)
  exact hdescribes stmt _ _ (hdictionary.described _ (List.getElem_mem hindex) stmt hlast)
    (hdictionary'.described _ (List.getElem_mem hindex') stmt (hname ▸ hlast))

end IsDictionary

namespace Declaration

variable {source : List Char} {exports : Option (List String)}

/-- The declarations of statements that are read one after the other are the dictionary of those
read. -/
theorem ofStmtsInto_isDictionary {read : List Stmt} {declarations : List Declaration}
    (stmts : List Stmt)
    (hdictionary : IsDictionary (fun stmt declaration => ofStmt? source exports stmt =
      some declaration) read declarations) :
    IsDictionary (fun stmt declaration => ofStmt? source exports stmt = some declaration)
      (read ++ stmts) (ofStmtsInto source exports declarations stmts) := by
  induction stmts generalizing read declarations with
  | nil => rwa [List.append_nil, ofStmtsInto]
  | cons stmt stmts ih =>
    have hname : (ofStmt? source exports stmt).map name = stmt.definedName? := ofStmt?_name stmt
    rw [List.append_cons, ofStmtsInto]
    cases hstmt : ofStmt? source exports stmt with
    | none =>
      rw [hstmt] at hname
      exact ih (hdictionary.skip hname.symm)
    | some declaration =>
      rw [hstmt] at hname
      exact ih (hdictionary.insert hname.symm hstmt)

/-- The declarations of a body are the one dictionary of what its statements declare. -/
theorem isDictionary_ofStmt?_iff {body : List Stmt} {declarations : List Declaration} :
    IsDictionary (fun stmt declaration => ofStmt? source exports stmt = some declaration) body
      declarations ↔ declarations = ofBody source exports body := by
  have hbody := @ofStmtsInto_isDictionary source exports [] [] body .nil
  constructor
  · intro hdictionary
    exact hdictionary.unique hbody fun stmt first second hfirst hsecond =>
      Option.some.inj (hfirst.symm.trans hsecond)
  · rintro rfl
    exact hbody

mutual

/-- What a statement declares describes it, and nothing else does. -/
theorem describes_iff (exports : Option (List String)) (declaration : Declaration) :
    (stmt : Stmt) → (Describes source exports stmt declaration ↔
      ofStmt? source exports stmt = some declaration)
  | ⟨span, form⟩ => by
    cases form with
    | functionDef decorators isAsync name typeParams params returns body =>
      rw [ofStmt?, Option.some.injEq]
      constructor
      · rintro ⟨⟩
        rfl
      · rintro rfl
        exact .function
    | classDef decorators name typeParams arguments body =>
      have hbody : ∀ members, IsDictionary (Describes source none) body members ↔
          members = ofBody source none body := by
        intro members
        rw [← isDictionary_ofStmt?_iff]
        exact ⟨fun h => h.congr fun stmt hstmt declaration =>
            (stmts_describe_iff body stmt hstmt declaration).mp,
          fun h => h.congr fun stmt hstmt declaration =>
            (stmts_describe_iff body stmt hstmt declaration).mpr⟩
      rw [ofStmt?, Option.some.injEq]
      constructor
      · intro hdescribes
        cases hdescribes with
        | classType hnames hmembers =>
          rw [(hbody _).mp ⟨hnames, hmembers⟩]
          rfl
      · rintro rfl
        have hdictionary := (hbody _).mpr rfl
        exact .classType hdictionary.toListsNames hdictionary.described
    | _ => exact iff_of_false nofun (by simp [ofStmt?])

private theorem stmts_describe_iff : (stmts : List Stmt) → ∀ stmt ∈ stmts, ∀ declaration,
    Describes source none stmt declaration ↔ ofStmt? source none stmt = some declaration
  | [] => fun _ hstmt => absurd hstmt List.not_mem_nil
  | first :: others => fun stmt hstmt declaration => by
    rcases List.mem_cons.mp hstmt with heq | hstmt
    · rw [heq]
      exact describes_iff none declaration first
    · exact stmts_describe_iff others stmt hstmt declaration

end

/-- The declarations of a body are the one dictionary of its definitions, with the members of every
class among them made in the same way: no name twice, every name that the body itself defines, in
the order of first definitions, each as its last definition has it. A vector whose index tells the
place of each name is filled with the same declarations. -/
theorem isDictionary_iff (source : List Char) (exports : Option (List String)) (body : List Stmt)
    (declarations : List Declaration) :
    (IsDictionary (Describes source exports) body declarations ↔
      declarations = ofBody source exports body) ∧
    (DeclarationTable.ofBody source exports body).declarations.toList =
      ofBody source exports body := by
  refine ⟨?_, DeclarationTable.ofBody_toList source exports body⟩
  rw [← isDictionary_ofStmt?_iff]
  exact ⟨fun h => h.congr fun stmt _ declaration => (describes_iff exports declaration stmt).mp,
    fun h => h.congr fun stmt _ declaration => (describes_iff exports declaration stmt).mpr⟩

end Declaration

end PythonOutline
