import PythonOutline.Proofs.Tree.CompositionalDisplay

/-! # Well-formed modules

What a statement asks of its parts is checked where the statement is read: targets as soon as it is
known that they are some, and the number of parts by the way they are read. With the expressions of
a level this makes all of a module well-formed. -/

namespace PythonOutline

open PythonOutline.Expr

/-- What the parts of a statement are to each other. -/
def StmtForm.WellFormed : StmtForm → Prop
  | .annotate target _ _ => target.IsReference
  | .augment _ target _ => target.IsReference
  | .assign targets _ => targets ≠ [] ∧ ∀ target ∈ targets, target.IsAssignable
  | .delete targets => targets ≠ [] ∧ ∀ target ∈ targets, target.IsAssignable
  | .classDef _ _ _ arguments _ => Argument.Placed arguments
  | .forLoop _ target _ _ _ => target.IsAssignable
  | .importFrom level module names => (0 < level ∨ module.isSome) ∧ names ≠ .specific []
  | .importModules names => names ≠ []
  | .matchCases _ cases => cases ≠ []
  | .tryBlock _ handlers orElse _ _ => handlers = [] → orElse = []
  | .withBlock _ items _ =>
    items ≠ [] ∧ ∀ item ∈ items, ∀ target ∈ item.target, target.IsAssignable
  | _ => True

/-- An expression is well-formed at any number of levels if its parts are, in the roles that they have
in it. -/
theorem Expr.compositional_proper : Compositional fun _ role expr => expr.Proper role where
  form hform hplain hbeside hnested :=
    proper_of_plain hform hplain (allHave_append.mpr ⟨hbeside, hnested⟩)
  subscript hvalue hindex :=
    proper_of_parts trivial nofun (List.forall_mem_cons.mpr ⟨hvalue, List.forall_mem_singleton.mpr hindex⟩)
  slice hrole hparts :=
    proper_of_parts trivial (fun _ => hrole)
      (List.forall_mem_map.mpr (allHave_append.mpr ⟨hparts, allHave_nil⟩))
  index helements := proper_of_parts trivial nofun (List.forall_mem_map.mpr helements)
  withRole hexpr := hexpr.withRole
  succ hexpr := hexpr

namespace Parser

variable {tokens : Tokens} {before after : Place} {stmt : Stmt} {block : Parser (List Stmt)}

private theorem commaSeparated_ne_nil {α : Type} {item : Parser α} {values : List α}
    (hreads : (commaSeparated item).Reads tokens before values after) : values ≠ [] := by
  obtain ⟨first, others, _, rfl, -⟩ := reads_commaSeparated.mp hreads
  exact List.cons_ne_nil _ _

/-! ## Simple statements -/

private theorem importedNames_ne {names : ImportedNames}
    (hreads : importedNames.Reads tokens before names after) : names ≠ .specific [] := by
  rw [reads_importedNames] at hreads
  split at hreads
  · rw [hreads.1]
    nofun
  split at hreads
  · obtain ⟨aliases, -, hne, rfl⟩ := hreads
    simpa using hne
  · obtain ⟨aliases, haliases, rfl⟩ := hreads
    simpa using commaSeparated_ne_nil haliases

/-- An import from a module without dots in front names the module. -/
theorem importFrom_wellFormed : importFrom.Ensures tokens fun stmt => stmt.form.WellFormed := by
  intro before stmt after hreads
  simp only [importFrom, ite_bind, reads_spanned, reads_bind, reads_expect, reads_nextIs,
    existsAndEq, true_and, and_true] at hreads
  obtain ⟨make, ⟨-, level, middle, -, module, last, -, hrest⟩, rfl⟩ := hreads
  split at hrest
  · simp at hrest
  · rename_i hsource
    obtain ⟨-, names, hnames, rfl⟩ : tokens.kindAt last = .keywordImport ∧
        ∃ names, importedNames.Reads tokens last.step names after ∧
          make = fun span => ⟨span, .importFrom level module names⟩ := by
      simpa using hrest
    refine ⟨?_, importedNames_ne hnames⟩
    cases module with
    | none => exact .inl (Nat.pos_of_ne_zero fun hzero => hsource ⟨rfl, hzero⟩)
    | some name => exact .inr rfl

/-- An assignment has a target. -/
theorem Assigns.ne_nil {value last : Expr} {targets : List Expr}
    (hassigns : Assigns tokens value before targets last after)
    (hequals : tokens.kindAt before = .equals) : targets ≠ [] := by
  cases hassigns with
  | last hother => exact absurd hequals hother
  | assign => exact List.cons_ne_nil _ _

private theorem expressionStmt_wellFormed :
    expressionStmt.Ensures tokens fun stmt => stmt.form.WellFormed := by
  intro before stmt after hreads
  obtain ⟨first, middle, form, -, rfl, hrest⟩ := reads_expressionStmt hreads
  split at hrest
  · obtain ⟨hsingle, _, _, _, -, -, rfl⟩ := hrest
    exact isSingleTarget_iff.mp hsingle
  · split at hrest
    · obtain ⟨hsingle, _, -, rfl⟩ := hrest
      exact isSingleTarget_iff.mp hsingle
    · split at hrest
      · rename_i hequals
        obtain ⟨targets, value, hassigns, htargets, rfl⟩ := hrest
        exact ⟨hassigns.ne_nil hequals, fun target htarget => isTarget_iff.mp (htargets target htarget)⟩
      · rw [hrest.1]
        trivial

private theorem deleteStmt_wellFormed :
    deleteStmt.Ensures tokens fun stmt => stmt.form.WellFormed := by
  intro before stmt after hreads
  obtain ⟨-, first, middle, others, hreadsFirst, hreadsOthers, rfl⟩ := reads_deleteStmt hreads
  have hfirst := Level.target_assignable hreadsFirst
  have hothers := Level.target_assignable.continues hreadsOthers
  exact ⟨List.cons_ne_nil _ _, List.forall_mem_cons.mpr ⟨hfirst, hothers⟩⟩

private theorem simpleStmt_wellFormed :
    simpleStmt.Ensures tokens fun stmt => stmt.form.WellFormed := by
  intro before stmt after hreads
  rw [reads_simpleStmt] at hreads
  split at hreads
  case h_1 =>
    obtain ⟨-, _, _, -, _, -, rfl⟩ := reads_assertStmt.mp hreads
    trivial
  case h_4 => exact deleteStmt_wellFormed hreads
  case h_5 => exact importFrom_wellFormed hreads
  case h_7 =>
    obtain ⟨-, names, hnames, rfl⟩ := reads_importModules.mp hreads
    exact commaSeparated_ne_nil hnames
  case h_10 =>
    obtain ⟨-, hrest⟩ := reads_raiseStmt.mp hreads
    split at hrest
    · obtain ⟨_, _, -, _, -, rfl⟩ := hrest
      trivial
    · rw [hrest.2]
      trivial
  case h_11 =>
    obtain ⟨-, hrest⟩ := reads_returnStmt.mp hreads
    split at hrest
    · obtain ⟨_, -, rfl⟩ := hrest
      trivial
    · rw [hrest.2]
      trivial
  case h_12 =>
    split at hreads
    · obtain ⟨-, _, _, -, -, _, -, rfl⟩ := reads_typeAliasStmt.mp hreads
      trivial
    · exact expressionStmt_wellFormed hreads
  case h_13 => exact expressionStmt_wellFormed hreads
  case h_6 | h_8 =>
    obtain ⟨names, -, rfl⟩ := reads_namesStmt.mp hreads
    trivial
  all_goals
    obtain ⟨-, rfl⟩ := reads_keywordStmt.mp hreads
    trivial

/-! ## Compound statements -/

private theorem withItem_target : withItem.Ensures tokens
    fun item => ∀ target ∈ item.target, target.IsAssignable := by
  intro before item after hreads
  obtain ⟨context, middle, -, target, htarget, rfl⟩ := reads_withItem.mp hreads
  exact Level.target_assignable.ifAccepted htarget

/-- Items in parentheses that may be left out are items like others, and there is one. -/
theorem withItems_wellFormed {items : List WithItem}
    (hreads : withItems.Reads tokens before items after) :
    items ≠ [] ∧ ∀ item ∈ items, ∀ target ∈ item.target, target.IsAssignable := by
  rcases reads_withItems hreads with ⟨-, hgrouped⟩ | ⟨_, -, hitems⟩
  · obtain ⟨_, hitems, hne, -⟩ := reads_groupedWithItems? hgrouped
    exact ⟨hne, withItem_target.lists (.of_reads hitems)⟩
  · exact ⟨commaSeparated_ne_nil hitems, withItem_target.commaSeparated hitems⟩

private theorem definition_wellFormed :
    (definition block).Ensures tokens fun stmt => stmt.form.WellFormed := by
  intro before stmt after hreads
  obtain ⟨decorators, _, form, -, rfl, ⟨-, hclass⟩ | ⟨-, hfunction⟩⟩ := reads_definition hreads
  · obtain ⟨_, _, _, _, arguments, _, _, -, -, -, hreadsArguments, -, rfl⟩ := reads_classDef hclass
    show Argument.Placed arguments
    split at hreadsArguments
    · exact Level.arguments_placed hreadsArguments
    · rw [hreadsArguments.1]
      exact List.Pairwise.nil
  · obtain ⟨_, _, _, _, _, _, _, _, _, _, _, -, -, -, -, -, -, -, -, rfl⟩ := reads_functionDef hfunction
    trivial

private theorem tryStmt_wellFormed :
    (tryStmt block).Ensures tokens fun stmt => stmt.form.WellFormed := by
  intro before stmt after hreads
  obtain ⟨-, _, _, handlers, _, -, -, orElse, _, rfl, hrest⟩ := reads_tryStmt hreads
  intro hnone
  rw [List.map_eq_nil_iff.mp hnone, List.isEmpty_nil, if_pos rfl] at hrest
  exact hrest.2.1

/-- A `match` is told from other uses of the word by the `case` in front of its first case. -/
theorem matchStmt?_wellFormed (hreads : (matchStmt? block).Reads tokens before (some stmt) after) :
    stmt.form.WellFormed := by
  obtain ⟨_, _, cases, _, hsubject, hcases, -, -, rfl⟩ := reads_matchStmt?_some hreads
  obtain ⟨_, -, -, -, -, hcase, rfl⟩ := reads_matchSubject?.mp hsubject
  show cases ≠ []
  cases hcases with
  | stop hstop => exact absurd ((reads_nextIsWord.mp hstop).1.trans hcase) Bool.false_ne_true
  | item => exact List.cons_ne_nil _ _

/-- An `if` statement is well formed if its clauses are. -/
theorem Completes.wellFormed {clause : IfClause}
    (hcompletes : Completes block tokens clause before stmt after) : stmt.form.WellFormed := by
  cases hcompletes <;> trivial

private theorem compound_wellFormed (hcompound : ReadsCompound block tokens before stmt after) :
    stmt.form.WellFormed := by
  cases hcompound with
  | definition _ hreads => exact definition_wellFormed hreads
  | loop _ hreads =>
    obtain ⟨_, _, _, _, _, _, _, _, _, -, -, htarget, -, -, -, -, rfl⟩ := reads_forStmt hreads
    exact Level.targetList_assignable htarget
  | context _ hreads =>
    obtain ⟨_, _, _, _, _, -, -, hitems, -, rfl⟩ := reads_withStmt hreads
    exact withItems_wellFormed hitems
  | conditional _ hreads =>
    obtain ⟨_, _, -, hcompletes⟩ := reads_ifStmt hreads
    exact hcompletes.wellFormed
  | attempt _ hreads => exact tryStmt_wellFormed hreads
  | whileLoop _ hreads =>
    obtain ⟨-, _, _, -, _, _, -, _, -, rfl⟩ := reads_whileStmt.mp hreads
    trivial
  | cases _ hreads => exact matchStmt?_wellFormed hreads

/-- A statement that is read is well formed. -/
theorem ReadsStmt.wellFormed (hreads : ReadsStmt tokens before stmt) : stmt.form.WellFormed := by
  cases hreads with
  | simple hreads => exact simpleStmt_wellFormed hreads
  | compound _ hcompound => exact compound_wellFormed hcompound
  | elif _ hcompletes => exact hcompletes.wellFormed

end Parser

/-! ## Modules -/

private theorem parseModule_proper {source : String} {module : Module} {stmt : Stmt} {expr : Expr}
    (hparse : parseModule source = .ok module) (hwithin : Stmt.Within module.body stmt)
    (hexpr : expr ∈ stmt.form.exprs) : expr.Proper .plain := by
  obtain ⟨_, hreads⟩ := parseModule_wasRead hparse hwithin
  exact hreads.exprs (Parser.ensuresExprs_of_compositional compositional_proper) expr hexpr

private theorem parseModule_wellFormedStmt {source : String} {module : Module} {stmt : Stmt}
    (hparse : parseModule source = .ok module) (hwithin : Stmt.Within module.body stmt) :
    stmt.form.WellFormed := by
  obtain ⟨_, hreads⟩ := parseModule_wasRead hparse hwithin
  exact hreads.wellFormed

/-- **A source that is a module has a well-formed tree.** Every statement of the module, at any
depth, is well-formed, and so is every expression in it, at any depth. Slices occur only as the
index of a subscript or as an element of a tuple that is one. -/
theorem parseModule_wellFormed {source : String} {module : Module}
    (hparse : parseModule source = .ok module) :
    ∀ stmt, Stmt.Within module.body stmt →
      stmt.form.WellFormed ∧
      ∀ expr ∈ stmt.form.exprs,
        (∀ count below, expr.Descends count below → below.form.WellFormed) ∧
        ∀ role below, Occurs .plain expr role below → below.form.isSlice →
          role = .index ∨ role = .element := by
  intro stmt hwithin
  refine ⟨parseModule_wellFormedStmt hparse hwithin, fun expr hexpr => ?_⟩
  have hproper := parseModule_proper hparse hwithin hexpr
  refine ⟨fun _ _ hdescends => hproper.wellFormed hdescends, fun role below hoccurs hslice => ?_⟩
  have hrole := (hproper hoccurs).2 hslice
  cases role with
  | index => exact .inl rfl
  | element => exact .inr rfl
  | plain => exact absurd rfl hrole

/-- Assignments to targets of all forms, with slices in two places. -/
def assignments : String :=
  "a, *b = x[1:2, c] = [d for (e, f) in g if h < i <= j]\nwith (p as q.r):\n  del s, [t, u[:]]\n"

/-- Assignments to a tuple with a star in it and to a subscript, a comprehension, and targets behind
`as` and `del`. -/
theorem parseModule_wellFormed_assignments :
    ∃ module stmt, parseModule assignments = .ok module ∧ Stmt.Within module.body stmt ∧
      stmt.form.WellFormed ∧
      ∀ expr ∈ stmt.form.exprs,
        (∀ count below, expr.Descends count below → below.form.WellFormed) ∧
        ∀ role below, Occurs .plain expr role below → below.form.isSlice →
          role = .index ∨ role = .element := by
  have hparses :
      (parseModule assignments).toOption.any fun module => module.body.any fun _ => true := by
    decide +kernel
  cases hparse : parseModule assignments with
  | error failure =>
    rw [hparse] at hparses
    cases hparses
  | ok module =>
    rw [hparse] at hparses
    obtain ⟨stmt, hstmt, -⟩ := List.any_eq_true.mp hparses
    exact ⟨module, stmt, rfl, .among hstmt, parseModule_wellFormed hparse stmt (.among hstmt)⟩

/-- **The order of arguments is all that is checked of them.** Once a list of arguments has been
read up to its closing parenthesis, it is accepted if no positional argument stands behind a keyword
or `**` argument and no `*` argument behind a `**` argument. Otherwise it is refused at the first
argument that does, with the cause for it. So the calls and the class headers of a module have their
arguments in order. -/
theorem arguments_order :
    (∀ {level : Level} {tokens : Tokens} {before after : Place} {arguments : List Argument},
      (Parser.listUntil .parenthesisClose level.argument).Reads tokens before arguments after →
      (level.arguments.Reads tokens before arguments after ↔ Argument.Placed arguments) ∧
      (¬Argument.Placed arguments → ∃ error, level.arguments tokens before = .error error after ∧
        Argument.Refused arguments error)) ∧
    ∀ {source : String} {module : Module}, parseModule source = .ok module →
      ∀ stmt, Stmt.Within module.body stmt →
        (∀ decorators name typeParams arguments body,
          stmt.form = .classDef decorators name typeParams arguments body →
          Argument.Placed arguments) ∧
        ∀ expr ∈ stmt.form.exprs, ∀ count below callee arguments, expr.Descends count below →
          below.form = .call callee arguments → Argument.Placed arguments := by
  refine ⟨fun hreads => ⟨⟨Level.arguments_placed, Level.arguments_of_placed hreads⟩,
    Level.arguments_of_not_placed hreads⟩, fun hparse stmt hwithin => ⟨?_, ?_⟩⟩
  · intro decorators name typeParams arguments body hclass
    have hform := parseModule_wellFormedStmt hparse hwithin
    rwa [hclass] at hform
  · intro expr hexpr count below callee arguments hdescends hcall
    have hform := (parseModule_proper hparse hwithin hexpr).wellFormed hdescends
    rwa [hcall] at hform

/-- A star behind two stars is refused, and stars behind keywords are accepted. -/
theorem arguments_order_mixed :
    (∃ arguments after error,
      (Parser.listUntil .parenthesisClose Level.outermost.argument).Reads
        (.ofSource "f(**a, b=c, *d)") ⟨2, 2⟩ arguments after ∧
      ¬Argument.Placed arguments ∧
      Level.outermost.arguments (.ofSource "f(**a, b=c, *d)") ⟨2, 2⟩ = .error error after ∧
      Argument.Refused arguments error) ∧
    ∃ module, parseModule "class C(A, m=M): f(*x, y=z, *w)\n" = .ok module ∧
      ∀ stmt, Stmt.Within module.body stmt → ∀ expr ∈ stmt.form.exprs, ∀ count below callee arguments,
        expr.Descends count below → below.form = .call callee arguments →
        Argument.Placed arguments := by
  constructor
  · have hshapes : (match Parser.listUntil .parenthesisClose Level.outermost.argument
          (.ofSource "f(**a, b=c, *d)") ⟨2, 2⟩ with
        | .ok arguments _ => decide (arguments.map Argument.shape = [.mapping, .keyword, .iterable])
        | .error _ _ => false) = true := by
      decide +kernel
    cases hreads : Parser.listUntil .parenthesisClose Level.outermost.argument
        (.ofSource "f(**a, b=c, *d)") ⟨2, 2⟩ with
    | error _ _ =>
      rw [hreads] at hshapes
      cases hshapes
    | ok arguments after =>
      rw [hreads] at hshapes
      have hplaced : ¬Argument.Placed arguments := by
        intro hplaced
        have hpairs : (arguments.map Argument.shape).Pairwise
            fun earlier later => earlier.conflict? later = none := List.pairwise_map.mpr hplaced
        rw [of_decide_eq_true hshapes] at hpairs
        exact absurd hpairs (by decide)
      obtain ⟨error, herror, hrefused⟩ := (arguments_order.1 hreads).2 hplaced
      exact ⟨arguments, after, error, hreads, hplaced, herror, hrefused⟩
  · have hparses : (parseModule "class C(A, m=M): f(*x, y=z, *w)\n").isOk := by decide +kernel
    cases hparse : parseModule "class C(A, m=M): f(*x, y=z, *w)\n" with
    | error failure =>
      rw [hparse] at hparses
      cases hparses
    | ok module => exact ⟨module, rfl, fun stmt hwithin => (arguments_order.2 hparse stmt hwithin).2⟩

end PythonOutline
