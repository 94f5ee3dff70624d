import PythonOutline.Proofs.Grammar.Simple
import PythonOutline.Proofs.Tree.LaminarDisplay

/-! # Simple statements are laminar

Every parser of a simple statement lays out a laminar tree over tokens that are made of text.
-/

namespace PythonOutline

/-- A simple statement with the span of a run of tokens and with children within it. -/
theorem Tokens.Fits.simple {tokens : Tokens} (hordered : tokens.InOrder) {start stop : Nat}
    {form : StmtForm} (hfits : tokens.Fits TokenKind.IsSolid start stop form.children)
    (hlt : start < stop) :
    tokens.Fits TokenKind.IsSolid start stop
      [Stmt.node ⟨tokens.spanBetween start stop, form⟩] := by
  rw [Stmt.node]
  exact hfits.solid hordered _ hlt

namespace Parser

variable {α : Type} {tokens : Tokens}

/-- A parser lays out the simple statement it reads. -/
def LaysSimple (parser : Parser Stmt) (tokens : Tokens) : Prop :=
  parser.Lays tokens TokenKind.IsSolid fun stmt => [stmt.node]

section

variable (hordered : tokens.InOrder)

include hordered

theorem expr_lays : expr.LaysExpr tokens :=
  Level.expr_lays hordered (Level.outermost_lays hordered)

theorem namedExpr_lays : namedExpr.LaysExpr tokens :=
  Level.namedExpr_lays hordered (Level.outermost_lays hordered)

theorem starExprs_lays : starExprs.LaysExpr tokens :=
  Level.starExprs_lays hordered (Level.outermost_lays hordered)

theorem yieldOrStarExprs_lays : yieldOrStarExprs.LaysExpr tokens :=
  Level.yieldOrStarExprs_lays hordered (Level.outermost_lays hordered)

theorem target_lays : Level.outermost.target.LaysExpr tokens :=
  Level.target_lays hordered (Level.outermost_lays hordered)

/-- One or more items with commas between them are laid out one behind the other. -/
theorem commaSeparated_lays {allowed : TokenKind → Prop} {item : Parser α} {node : α → Node}
    (hitem : item.Lays tokens allowed fun value => [node value]) (hcomma : allowed .comma) :
    (commaSeparated item).Lays tokens allowed fun values => values.map node := by
  intro before values after hreads
  obtain ⟨first, others, middle, rfl, hfirst, -, hothers⟩ := reads_commaSeparated.mp hreads
  exact (hitem hfirst).append hordered (Lays.repeatsBehind hordered hitem hcomma hothers)

/-- Names behind tokens make no nodes. -/
theorem Repeats.names_fits {kind : TokenKind} (hsolid : kind.IsSolid) {before after : Place}
    {names : List String}
    (hrepeats : Repeats (accept kind) identifier tokens before names after) :
    tokens.Fits TokenKind.IsSolid before.next after.next [] := by
  induction hrepeats with
  | stop hcondition => exact lays_accept hsolid hcondition
  | item hcondition hname _ ih =>
    exact ((lays_accept hsolid hcondition).append hordered (lays_identifier hname)).append hordered
      ih

/-- The name that something is bound to makes no node. -/
theorem boundName_lays :
    (ifAccepted .keywordAs identifier).Lays tokens TokenKind.IsSolid fun _ => [] := by
  intro before name after hreads
  rw [reads_ifAccepted] at hreads
  split at hreads
  · rename_i hkind
    obtain ⟨bound, hbound, -⟩ := hreads
    exact (lays_identifier hbound).behindToken hordered hkind (by decide)
  · obtain ⟨-, rfl⟩ := hreads
    exact .nil _ _ _

/-! ## Imports -/

/-- A dotted name is a run of text without nodes. -/
theorem dottedName_fits {before after : Place} {name : String}
    (hreads : dottedName.Reads tokens before name after) :
    tokens.Fits TokenKind.IsSolid before.next after.next [] ∧ before.next < after.next := by
  obtain ⟨hfirst, others, hothers, -⟩ := reads_dottedName hreads
  have hrest := hothers.names_fits hordered (by decide)
  exact ⟨hrest.behindToken hordered hfirst (by decide), hrest.le⟩

/-- An imported name covers a name that takes at least one token. -/
theorem importAlias_lays {name : Parser String}
    (hname : ∀ ⦃before text after⦄, name.Reads tokens before text after →
      tokens.Fits TokenKind.IsSolid before.next after.next [] ∧ before.next < after.next) :
    (importAlias name).Lays tokens TokenKind.IsSolid fun imported => [imported.node] := by
  intro before imported after hreads
  obtain ⟨text, middle, boundAs, htext, halias, rfl⟩ := reads_importAlias.mp hreads
  obtain ⟨hfirst, hlt⟩ := hname htext
  have hrest := boundName_lays hordered halias
  exact (hfirst.append hordered hrest).solid hordered _ (Nat.lt_of_lt_of_le hlt hrest.le)

/-- An imported name is one node. -/
theorem importedName_lays :
    (importAlias identifier).Lays tokens TokenKind.IsSolid fun imported => [imported.node] := by
  refine importAlias_lays hordered ?_
  intro before text after hreads
  obtain ⟨hkind, -, rfl⟩ := reads_identifier.mp hreads
  exact ⟨.token hkind (by decide), Nat.lt_succ_self _⟩

/-- An `import` is a node around the names of its modules. -/
theorem importModules_lays : importModules.LaysSimple tokens := by
  intro before stmt after hreads
  obtain ⟨himport, names, hnames, rfl⟩ := reads_importModules.mp hreads
  have hmodules := commaSeparated_lays hordered
    (importAlias_lays hordered fun _ _ _ => dottedName_fits hordered) (by decide) hnames
  exact .simple hordered (hmodules.behindToken hordered himport (by decide)) hmodules.le

/-- The names that are imported from a module as nodes. -/
def importedNodes : ImportedNames → List Node
  | .all => []
  | .specific names => names.map ImportAlias.node

private theorem importedNames_lays : importedNames.Lays tokens TokenKind.IsSolid importedNodes := by
  intro before names after hreads
  rw [reads_importedNames] at hreads
  split at hreads
  · rename_i hkind
    obtain ⟨rfl, rfl⟩ := hreads
    exact .token hkind (by decide)
  · split at hreads
    · rename_i hkind
      obtain ⟨aliases, haliases, -, rfl⟩ := hreads
      exact (Lays.lists hordered (importedName_lays hordered) (by decide) (by decide)
        (.of_reads haliases)).behindToken hordered hkind (by decide)
    · obtain ⟨aliases, haliases, rfl⟩ := hreads
      exact (commaSeparated_lays hordered (importedName_lays hordered) (by decide)).look haliases

/-- An import from a module is a node around the names that it imports. -/
theorem importFrom_lays : importFrom.LaysSimple tokens := by
  intro before stmt after hreads
  obtain ⟨hfrom, level, middle, module, last, names, hreadsDots, hreadsModule, himport, hreadsNames,
    rfl⟩ := reads_importFrom hreads
  have hdots : tokens.Fits TokenKind.IsSolid before.step.next middle.next [] := by
    obtain ⟨hle, hkinds⟩ := reads_leadingDots hreadsDots
    refine ⟨hle, fun index hstart hstop => ?_, by simp, .nil⟩
    rcases hkinds index hstart hstop with hkind | hkind <;> rw [hkind] <;> decide
  have hmodule : tokens.Fits TokenKind.IsSolid middle.next last.next [] := by
    split at hreadsModule
    · obtain ⟨name, hname, -⟩ := hreadsModule
      exact (dottedName_fits hordered hname).1
    · obtain ⟨-, rfl⟩ := hreadsModule
      exact .nil _ _ _
  have hnames := (importedNames_lays hordered hreadsNames).behindToken hordered himport (by decide)
  have hrest := (hdots.append hordered hmodule).append hordered hnames
  refine .simple hordered ?_ hrest.le
  cases names <;> exact hrest.behindToken hordered hfrom (by decide)

/-! ## Type parameters -/

omit hordered in
private theorem typeParamKind_lays : typeParamKind.Lays tokens TokenKind.IsSolid fun _ => [] := by
  intro before kind after hreads
  rw [reads_typeParamKind] at hreads
  split at hreads
  · rename_i hkind
    obtain ⟨-, rfl⟩ := hreads
    exact .token hkind (by decide)
  · split at hreads
    · rename_i hkind
      obtain ⟨-, rfl⟩ := hreads
      exact .token hkind (by decide)
    · obtain ⟨-, rfl⟩ := hreads
      exact .nil _ _ _

/-- A type parameter is one node. -/
theorem typeParam_lays : typeParam.Lays tokens TokenKind.IsSolid fun param => [param.node] := by
  intro before param after hreads
  obtain ⟨kind, start, bound, middle, defaultValue, hkind, hname, hreadsBound, hreadsDefault, rfl⟩ :=
    reads_typeParam hreads
  have hbound : tokens.Fits TokenKind.IsSolid start.step.next middle.next
      (bound.toList.map Expr.node) := by
    split at hreadsBound
    · exact (expr_lays hordered).ifAccepted hordered (by decide) hreadsBound
    · obtain ⟨rfl, rfl⟩ := hreadsBound
      exact .nil _ _ _
  have hdefault := (Level.starExpr_lays hordered (Level.outermost_lays hordered)).ifAccepted hordered
    (by decide) hreadsDefault
  have hfirst := typeParamKind_lays hkind
  have hrest := hbound.append hordered hdefault
  have hall := hfirst.append hordered (hrest.behindToken hordered hname (by decide))
  refine Tokens.Fits.solid hordered ?_ _ (Nat.lt_of_le_of_lt hfirst.le hrest.le)
  simpa using hall

/-- Type parameters are nodes behind each other. -/
theorem typeParams_lays :
    typeParams.Lays tokens TokenKind.IsSolid fun params => params.map TypeParam.node := by
  intro before params after hreads
  rw [reads_typeParams] at hreads
  split at hreads
  · rename_i hkind
    exact (Lays.lists hordered (typeParam_lays hordered) (by decide) (by decide)
      (.of_reads hreads.1)).behindToken hordered hkind (by decide)
  · obtain ⟨rfl, rfl⟩ := hreads
    exact .nil _ _ _

/-! ## Statements that start with a keyword -/

/-- An `assert` is a node around its condition and its message. -/
theorem assertStmt_lays : assertStmt.LaysSimple tokens := by
  intro before stmt after hreads
  obtain ⟨hassert, test, middle, htest, message, hmessage, rfl⟩ := reads_assertStmt.mp hreads
  have hall := (expr_lays hordered htest).append hordered
    ((expr_lays hordered).ifAccepted hordered (by decide) hmessage)
  refine .simple hordered ?_ hall.le
  simpa [StmtForm.children] using hall.behindToken hordered hassert (by decide)

/-- A `del` is a node around its targets. -/
theorem deleteStmt_lays : deleteStmt.LaysSimple tokens := by
  intro before stmt after hreads
  obtain ⟨hdel, first, middle, others, hfirst, hothers, rfl⟩ := reads_deleteStmt hreads
  have hall := (target_lays hordered hfirst).append hordered
    (Lays.continues hordered (target_lays hordered) (by decide) hothers)
  refine .simple hordered ?_ hall.le
  simpa [StmtForm.children] using hall.behindToken hordered hdel (by decide)

/-- A `raise` is a node around its exception and the cause. -/
theorem raiseStmt_lays : raiseStmt.LaysSimple tokens := by
  intro before stmt after hreads
  obtain ⟨hraise, hrest⟩ := reads_raiseStmt.mp hreads
  split at hrest
  · obtain ⟨exception, middle, hexception, cause, hcause, rfl⟩ := hrest
    have hall := ((expr_lays hordered).look hexception).append hordered
      ((expr_lays hordered).ifAccepted hordered (by decide) hcause)
    refine .simple hordered ?_ hall.le
    simpa [StmtForm.children] using hall.behindToken hordered hraise (by decide)
  · obtain ⟨rfl, rfl⟩ := hrest
    exact .simple hordered (.token hraise (by decide)) (Nat.lt_succ_self _)

/-- A `return` is a node around its value. -/
theorem returnStmt_lays : returnStmt.LaysSimple tokens := by
  intro before stmt after hreads
  obtain ⟨hreturn, hrest⟩ := reads_returnStmt.mp hreads
  split at hrest
  · obtain ⟨value, hvalue, rfl⟩ := hrest
    have hfits := (starExprs_lays hordered).look hvalue
    exact .simple hordered (hfits.behindToken hordered hreturn (by decide)) hfits.le
  · obtain ⟨rfl, rfl⟩ := hrest
    exact .simple hordered (.token hreturn (by decide)) (Nat.lt_succ_self _)

private theorem typeAliasStmt_fits {before after : Place} {distance : Nat} {stmt : Stmt}
    (hreads : typeAliasStmt.Reads tokens (before.look distance) stmt after)
    (hword : tokens.kindAt before = .identifier) :
    tokens.Fits TokenKind.IsSolid before.next after.next [stmt.node] := by
  obtain ⟨hname, params, middle, hparams, hequals, value, hvalue, rfl⟩ :=
    reads_typeAliasStmt.mp hreads
  have hnamed := (typeParams_lays hordered hparams).behindToken hordered hname (by decide)
  have hall := hnamed.append hordered
    ((expr_lays hordered hvalue).behindToken hordered hequals (by decide))
  exact .simple hordered (hall.behindToken hordered hword (by decide)) hall.le

private theorem keywordStmt_fits {form : StmtForm} {before after : Place} {distance : Nat}
    {stmt : Stmt} {kind : TokenKind}
    (hreads : (keywordStmt form).Reads tokens (before.look distance) stmt after)
    (hkind : tokens.kindAt before = kind) (hsolid : kind.IsSolid) (hform : form.children = []) :
    tokens.Fits TokenKind.IsSolid before.next after.next [stmt.node] := by
  obtain ⟨rfl, rfl⟩ := reads_keywordStmt.mp hreads
  refine .simple hordered ?_ (Nat.lt_succ_self _)
  rw [hform]
  exact .token hkind hsolid

private theorem namesStmt_fits {form : List String → StmtForm} {before after : Place}
    {distance : Nat} {stmt : Stmt} {kind : TokenKind}
    (hreads : (namesStmt form).Reads tokens (before.look distance) stmt after)
    (hkind : tokens.kindAt before = kind) (hsolid : kind.IsSolid)
    (hform : ∀ names, (form names).children = []) :
    tokens.Fits TokenKind.IsSolid before.next after.next [stmt.node] := by
  obtain ⟨names, hnames, rfl⟩ := reads_namesStmt.mp hreads
  obtain ⟨first, others, middle, rfl, hfirst, -, hothers⟩ := reads_commaSeparated.mp hnames
  have hall := (lays_identifier hfirst).append hordered (hothers.names_fits hordered (by decide))
  refine .simple hordered ?_ hall.le
  rw [hform]
  exact hall.behindToken hordered hkind hsolid

/-! ## Expression statements and assignments -/

/-- The targets of an assignment and its value are nodes behind each other. -/
theorem Assigns.fits {start : Nat} {first value : Expr} {targets : List Expr}
    {before after : Place} (hassigns : Assigns tokens first before targets value after)
    (hfirst : tokens.Fits TokenKind.IsSolid start before.next [first.node]) :
    tokens.Fits TokenKind.IsSolid start after.next (targets.map Expr.node ++ [value.node]) := by
  induction hassigns generalizing start with
  | last => exact hfirst
  | assign hequals hnext _ ih =>
    have hassigned := hfirst.thenToken hordered hequals (by decide)
    have hall := hassigned.append hordered (ih (yieldOrStarExprs_lays hordered hnext))
    exact hall

/-- An assignment or expression is a node around what it is made of. -/
theorem expressionStmt_lays : expressionStmt.LaysSimple tokens := by
  intro before stmt after hreads
  obtain ⟨first, middle, form, hreadsFirst, rfl, hrest⟩ := reads_expressionStmt hreads
  have hfirst := yieldOrStarExprs_lays hordered hreadsFirst
  have hlt := hfirst.lt (List.mem_singleton_self _)
  split at hrest
  · rename_i hcolon
    obtain ⟨-, hint, last, value, hhint, hvalue, rfl⟩ := hrest
    have hhinted := (hfirst.thenToken hordered hcolon (by decide)).append hordered
      (expr_lays hordered hhint)
    have hall := hhinted.append hordered
      ((yieldOrStarExprs_lays hordered).ifAccepted hordered (by decide) hvalue)
    refine .simple hordered ?_ (hall.lt (List.mem_cons_self ..))
    simpa [StmtForm.children] using hall
  · split at hrest
    · rename_i haugmented
      obtain ⟨-, value, hvalue, rfl⟩ := hrest
      have hall := (hfirst.thenToken hordered rfl
        (Operator.isSolid_of_augmented? haugmented)).append hordered
        (yieldOrStarExprs_lays hordered hvalue)
      exact .simple hordered hall (hall.lt (List.mem_cons_self ..))
    · split at hrest
      · obtain ⟨targets, value, hassigns, -, rfl⟩ := hrest
        have hall := hassigns.fits hordered hfirst
        refine .simple hordered ?_ (hall.lt (List.mem_append_right _ (List.mem_singleton_self _)))
        simpa [StmtForm.children] using hall
      · obtain ⟨rfl, rfl⟩ := hrest
        exact .simple hordered hfirst hlt

/-! ## Lines of simple statements -/

/-- A simple statement is one node. -/
theorem simpleStmt_lays : simpleStmt.LaysSimple tokens := by
  intro before stmt after hreads
  rw [reads_simpleStmt] at hreads
  split at hreads
  case h_1 => exact (assertStmt_lays hordered).look hreads
  case h_2 hkind => exact keywordStmt_fits hordered hreads hkind (by decide) rfl
  case h_3 hkind => exact keywordStmt_fits hordered hreads hkind (by decide) rfl
  case h_4 => exact (deleteStmt_lays hordered).look hreads
  case h_5 => exact (importFrom_lays hordered).look hreads
  case h_6 hkind => exact namesStmt_fits hordered hreads hkind (by decide) fun _ => rfl
  case h_7 => exact (importModules_lays hordered).look hreads
  case h_8 hkind => exact namesStmt_fits hordered hreads hkind (by decide) fun _ => rfl
  case h_9 hkind => exact keywordStmt_fits hordered hreads hkind (by decide) rfl
  case h_10 => exact (raiseStmt_lays hordered).look hreads
  case h_11 => exact (returnStmt_lays hordered).look hreads
  case h_12 hkind =>
    split at hreads
    · exact typeAliasStmt_fits hordered hreads hkind
    · exact (expressionStmt_lays hordered).look hreads
  case h_13 => exact (expressionStmt_lays hordered).look hreads

/-- A line of simple statements is solid up to the line break that ends it. -/
theorem simpleStmts_fits {before after : Place} {stmts : List Stmt}
    (hreads : simpleStmts.Reads tokens before stmts after) :
    ∃ last, tokens.kindAt last = .newline ∧ after = last.step ∧
      tokens.Fits TokenKind.IsSolid before.next last.next (stmts.map Stmt.node) := by
  obtain ⟨first, middle, others, last, hfirst, hothers, hline, rfl, rfl⟩ := reads_simpleStmts hreads
  exact ⟨last, hline, rfl, (simpleStmt_lays hordered hfirst).append hordered
    (Lays.continues hordered (simpleStmt_lays hordered) (by decide) hothers)⟩

end

end Parser

end PythonOutline
