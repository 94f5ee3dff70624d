import PythonOutline.Proofs.Grammar.Param
import PythonOutline.Proofs.Tree.LaminarExpr

/-! # Expressions are laminar

The parsers of displays, calls, subscripts and lambdas lay out laminar trees if the parsers of
the next inner level do. So the parsers of every level do, by induction on the number of levels
inside it. -/

namespace PythonOutline.Level

open PythonOutline.Parser

variable {level : Level} {tokens : Tokens}

section

variable (hordered : tokens.InOrder) (hlevel : level.Lays tokens)

include hordered hlevel

/-! ## Comprehensions -/

/-- A clause of a comprehension is one node, with its targets and expressions below it. -/
theorem forClause_lays :
    level.forClause.Lays tokens TokenKind.IsSolid fun clause => [clause.node] := by
  intro before clause after hreads
  obtain ⟨isAsync, start, target, middle, iterable, last, conditions, hasync, hfor, htarget, hin,
    hiterable, hconditions, rfl⟩ := reads_forClause hreads
  have hcondition : ∀ ⦃before start value after⦄,
      (nextIs .keywordIf).Reads tokens before true start →
      (do let _ ← take; level.orTest : Parser Expr).Reads tokens start value after →
      tokens.Fits TokenKind.IsSolid before.next after.next [value.node] := by
    intro before start value after hif hvalue
    simp only [reads_nextIs, Bool.true_eq, beq_iff_eq] at hif
    obtain ⟨hkind, rfl⟩ := hif
    simp only [reads_bind, reads_take, existsAndEq, true_and] at hvalue
    exact (orTest_lays hordered hlevel hvalue).behindToken hordered hkind (by decide)
  have hheader := (lays_accept (by decide) hasync).append hordered
    ((targetList_lays hordered hlevel htarget).behindToken hordered hfor (by decide))
  have hsource := (orTest_lays hordered hlevel hiterable).behindToken hordered hin (by decide)
  have htests := Lays.repeats hordered (fun _ _ hstop => lays_nextIs hstop) hcondition hconditions
  have hall := (hheader.append hordered hsource).append hordered htests
  refine Tokens.Fits.solid hordered ?_ _ (hall.lt (List.mem_cons_self ..))
  simpa using hall

/-- The clauses of a comprehension are nodes behind each other. -/
theorem forClauses_lays :
    level.forClauses.Lays tokens TokenKind.IsSolid fun clauses => clauses.map ForClause.node := by
  intro before clauses after hreads
  refine Lays.repeats hordered ?_ ?_ (reads_forClauses hreads)
  · intro before after hstop
    obtain ⟨-, rfl⟩ := reads_startsForClause.mp hstop
    exact .nil _ _ _
  · intro before start clause after hstart hclause
    obtain ⟨-, rfl⟩ := reads_startsForClause.mp hstart
    exact (forClause_lays hordered hlevel).look hclause

private theorem comprehension_fits {start : Nat} {close : TokenKind} {kind : ComprehensionKind}
    {element value : Expr} {second : Option Expr} {before after : Place} (hclose : close.IsSolid)
    (hreads : (level.comprehension start close kind element second).Reads tokens before value after)
    (hfits : tokens.Fits TokenKind.IsSolid start before.next
      (element.node :: second.toList.map Expr.node)) :
    tokens.Fits TokenKind.IsSolid start after.next [value.node] := by
  obtain ⟨clauses, last, hclauses, hkind, rfl, rfl⟩ := reads_comprehension.mp hreads
  have hall := (hfits.append hordered (forClauses_lays hordered hlevel hclauses)).thenToken hordered
    hkind hclose
  refine .expr hordered ?_ (hall.lt (List.mem_cons_self ..))
  simpa [ExprForm.children] using hall

/-! ## Displays -/

private theorem displayElements_lays {close : TokenKind} (hclose : close.IsSolid) :
    (level.displayElements close).Lays tokens TokenKind.IsSolid fun elements =>
      elements.map Expr.node := by
  intro before elements after hreads
  exact Lays.lists hordered (starNamedExpr_lays hordered hlevel) (by decide) hclose
    (reads_displayElements hreads)

/-- A display of elements, of which the first stands behind its opening token, up to its end. -/
theorem elements_fits {close : TokenKind} (hclose : close.IsSolid) {start : Nat}
    {before after : Place} {first : Expr} {others : List Expr} {form : List Expr → ExprForm}
    (hform : ∀ elements, (form elements).children = elements.map Expr.node)
    (hfirst : tokens.Fits TokenKind.IsSolid start before.next [first.node])
    (hothers : (level.displayElements close).Reads tokens before others after) :
    tokens.Fits TokenKind.IsSolid start after.next
      [Expr.node ⟨tokens.spanBetween start after.next, form (first :: others)⟩] := by
  have hall := hfirst.append hordered (displayElements_lays hordered hlevel hclose hothers)
  refine .expr hordered ?_ (hall.lt (List.mem_cons_self ..))
  rw [hform]
  exact hall

/-- What stands in parentheses is one node, with the parentheses unless they are only around it. -/
theorem parenDisplay_lays : level.parenDisplay.LaysExpr tokens := by
  intro before value after hreads
  obtain ⟨hopen, hrest⟩ := reads_parenDisplay.mp hreads
  split at hrest
  · rename_i hclose
    obtain ⟨rfl, rfl⟩ := hrest
    have hfirst : tokens.Fits TokenKind.IsSolid before.next before.step.next [] :=
      .token hopen (by decide)
    have hboth := hfirst.thenToken hordered hclose (by decide)
    exact .expr hordered hboth (Nat.lt_succ_of_lt (Nat.lt_succ_self _))
  · split at hrest
    · obtain ⟨last, hyield, hclose, rfl⟩ := hrest
      have hvalue := (yieldExpr_lays hordered hlevel).look hyield
      exact (hvalue.behindToken hordered hopen (by decide)).thenToken hordered hclose (by decide)
    · obtain ⟨first, middle, hreadsFirst, hrest⟩ := hrest
      have hfirst := ((starNamedExpr_lays hordered hlevel).look hreadsFirst).behindToken hordered
        hopen (by decide)
      split at hrest
      · exact comprehension_fits hordered hlevel (by decide) hrest hfirst
      · split at hrest
        · rename_i hcomma
          obtain ⟨others, hothers, rfl⟩ := hrest
          have hitem := hfirst.thenToken hordered hcomma (by decide)
          exact elements_fits hordered hlevel (by decide) (fun _ => by simp [ExprForm.children])
            hitem hothers
        · obtain ⟨hclose, rfl, rfl⟩ := hrest
          exact hfirst.thenToken hordered hclose (by decide)

/-- A list is one node, with its brackets. -/
theorem listDisplay_lays : level.listDisplay.LaysExpr tokens := by
  intro before value after hreads
  obtain ⟨hopen, hrest⟩ := reads_listDisplay.mp hreads
  split at hrest
  · obtain ⟨elements, helements, rfl⟩ := hrest
    have hlist := (displayElements_lays hordered hlevel (by decide)).look helements
    refine .expr hordered ?_ hlist.le
    simpa [ExprForm.children] using hlist.behindToken hordered hopen (by decide)
  · obtain ⟨first, middle, hreadsFirst, hrest⟩ := hrest
    have hfirst := ((starNamedExpr_lays hordered hlevel).look hreadsFirst).behindToken hordered
      hopen (by decide)
    split at hrest
    · exact comprehension_fits hordered hlevel (by decide) hrest hfirst
    · split at hrest
      · rename_i hcomma
        obtain ⟨others, hothers, rfl⟩ := hrest
        have hitem := hfirst.thenToken hordered hcomma (by decide)
        exact elements_fits hordered hlevel (by decide) (fun _ => by simp [ExprForm.children])
          hitem hothers
      · obtain ⟨hclose, rfl, rfl⟩ := hrest
        have hall := hfirst.thenToken hordered hclose (by decide)
        exact .expr hordered hall (hall.lt (List.mem_singleton_self _))

/-- An entry of a dict is one node. -/
theorem dictEntry_lays :
    level.dictEntry.Lays tokens TokenKind.IsSolid fun entry => [entry.node] := by
  intro before entry after hreads
  rw [reads_dictEntry] at hreads
  split at hreads
  · rename_i hkind
    obtain ⟨mapping, hmapping, rfl⟩ := hreads
    have hfits := (bitwiseOr_lays hordered hlevel hmapping).behindToken hordered hkind (by decide)
    exact hfits.solid hordered _ (hfits.lt (List.mem_singleton_self _))
  · obtain ⟨key, middle, hkey, hcolon, value, hvalue, rfl⟩ := hreads
    have hfirst := (expr_lays hordered hlevel).look hkey
    have hboth := hfirst.append hordered
      ((expr_lays hordered hlevel hvalue).behindToken hordered hcolon (by decide))
    exact hboth.solid hordered _ (hboth.lt (List.mem_cons_self ..))

private theorem dictEntries_lays :
    (listUntil .braceClose level.dictEntry).Lays tokens TokenKind.IsSolid fun entries =>
      entries.map DictEntry.node := by
  intro before entries after hreads
  exact Lays.lists hordered (dictEntry_lays hordered hlevel) (by decide) (by decide)
    (.of_reads hreads)

private theorem setDisplay_fits {start : Nat} {first value : Expr} {before after : Place}
    (hreads : (level.setDisplay start first).Reads tokens before value after)
    (hfirst : tokens.Fits TokenKind.IsSolid start before.next [first.node]) :
    tokens.Fits TokenKind.IsSolid start after.next [value.node] := by
  rw [reads_setDisplay] at hreads
  split at hreads
  · exact comprehension_fits hordered hlevel (by decide) hreads hfirst
  · split at hreads
    · rename_i hcomma
      obtain ⟨others, hothers, rfl⟩ := hreads
      have hitem := hfirst.thenToken hordered hcomma (by decide)
      exact elements_fits hordered hlevel (by decide) (fun _ => by simp [ExprForm.children]) hitem
        hothers
    · obtain ⟨hclose, rfl, rfl⟩ := hreads
      have hall := hfirst.thenToken hordered hclose (by decide)
      exact .expr hordered hall (hall.lt (List.mem_singleton_self _))

private theorem dictDisplay_fits {key value : Expr} {before middle after : Place}
    (hopen : tokens.kindAt before = .braceOpen)
    (hkey : tokens.Fits TokenKind.IsSolid before.step.next middle.next [key.node])
    (hcolon : tokens.kindAt middle = .colon)
    (hreads : (level.dictDisplay before.next before.step.next key).Reads tokens middle.step value
      after) :
    tokens.Fits TokenKind.IsSolid before.next after.next [value.node] := by
  obtain ⟨first, last, hreadsFirst, hrest⟩ := reads_dictDisplay.mp hreads
  have hpair := (hkey.thenToken hordered hcolon (by decide)).append hordered
    (expr_lays hordered hlevel hreadsFirst)
  have hentry := (hpair.solid hordered "dict_entry"
    (hpair.lt (List.mem_cons_self ..))).behindToken hordered hopen (by decide)
  split at hrest
  · exact comprehension_fits hordered hlevel (by decide) hrest
      (hpair.behindToken hordered hopen (by decide))
  · split at hrest
    · rename_i hcomma
      obtain ⟨others, hothers, rfl⟩ := hrest
      have hall := (hentry.thenToken hordered hcomma (by decide)).append hordered
        (dictEntries_lays hordered hlevel hothers)
      refine .expr hordered ?_ (hall.lt (List.mem_cons_self ..))
      simpa [ExprForm.children, DictEntry.node] using hall
    · obtain ⟨hclose, rfl, rfl⟩ := hrest
      have hall := hentry.thenToken hordered hclose (by decide)
      refine .expr hordered ?_ (hall.lt (List.mem_singleton_self _))
      simpa [ExprForm.children, DictEntry.node] using hall

/-- A set or dict is one node, with its braces. -/
theorem braceDisplay_lays : level.braceDisplay.LaysExpr tokens := by
  intro before value after hreads
  obtain ⟨hopen, hrest⟩ := reads_braceDisplay.mp hreads
  split at hrest
  · obtain ⟨entries, hreadsEntries, rfl⟩ := hrest
    have hentries := (dictEntries_lays hordered hlevel).look hreadsEntries
    refine .expr hordered ?_ hentries.le
    simpa [ExprForm.children] using hentries.behindToken hordered hopen (by decide)
  · obtain ⟨first, middle, hreadsFirst, hrest⟩ := hrest
    have hfirst := (starNamedExpr_lays hordered hlevel).look hreadsFirst
    split at hrest
    · rename_i hcolon
      exact dictDisplay_fits hordered hlevel hopen hfirst hcolon hrest
    · exact setDisplay_fits hordered hlevel hrest (hfirst.behindToken hordered hopen (by decide))

/-! ## Calls and subscripts -/

private theorem positionalArgument_lays : level.positionalArgument.LaysExpr tokens := by
  intro before value after hreads
  obtain ⟨first, middle, hreadsFirst, hrest⟩ := reads_positionalArgument.mp hreads
  have hfirst := namedExpr_lays hordered hlevel hreadsFirst
  split at hrest
  · obtain ⟨clauses, hclauses, rfl⟩ := hrest
    have hall := hfirst.append hordered ((forClauses_lays hordered hlevel).look hclauses)
    refine .expr hordered ?_ (hall.lt (List.mem_cons_self ..))
    simpa [ExprForm.children] using hall
  · obtain ⟨rfl, rfl⟩ := hrest
    exact hfirst

/-- An argument is one node. -/
theorem argument_lays :
    level.argument.Lays tokens TokenKind.IsSolid fun argument => [argument.node] := by
  intro before argument after hreads
  suffices hvalue : tokens.Fits TokenKind.IsSolid before.next after.next [argument.value.node] ∧
      argument.span = tokens.spanBetween before.next after.next by
    obtain ⟨hfits, hspan⟩ := hvalue
    simp only [Argument.node, hspan]
    exact hfits.solid hordered _ (hfits.lt (List.mem_singleton_self _))
  rw [reads_argument] at hreads
  split at hreads
  · rename_i hkind
    obtain ⟨value, hvalue, rfl⟩ := hreads
    exact ⟨(expr_lays hordered hlevel hvalue).behindToken hordered hkind (by decide), rfl⟩
  · split at hreads
    · rename_i hkind
      obtain ⟨value, hvalue, rfl⟩ := hreads
      exact ⟨(expr_lays hordered hlevel hvalue).behindToken hordered hkind (by decide), rfl⟩
    · split at hreads
      · rename_i hkinds
        obtain ⟨value, hvalue, rfl⟩ := hreads
        have hnamed := (expr_lays hordered hlevel hvalue).behindToken hordered hkinds.2 (by decide)
        exact ⟨hnamed.behindToken hordered hkinds.1 (by decide), rfl⟩
      · obtain ⟨value, hvalue, rfl⟩ := hreads
        exact ⟨(positionalArgument_lays hordered hlevel).look hvalue, rfl⟩

/-- Arguments are nodes behind each other. -/
theorem arguments_lays :
    level.arguments.Lays tokens TokenKind.IsSolid fun arguments =>
      arguments.map Argument.node := by
  intro before arguments after hreads
  exact Lays.lists hordered (argument_lays hordered hlevel) (by decide) (by decide)
    (reads_arguments hreads).1

/-- A bound of a slice is a node, unless it is left out. -/
theorem sliceBound_lays :
    level.sliceBound.Lays tokens TokenKind.IsSolid fun bound => bound.toList.map Expr.node := by
  intro before bound after hreads
  rw [reads_sliceBound] at hreads
  split at hreads
  · obtain ⟨rfl, rfl⟩ := hreads
    exact .nil _ _ _
  · obtain ⟨value, hvalue, rfl⟩ := hreads
    exact (expr_lays hordered hlevel).look hvalue

private theorem sliceRest_fits {start : Nat} {lower : Option Expr} {value : Expr}
    {before after : Place}
    (hreads : (level.sliceRest start lower).Reads tokens before value after)
    (hlower : tokens.Fits TokenKind.IsSolid start before.next (lower.toList.map Expr.node)) :
    tokens.Fits TokenKind.IsSolid start after.next [value.node] := by
  obtain ⟨hcolon, upper, middle, hreadsUpper, hrest⟩ := reads_sliceRest.mp hreads
  have hupper := sliceBound_lays hordered hlevel hreadsUpper
  have hboth := (hlower.thenToken hordered hcolon (by decide)).append hordered hupper
  have hlt : start < middle.next := Nat.lt_of_le_of_lt hlower.le hupper.le
  split at hrest
  · rename_i hsecond
    obtain ⟨step, hreadsStep, rfl⟩ := hrest
    have hstep := sliceBound_lays hordered hlevel hreadsStep
    have hall := (hboth.thenToken hordered hsecond (by decide)).append hordered hstep
    refine .expr hordered ?_ (Nat.lt_trans hlt hstep.le)
    simpa [ExprForm.children] using hall
  · obtain ⟨rfl, rfl⟩ := hrest
    refine .expr hordered ?_ hlt
    simpa [ExprForm.children] using hboth

/-- An element of a subscript is one node. -/
theorem sliceItem_lays : level.sliceItem.LaysExpr tokens := by
  intro before value after hreads
  rw [reads_sliceItem] at hreads
  split at hreads
  · have hfits := sliceRest_fits hordered hlevel hreads (.nil _ _ _)
    exact hfits
  · obtain ⟨first, middle, hreadsFirst, hrest⟩ := hreads
    have hfirst := (starNamedExpr_lays hordered hlevel).look hreadsFirst
    split at hrest
    · exact sliceRest_fits hordered hlevel hrest hfirst
    · obtain ⟨rfl, rfl⟩ := hrest
      exact hfirst

/-- A subscript is one node. -/
theorem subscript_lays : level.subscript.LaysExpr tokens := by
  intro before value after hreads
  obtain ⟨first, middle, hreadsFirst, hrest⟩ := reads_subscript hreads
  have hfirst := sliceItem_lays hordered hlevel hreadsFirst
  split at hrest
  · obtain ⟨others, hothers, rfl⟩ := hrest
    exact tuple_fits hordered (sliceItem_lays hordered hlevel) hfirst hothers
  · obtain ⟨rfl, rfl⟩ := hrest
    exact hfirst

/-! ## Parameters and lambdas -/

/-- A parameter is one node. -/
theorem param_lays {kind : ParamKind} {typeHints : Bool} :
    (level.param kind typeHints).Lays tokens TokenKind.IsSolid fun param => [param.node] := by
  intro before param after hreads
  obtain ⟨hname, hint, middle, defaultValue, hreadsHint, hreadsDefault, rfl⟩ := reads_param hreads
  have hhint : tokens.Fits TokenKind.IsSolid before.step.next middle.next
      (hint.toList.map Expr.node) := by
    split at hreadsHint
    · have htype : (level.typeHint kind).LaysExpr tokens := by
        unfold typeHint
        split
        · exact starExpr_lays hordered hlevel
        · exact expr_lays hordered hlevel
      exact htype.ifAccepted hordered (by decide) hreadsHint
    · obtain ⟨rfl, rfl⟩ := hreadsHint
      exact .nil _ _ _
  have hdefault : tokens.Fits TokenKind.IsSolid middle.next after.next
      (defaultValue.toList.map Expr.node) := by
    split at hreadsDefault
    · obtain ⟨rfl, rfl⟩ := hreadsDefault
      exact .nil _ _ _
    · exact (expr_lays hordered hlevel).ifAccepted hordered (by decide) hreadsDefault
  have hboth := hhint.append hordered hdefault
  refine Tokens.Fits.solid hordered ?_ _ hboth.le
  simpa using hboth.behindToken hordered hname (by decide)

omit hordered hlevel in
/-- A `/` changes no more than the kinds of the parameters in front of it. -/
theorem closePositional?_nodes {state state' : ParamsState}
    (hclose : closePositional? state = some state') :
    state'.params.map Param.node = state.params.map Param.node := by
  unfold closePositional? at hclose
  split at hclose
  · cases hclose
  · cases hclose
    simp [Param.node, Function.comp_def]

private theorem paramsEntry_fits {typeHints : Bool} {state state' : ParamsState} {start : Nat}
    {before after : Place}
    (hreads : (level.paramsEntry typeHints state).Reads tokens before state' after)
    (hstate : tokens.Fits TokenKind.IsSolid start before.next
      (state.params.map Param.node).reverse) :
    tokens.Fits TokenKind.IsSolid start after.next (state'.params.map Param.node).reverse := by
  have hadd : ∀ {middle : Place} {kind : ParamKind} {param : Param},
      (level.param kind typeHints).Reads tokens middle param after →
      tokens.Fits TokenKind.IsSolid start middle.next (state.params.map Param.node).reverse →
      tokens.Fits TokenKind.IsSolid start after.next
        ((param :: state.params).map Param.node).reverse := by
    intro middle kind param hparam hfront
    rw [List.map_cons, List.reverse_cons]
    exact hfront.append hordered (param_lays hordered hlevel hparam)
  obtain ⟨-, hentry⟩ := reads_paramsEntry.mp hreads
  split at hentry
  case h_1 hkind =>
    obtain ⟨rfl, hclose⟩ := hentry
    rw [closePositional?_nodes hclose]
    exact hstate.thenToken hordered hkind (by decide)
  case h_2 hkind _ =>
    have hfront := hstate.thenToken hordered hkind (by decide)
    split at hentry
    · obtain ⟨rfl, rfl⟩ := hentry
      exact hfront
    · obtain ⟨param, hparam, rfl⟩ := hentry
      exact hadd hparam hfront
  case h_3 hkind =>
    obtain ⟨param, hparam, rfl⟩ := hentry
    exact hadd hparam (hstate.thenToken hordered hkind (by decide))
  case h_4 =>
    obtain ⟨param, hparam, rfl⟩ := hentry
    exact hadd hparam hstate
  case h_5 =>
    obtain ⟨param, hparam, -, rfl⟩ := hentry
    exact hadd hparam hstate

/-- Each entry of a parameter list adds a node at most, behind those before. -/
theorem Enters.fits {close : TokenKind} {typeHints : Bool} {state result : ParamsState}
    {start : Nat} {before after : Place} (hclose : close.IsSolid)
    (henters : level.Enters close typeHints tokens state before result after)
    (hstate : tokens.Fits TokenKind.IsSolid start before.next
      (state.params.map Param.node).reverse) :
    tokens.Fits TokenKind.IsSolid start after.next (result.params.map Param.node).reverse := by
  induction henters with
  | close hkind => exact hstate.thenToken hordered hkind hclose
  | last _ hentry hkind =>
    exact (paramsEntry_fits hordered hlevel hentry hstate).thenToken hordered hkind hclose
  | entry _ hentry hcomma _ ih =>
    exact ih ((paramsEntry_fits hordered hlevel hentry hstate).thenToken hordered hcomma
      (by decide))

/-- Parameters are nodes behind each other. -/
theorem params_lays {close : TokenKind} {typeHints : Bool} (hclose : close.IsSolid) :
    (level.params close typeHints).Lays tokens TokenKind.IsSolid fun params =>
      params.map Param.node := by
  intro before params after hreads
  obtain ⟨result, henters, rfl⟩ := reads_params hreads
  simp only [List.map_reverse]
  exact henters.fits hordered hlevel hclose (.nil _ _ _)

/-- A lambda is one node, with its parameters and its body below it. -/
theorem lambdaExpr_lays : level.lambdaExpr.LaysExpr tokens := by
  intro before value after hreads
  obtain ⟨hlambda, params, middle, hparams, body, hbody, rfl⟩ := reads_lambdaExpr.mp hreads
  have hboth := (params_lays hordered hlevel (by decide) hparams).append hordered
    (expr_lays hordered hlevel hbody)
  refine .expr hordered ?_ hboth.le
  simpa [ExprForm.children] using hboth.behindToken hordered hlambda (by decide)

/-! ## Nesting levels -/

private theorem around_lays : level.around.Lays tokens where
  innerLambda := lambdaExpr_lays hordered hlevel
  innerExpr := expr_lays hordered hlevel
  innerNotTest := notTest_lays hordered hlevel
  innerFactor := factor_lays hordered hlevel
  innerArguments := by
    intro before arguments after hreads hkind
    exact (arguments_lays hordered hlevel (reads_innerArguments.mp hreads)).behindToken hordered
      hkind (by decide)
  innerIndex := by
    intro before index after hreads hkind
    obtain ⟨last, hindex, hclose, rfl⟩ := reads_innerIndex.mp hreads
    exact ((subscript_lays hordered hlevel hindex).behindToken hordered hkind
      (by decide)).thenToken hordered hclose (by decide)
  innerParens := parenDisplay_lays hordered hlevel
  innerBrackets := listDisplay_lays hordered hlevel
  innerBraces := braceDisplay_lays hordered hlevel

end

private theorem innermost_lays : innermost.Lays tokens := by
  constructor <;> intro before value after hreads <;> exact (reads_failNext.mp hreads).elim

/-- The expressions of every level are laminar. -/
theorem withInner_lays (hordered : tokens.InOrder) (count : Nat) :
    (withInner count).Lays tokens := by
  induction count with
  | zero => exact innermost_lays
  | succ count ih => exact around_lays hordered ih

/-- All levels lay out what they read. -/
theorem outermost_lays (hordered : tokens.InOrder) : outermost.Lays tokens :=
  withInner_lays hordered _

end PythonOutline.Level
