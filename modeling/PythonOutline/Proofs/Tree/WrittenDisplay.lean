import PythonOutline.Proofs.Grammar.Param
import PythonOutline.Proofs.Tree.WrittenExpr

/-! # The tokens that displays, arguments and parameters are written in

What stands between brackets is read up to the closing one, so with the opening one in front the run
is balanced. The parsers of every level therefore read what is written in the tokens they take, by
induction on the number of levels inside it. -/

namespace PythonOutline.Level

open PythonOutline.Parser

attribute [local simp] ExprForm.parts ExprForm.besideParts ExprForm.nestedParts

variable {level : Level} {tokens : Tokens} {before after : Place}

section

variable (hlevel : level.Writes tokens)

include hlevel

/-! ## Comprehensions -/

private theorem forClause_holds : level.forClause.Holds tokens ForClause.parts := by
  intro before clause after hreads
  obtain ⟨isAsync, start, target, middle, iterable, last, conditions, hasync, hfor, htarget, hin,
    hiterable, hconditions, rfl⟩ := reads_forClause hreads
  have hcondition : ∀ ⦃before start value after⦄,
      (nextIs .keywordIf).Reads tokens before true start →
      (do let _ ← take; level.orTest : Parser Expr).Reads tokens start value after →
      tokens.Holds before.next after.next [value] := by
    intro before start value after hif hvalue
    simp only [reads_nextIs, Bool.true_eq, beq_iff_eq] at hif
    obtain ⟨hkind, rfl⟩ := hif
    simp only [reads_bind, reads_take, existsAndEq, true_and] at hvalue
    exact (orTest_writes hlevel hvalue).holds.behindToken hkind (by decide)
  have hheader := (holds_accept (by decide) hasync).append
    ((targetList_writes hlevel htarget).holds.behindToken hfor (by decide))
  have hsource := (orTest_writes hlevel hiterable).holds.behindToken hin (by decide)
  have htests := Holds.repeats (fun _ _ hstop => holds_nextIs hstop) hcondition hconditions
  exact ((hheader.append hsource).append htests).mono (by simp [ForClause.parts])

private theorem forClauses_holds :
    level.forClauses.Holds tokens fun clauses => clauses.flatMap ForClause.parts := by
  intro before clauses after hreads
  refine Holds.repeats ?_ ?_ (reads_forClauses hreads)
  · intro before after hstop
    obtain ⟨-, rfl⟩ := reads_startsForClause.mp hstop
    exact .nil _ _
  · intro before start clause after hstart hclause
    obtain ⟨-, rfl⟩ := reads_startsForClause.mp hstart
    exact (forClause_holds hlevel).look hclause

/-- A comprehension whose opening token stands where it began, in front of its element. -/
theorem comprehension_writes {start : Nat} {open' close : TokenKind} {kind : ComprehensionKind}
    {element value : Expr} {second : Option Expr} (hopen : (tokens.get start).kind = open')
    (hmatch : open'.closingBracket? = some close)
    (hreads : (level.comprehension start close kind element second).Reads tokens before value after)
    (hholds : tokens.Holds (start + 1) before.next (element :: second.toList)) :
    tokens.Writes start after.next value := by
  obtain ⟨clauses, last, hclauses, hclose, rfl, rfl⟩ := reads_comprehension.mp hreads
  have hall := (hholds.append (forClauses_holds hlevel hclauses)).toClose hclose
  refine hall.writes hopen hmatch ?_
  rw [ExprForm.parts_comprehension]
  simp [ExprForm.comprehensionParts]

/-! ## Displays -/

private theorem displayElements_holdsTo {close : TokenKind} {elements : List Expr}
    (hreads : (level.displayElements close).Reads tokens before elements after) :
    tokens.HoldsTo close before.next after.next elements := by
  simpa using (starNamedExpr_writes hlevel).holds.lists (reads_displayElements hreads)

private theorem parenDisplay_writes : level.parenDisplay.Writes tokens := by
  intro before value after hreads
  obtain ⟨hopen, hrest⟩ := reads_parenDisplay.mp hreads
  split at hrest
  · rename_i hclose
    obtain ⟨rfl, rfl⟩ := hrest
    have hempty := (Tokens.Holds.nil tokens before.step.next).toClose hclose
    exact hempty.writes hopen rfl (by simp)
  split at hrest
  · obtain ⟨last, hyield, hclose, rfl⟩ := hrest
    exact .grouped hopen ((yieldExpr_writes hlevel).look hyield) hclose
  obtain ⟨first, middle, hreadsFirst, hrest⟩ := hrest
  have hfirst := (starNamedExpr_writes hlevel).look hreadsFirst
  split at hrest
  · exact comprehension_writes hlevel hopen rfl hrest hfirst.holds
  split at hrest
  · rename_i hcomma
    obtain ⟨others, hreadsOthers, rfl⟩ := hrest
    have hothers := displayElements_holdsTo hlevel hreadsOthers
    exact ((hfirst.holds.thenToken hcomma (by decide)).appendTo hothers).writes hopen rfl (by simp)
  · obtain ⟨hclose, rfl, rfl⟩ := hrest
    exact .grouped hopen hfirst hclose

private theorem listDisplay_writes : level.listDisplay.Writes tokens := by
  intro before value after hreads
  obtain ⟨hopen, hrest⟩ := reads_listDisplay.mp hreads
  split at hrest
  · obtain ⟨elements, hreadsElements, rfl⟩ := hrest
    have helements : tokens.HoldsTo .bracketClose (before.next + 1) after.next elements :=
      displayElements_holdsTo hlevel hreadsElements
    exact helements.writes hopen rfl (by simp)
  obtain ⟨first, middle, hreadsFirst, hrest⟩ := hrest
  have hfirst := ((starNamedExpr_writes hlevel).look hreadsFirst).holds
  split at hrest
  · exact comprehension_writes hlevel hopen rfl hrest hfirst
  split at hrest
  · rename_i hcomma
    obtain ⟨others, hreadsOthers, rfl⟩ := hrest
    have hothers := displayElements_holdsTo hlevel hreadsOthers
    exact ((hfirst.thenToken hcomma (by decide)).appendTo hothers).writes hopen rfl (by simp)
  · obtain ⟨hclose, rfl, rfl⟩ := hrest
    exact (hfirst.toClose hclose).writes hopen rfl (by simp)

private theorem dictEntry_holds : level.dictEntry.Holds tokens DictEntry.parts := by
  intro before entry after hreads
  rw [reads_dictEntry] at hreads
  split at hreads
  · rename_i hkind
    obtain ⟨mapping, hmapping, rfl⟩ := hreads
    exact (bitwiseOr_writes hlevel hmapping).holds.behindToken hkind (by decide)
  · obtain ⟨key, middle, hkey, hcolon, value, hvalue, rfl⟩ := hreads
    have hfirst := ((expr_writes hlevel).look hkey).holds
    exact hfirst.append ((expr_writes hlevel hvalue).holds.behindToken hcolon (by decide))

private theorem dictEntries_holdsTo {entries : List DictEntry}
    (hreads : (listUntil .braceClose level.dictEntry).Reads tokens before entries after) :
    tokens.HoldsTo .braceClose before.next after.next (entries.flatMap DictEntry.parts) :=
  (dictEntry_holds hlevel).lists (.of_reads hreads)

private theorem setDisplay_writes {start : Nat} {first value : Expr}
    (hopen : (tokens.get start).kind = .braceOpen)
    (hreads : (level.setDisplay start first).Reads tokens before value after)
    (hfirst : tokens.Holds (start + 1) before.next [first]) :
    tokens.Writes start after.next value := by
  rw [reads_setDisplay] at hreads
  split at hreads
  · exact comprehension_writes hlevel hopen rfl hreads hfirst
  split at hreads
  · rename_i hcomma
    obtain ⟨others, hreadsOthers, rfl⟩ := hreads
    have hothers := displayElements_holdsTo hlevel hreadsOthers
    exact ((hfirst.thenToken hcomma (by decide)).appendTo hothers).writes hopen rfl (by simp)
  · obtain ⟨hclose, rfl, rfl⟩ := hreads
    exact (hfirst.toClose hclose).writes hopen rfl (by simp)

private theorem dictDisplay_writes {start entryStart : Nat} {key value : Expr}
    (hopen : (tokens.get start).kind = .braceOpen)
    (hreads : (level.dictDisplay start entryStart key).Reads tokens before value after)
    (hkey : tokens.Holds (start + 1) before.next [key]) : tokens.Writes start after.next value := by
  obtain ⟨first, middle, hreadsFirst, hrest⟩ := reads_dictDisplay.mp hreads
  have hentry := hkey.append (expr_writes hlevel hreadsFirst).holds
  split at hrest
  · exact comprehension_writes hlevel hopen rfl hrest hentry
  split at hrest
  · rename_i hcomma
    obtain ⟨others, hreadsOthers, rfl⟩ := hrest
    have hothers := dictEntries_holdsTo hlevel hreadsOthers
    exact ((hentry.thenToken hcomma (by decide)).appendTo hothers).writes hopen rfl
      (by simp [DictEntry.parts])
  · obtain ⟨hclose, rfl, rfl⟩ := hrest
    exact (hentry.toClose hclose).writes hopen rfl (by simp [DictEntry.parts])

private theorem braceDisplay_writes : level.braceDisplay.Writes tokens := by
  intro before value after hreads
  obtain ⟨hopen, hrest⟩ := reads_braceDisplay.mp hreads
  split at hrest
  · obtain ⟨entries, hreadsEntries, rfl⟩ := hrest
    have hentries : tokens.HoldsTo .braceClose (before.next + 1) after.next
        (entries.flatMap DictEntry.parts) := dictEntries_holdsTo hlevel hreadsEntries
    exact hentries.writes hopen rfl (by simp)
  · obtain ⟨first, middle, hreadsFirst, hrest⟩ := hrest
    have hfirst := ((starNamedExpr_writes hlevel).look hreadsFirst).holds
    split at hrest
    · rename_i hcolon
      exact dictDisplay_writes hlevel hopen hrest (hfirst.thenToken hcolon (by decide))
    · exact setDisplay_writes hlevel hopen hrest hfirst

/-! ## Arguments and subscripts -/

private theorem positionalArgument_writes : level.positionalArgument.Writes tokens := by
  intro before value after hreads
  obtain ⟨first, middle, hreadsFirst, hrest⟩ := reads_positionalArgument.mp hreads
  have hfirst := namedExpr_writes hlevel hreadsFirst
  split at hrest
  · obtain ⟨clauses, hreadsClauses, rfl⟩ := hrest
    have hclauses := (forClauses_holds hlevel).look hreadsClauses
    refine (hfirst.holds.append hclauses).writes (Nat.lt_of_lt_of_le hfirst.lt hclauses.le) ?_
    rw [ExprForm.parts_comprehension]
    simp [ExprForm.comprehensionParts]
  · obtain ⟨rfl, rfl⟩ := hrest
    exact hfirst

private theorem argument_holds : level.argument.Holds tokens fun argument => [argument.value] := by
  intro before argument after hreads
  rw [reads_argument] at hreads
  split at hreads
  · rename_i hkind
    obtain ⟨value, hvalue, rfl⟩ := hreads
    exact (expr_writes hlevel hvalue).holds.behindToken hkind (by decide)
  split at hreads
  · rename_i hkind
    obtain ⟨value, hvalue, rfl⟩ := hreads
    exact (expr_writes hlevel hvalue).holds.behindToken hkind (by decide)
  split at hreads
  · rename_i hkinds
    obtain ⟨value, hvalue, rfl⟩ := hreads
    have hnamed := (expr_writes hlevel hvalue).holds.behindToken hkinds.2 (by decide)
    exact hnamed.behindToken hkinds.1 (by decide)
  · obtain ⟨value, hvalue, rfl⟩ := hreads
    exact ((positionalArgument_writes hlevel).look hvalue).holds

/-- The arguments of a call hold their values up to the closing parenthesis. -/
theorem arguments_holdsTo {arguments : List Argument}
    (hreads : level.arguments.Reads tokens before arguments after) :
    tokens.HoldsTo .parenthesisClose before.next after.next (arguments.map Argument.value) := by
  have hlists := (argument_holds hlevel).lists (reads_arguments hreads).1
  rwa [← List.map_eq_flatMap] at hlists

private theorem sliceBound_holds : level.sliceBound.Holds tokens Option.toList := by
  intro before bound after hreads
  rw [reads_sliceBound] at hreads
  split at hreads
  · obtain ⟨rfl, rfl⟩ := hreads
    exact .nil _ _
  · obtain ⟨value, hvalue, rfl⟩ := hreads
    exact ((expr_writes hlevel).look hvalue).holds

private theorem sliceRest_writes {start : Nat} {lower : Option Expr} {value : Expr}
    (hreads : (level.sliceRest start lower).Reads tokens before value after)
    (hlower : tokens.Holds start before.next lower.toList) :
    tokens.Writes start after.next value := by
  obtain ⟨hcolon, upper, middle, hreadsUpper, hrest⟩ := reads_sliceRest.mp hreads
  have hupper := sliceBound_holds hlevel hreadsUpper
  have hboth := (hlower.thenToken hcolon (by decide)).append hupper
  have hlt : start < middle.next := Nat.lt_of_le_of_lt hlower.le hupper.le
  split at hrest
  · rename_i hsecond
    obtain ⟨step, hreadsStep, rfl⟩ := hrest
    have hstep := sliceBound_holds hlevel hreadsStep
    exact ((hboth.thenToken hsecond (by decide)).append hstep).writes (Nat.lt_trans hlt hstep.le)
      (by simp)
  · obtain ⟨rfl, rfl⟩ := hrest
    exact hboth.writes hlt (by simp)

private theorem sliceItem_writes : level.sliceItem.Writes tokens := by
  intro before value after hreads
  rw [reads_sliceItem] at hreads
  split at hreads
  · have hwrites := sliceRest_writes hlevel hreads (.nil _ _)
    exact hwrites
  · obtain ⟨first, middle, hreadsFirst, hrest⟩ := hreads
    have hfirst := (starNamedExpr_writes hlevel).look hreadsFirst
    split at hrest
    · exact sliceRest_writes hlevel hrest hfirst.holds
    · obtain ⟨rfl, rfl⟩ := hrest
      exact hfirst

private theorem subscript_writes : level.subscript.Writes tokens := by
  intro before value after hreads
  obtain ⟨first, middle, hreadsFirst, hrest⟩ := reads_subscript hreads
  have hfirst := sliceItem_writes hlevel hreadsFirst
  split at hrest
  · obtain ⟨others, hothers, rfl⟩ := hrest
    exact tuple_writes (sliceItem_writes hlevel) hfirst hothers
  · obtain ⟨rfl, rfl⟩ := hrest
    exact hfirst

/-! ## Parameters and lambdas -/

private theorem param_holds {kind : ParamKind} {typeHints : Bool} :
    (level.param kind typeHints).Holds tokens Param.parts := by
  intro before param after hreads
  obtain ⟨hname, hint, middle, defaultValue, hreadsHint, hreadsDefault, rfl⟩ := reads_param hreads
  have hhint : tokens.Holds before.step.next middle.next hint.toList := by
    split at hreadsHint
    · have htype : (level.typeHint kind).Writes tokens := by
        unfold typeHint
        split
        · exact starExpr_writes hlevel
        · exact expr_writes hlevel
      simpa using htype.holds.ifAccepted (by decide) hreadsHint
    · obtain ⟨rfl, rfl⟩ := hreadsHint
      exact .nil _ _
  have hdefault : tokens.Holds middle.next after.next defaultValue.toList := by
    split at hreadsDefault
    · obtain ⟨rfl, rfl⟩ := hreadsDefault
      exact .nil _ _
    · simpa using (expr_writes hlevel).holds.ifAccepted (by decide) hreadsDefault
  exact (hhint.append hdefault).behindToken hname (by decide)

/-- An entry of a parameter list brings one parameter at most, or makes those before it
positional-only, which changes none of their expressions. -/
theorem paramsEntry_holds {typeHints : Bool} {state state' : ParamsState} {start : Nat}
    (hreads : (level.paramsEntry typeHints state).Reads tokens before state' after)
    (hstate : tokens.Holds start before.next (state.params.flatMap Param.parts)) :
    tokens.Holds start after.next (state'.params.flatMap Param.parts) := by
  have hadd : ∀ {middle : Place} {kind : ParamKind} {param : Param},
      (level.param kind typeHints).Reads tokens middle param after →
      tokens.Holds start middle.next (state.params.flatMap Param.parts) →
      tokens.Holds start after.next ((param :: state.params).flatMap Param.parts) := by
    intro middle kind param hparam hfront
    refine (hfront.append (param_holds hlevel hparam)).mono fun expr hexpr => ?_
    rw [List.flatMap_cons] at hexpr
    exact List.mem_append.mpr (List.mem_append.mp hexpr).symm
  obtain ⟨-, hentry⟩ := reads_paramsEntry.mp hreads
  split at hentry
  case h_1 hkind =>
    obtain ⟨rfl, hclose⟩ := hentry
    unfold closePositional? at hclose
    split at hclose
    · cases hclose
    · cases hclose
      rw [List.flatMap_map]
      exact hstate.thenToken hkind (by decide)
  case h_2 hkind _ =>
    have hfront := hstate.thenToken hkind (by decide)
    split at hentry
    · obtain ⟨rfl, rfl⟩ := hentry
      exact hfront
    · obtain ⟨param, hparam, rfl⟩ := hentry
      exact hadd hparam hfront
  case h_3 hkind =>
    obtain ⟨param, hparam, rfl⟩ := hentry
    exact hadd hparam (hstate.thenToken hkind (by decide))
  case h_4 =>
    obtain ⟨param, hparam, rfl⟩ := hentry
    exact hadd hparam hstate
  case h_5 =>
    obtain ⟨param, hparam, -, rfl⟩ := hentry
    exact hadd hparam hstate

private theorem Enters.holdsTo {close : TokenKind} {typeHints : Bool} {state result : ParamsState}
    {start : Nat} (henters : level.Enters close typeHints tokens state before result after)
    (hstate : tokens.Holds start before.next (state.params.flatMap Param.parts)) :
    tokens.HoldsTo close start after.next (result.params.flatMap Param.parts) := by
  induction henters with
  | close hkind => exact hstate.toClose hkind
  | last _ hentry hkind => exact (paramsEntry_holds hlevel hentry hstate).toClose hkind
  | entry _ hentry hcomma _ ih =>
    exact ih ((paramsEntry_holds hlevel hentry hstate).thenToken hcomma (by decide))

/-- A parameter list holds its type hints and defaults up to its end. -/
theorem params_holdsTo {close : TokenKind} {typeHints : Bool} {params : List Param}
    (hreads : (level.params close typeHints).Reads tokens before params after) :
    tokens.HoldsTo close before.next after.next (params.flatMap Param.parts) := by
  obtain ⟨result, henters, rfl⟩ := reads_params hreads
  obtain ⟨last, hstop, hclose, hholds⟩ := henters.holdsTo hlevel (.nil _ _)
  exact ⟨last, hstop, hclose, hholds.mono (by simp)⟩

private theorem lambdaExpr_writes : level.lambdaExpr.Writes tokens := by
  intro before value after hreads
  obtain ⟨hlambda, params, middle, hreadsParams, body, hreadsBody, rfl⟩ := reads_lambdaExpr.mp hreads
  have hparams := (params_holdsTo hlevel hreadsParams).holds (by decide)
  have hboth := hparams.append (expr_writes hlevel hreadsBody).holds
  exact (hboth.behindToken hlambda (by decide)).writes hboth.le (by simp)

/-! ## Nesting levels -/

private theorem around_writes : level.around.Writes tokens where
  innerLambda := lambdaExpr_writes hlevel
  innerExpr := expr_writes hlevel
  innerNotTest := notTest_writes hlevel
  innerFactor := factor_writes hlevel
  innerArguments := by
    intro before arguments after hreads hkind
    exact (arguments_holdsTo hlevel (reads_innerArguments.mp hreads)).enclosed hkind rfl
  innerIndex := by
    intro before index after hreads hkind
    obtain ⟨last, hindex, hclose, rfl⟩ := reads_innerIndex.mp hreads
    exact ((subscript_writes hlevel hindex).holds.toClose hclose).enclosed hkind rfl
  innerParens := parenDisplay_writes hlevel
  innerBrackets := listDisplay_writes hlevel
  innerBraces := braceDisplay_writes hlevel

end

private theorem innermost_writes : innermost.Writes tokens := by
  constructor <;> intro before value after hreads <;> exact (reads_failNext.mp hreads).elim

/-- The expressions of every level are written in the tokens they were read from. -/
theorem withInner_writes (count : Nat) : (withInner count).Writes tokens := by
  induction count with
  | zero => exact innermost_writes
  | succ count ih => exact around_writes ih

/-- All levels write what they read. -/
theorem outermost_writes : outermost.Writes tokens :=
  withInner_writes _

end PythonOutline.Level
