import PythonOutline.Proofs.Grammar.PassageSimple
import PythonOutline.Proofs.Grammar.Pattern

/-! # Statements in two places

In a passage that ends where a line or a level of indentation does and stands word for word in the
other sequence, every statement carries over what it reads. The header of a match statement is
told from a simple statement by an attempt to read it, and so are contexts in parentheses. An
attempt that fails in one sequence must not succeed in the other one, so the passage is read
backwards too. -/

namespace PythonOutline

open PythonOutline.Parser PythonOutline.Passage

/-- A passage that ends where a line or a level of indentation does, and stands word for word in the
other sequence, where neither text nor a deeper level comes behind it. -/
structure Passage.Verbatim (passage : Passage) : Prop where
  closed : passage.Closed
  ordered' : passage.tokens'.InOrder
  lt_size' : passage.start + passage.length < passage.tokens.tokens.size
  alike' : ∀ index ≤ passage.length, (passage.tokens'.get (passage.start' + index)).Alike .moved
    (passage.tokens.get (passage.start + index))
  behind : ∀ index, passage.start' + passage.length ≤ index →
    ¬(passage.tokens'.get index).kind.IsSolid ∧ (passage.tokens'.get index).kind ≠ .indent
  pattern : ∀ {first last}, first < last → last ≤ passage.length →
    (∀ index, passage.start + first ≤ index → index < passage.start + last →
      (passage.tokens.get index).kind.IsSolid) →
    passage.like.pattern
      (String.ofList (Text.slice passage.tokens.source
        (passage.tokens.spanBetween (passage.start + first) (passage.start + last)).start
        (passage.tokens.spanBetween (passage.start + first) (passage.start + last)).stop))
      (String.ofList (Text.slice passage.tokens'.source
        (passage.tokens'.spanBetween (passage.start' + first) (passage.start' + last)).start
        (passage.tokens'.spanBetween (passage.start' + first) (passage.start' + last)).stop))

namespace Passage.Verbatim

variable {passage : Passage} {α : Type}

/-- The token behind a passage that stands word for word is not significant. -/
theorem not_isSignificant (hverbatim : passage.Verbatim) :
    ¬(passage.tokens'.get (passage.start' + passage.length)).kind.isSignificant := by
  rw [hverbatim.closed.1.kind_eq]
  exact hverbatim.closed.2

/-- The passage as it is read in the other direction, with no regard to spans. -/
def back (hverbatim : passage.Verbatim) : Passage where
  like := .moved
  tokens := passage.tokens'
  tokens' := passage.tokens
  start := passage.start'
  start' := passage.start
  length := passage.length
  total := Likeness.moved_total
  ordered := hverbatim.ordered'
  alike index hlt := hverbatim.alike' index (Nat.le_of_lt hlt)
  closing := .inl ⟨hverbatim.alike' _ (Nat.le_refl _), hverbatim.not_isSignificant⟩
  spans _ _ _ := trivial
  lt_size := hverbatim.lt_size'

private theorem back_closed (hverbatim : passage.Verbatim) : hverbatim.back.Closed :=
  ⟨hverbatim.alike' _ (Nat.le_refl _), hverbatim.not_isSignificant⟩

/-- A run of text in the other sequence that does not start behind the passage ends inside it. -/
theorem stop_le (hverbatim : passage.Verbatim) {start stop : Nat}
    (hsolid : ∀ index, start ≤ index → index < stop → (passage.tokens'.get index).kind.IsSolid)
    (hlt : start < stop) : stop ≤ passage.start' + passage.length := by
  by_contra hbehind
  exact (hverbatim.behind (stop - 1) (by omega)).1 (hsolid (stop - 1) (by omega) (by omega))

/-- An attempt carries over its value or that it fails, if where it succeeds in the other sequence
it ends inside the passage. -/
theorem carries_attempt (related : Likeness → α → α → Prop) {parser : Parser (Option α)}
    (hverbatim : passage.Verbatim)
    (hparser : ∀ {passage : Passage}, passage.Closed →
      passage.Carries 1 0 (Option.Rel (related passage.like)) parser parser)
    (hwithin : ∀ {before after value},
      (attempt parser).Reads passage.tokens' before (some value) after →
        after.next ≤ passage.start' + passage.length) :
    passage.Carries 1 0 (Option.Rel (related passage.like)) (attempt parser) (attempt parser) := by
  intro offset before before' hat result after hreads
  cases result with
  | some value =>
    obtain ⟨stop, result', after', hle, hstop, hrelated, hreads'⟩ :=
      hparser hverbatim.closed hat (reads_attempt_some.mp hreads)
    cases hrelated with
    | some hrelated =>
      exact ⟨stop, _, after', hle, hstop, .some hrelated,
        fun hmargin => reads_attempt_some.mpr (hreads' hmargin)⟩
  | none =>
    have hnone : ∀ value after,
        ¬parser.Reads passage.tokens' before' (some value) after := by
      intro value after' hreads'
      have hwithin := hwithin (reads_attempt_some.mpr hreads')
      have hback : hverbatim.back.At offset before' before := ⟨hat.next_eq', hat.next_eq⟩
      obtain ⟨stop, result, place, -, hstop, hrelated, hsuccess⟩ :=
        hparser hverbatim.back_closed hback hreads'
      rw [hstop.next_eq] at hwithin
      have hsuccess := hsuccess (Nat.add_le_add_right (Nat.le_of_add_le_add_left hwithin) 1)
      cases hrelated with
      | some => cases hreads.symm.trans (reads_attempt_some.mpr hsuccess)
    obtain ⟨seen, hreads'⟩ := attempt_reads_none hnone
    exact ⟨offset, none, ⟨before'.next, seen⟩, Nat.le_refl _,
      ⟨(reads_attempt_none hreads).trans hat.next_eq, hat.next_eq'⟩, .none, fun _ => hreads'⟩

end Passage.Verbatim

/-- A clause of a conditional statement is carried over. -/
structure Passage.CarriesClause (passage : Passage) (clause clause' : IfClause) : Prop where
  start : passage.Marks clause.start clause'.start
  test : clause.test.Alike passage.like clause'.test
  body : List.Forall₂ (Stmt.Alike passage.like) clause.body clause'.body

/-- The span since a mark, which is that of the other sequence inside the passage. -/
theorem Passage.At.exists_span {passage : Passage} {offset start start' : Nat} {place place' : Place}
    (hat : passage.At offset place place') (hstart : passage.Marks start start') :
    ∃ span', passage.like.span (passage.tokens.spanBetween start place.next) span' ∧
      (offset ≤ passage.length + 1 → span' = passage.tokens'.spanBetween start' place'.next) := by
  by_cases hle : offset ≤ passage.length + 1
  · refine ⟨_, ?_, fun _ => rfl⟩
    obtain ⟨first, rfl, rfl⟩ := hstart
    rw [hat.next_eq, hat.next_eq']
    exact passage.spans first offset hle
  · obtain ⟨span', hspan⟩ := passage.total.span (passage.tokens.spanBetween start place.next)
    exact ⟨span', hspan, fun h => absurd h hle⟩

/-- A chain of clauses around a statement is carried over. -/
theorem Passage.At.exists_closeClauses {passage : Passage} {offset : Nat} {place place' : Place}
    (hat : passage.At offset place place') {outer outer' : List IfClause} {inner inner' : Stmt}
    (houter : List.Forall₂ passage.CarriesClause outer outer')
    (hinner : inner.Alike passage.like inner') :
    ∃ stmt', (outer.foldl (fun inner clause => clause.close passage.tokens place.next [inner])
        inner).Alike passage.like stmt' ∧
      (offset ≤ passage.length + 1 → stmt' =
        outer'.foldl (fun inner clause => clause.close passage.tokens' place'.next [inner])
          inner') := by
  induction houter generalizing inner inner' with
  | nil => exact ⟨inner', hinner, fun _ => rfl⟩
  | @cons clause clause' _ _ hclause _ ih =>
    obtain ⟨span', hspan, hspan'⟩ := hat.exists_span hclause.start
    obtain ⟨stmt', hstmt, hstmt'⟩ := ih (.mk hspan
      (.conditional hclause.test hclause.body (.cons hinner .nil)))
    refine ⟨stmt', hstmt, fun hle => ?_⟩
    rw [hstmt' hle, hspan' hle]
    rfl

namespace Parser

variable {passage : Passage} (hverbatim : passage.Verbatim) {block : Parser (List Stmt)}
  (hblock : passage.CarriesStmts block)

include hblock

/-! ## Conditionals and loops -/

private theorem elseBlock_carries :
    passage.Carries 1 0 (List.Forall₂ (Stmt.Alike passage.like)) (elseBlock block)
      (elseBlock block) :=
  (carries_accept (.inl (by decide))).bindEq fun _ =>
    .ite (hblock.inside.least_le (Nat.zero_le 1)) (.pure .nil)

private theorem ifClause_carries :
    passage.Carries 1 0 passage.CarriesClause (ifClause block) (ifClause block) := by
  refine carries_mark fun hstart => carries_take.bind fun token token' htoken => ?_
  rw [htoken.kind_eq]
  exact .ite (namedExpr_carries.bind fun _ _ htest => hblock.inside.bind fun _ _ hbody =>
    .pure ⟨hstart, htest, hbody⟩) (.bindBy (fun _ _ => False) .throw nofun)

private theorem ifStmt_carries (hadvances : Advances (elifStep block) passage.tokens) :
    passage.CarriesStmt (ifStmt block) := by
  let Clauses (clauses clauses' : List IfClause × IfClause) : Prop :=
    List.Forall₂ passage.CarriesClause clauses.1 clauses'.1 ∧
      passage.CarriesClause clauses.2 clauses'.2
  refine (ifClause_carries hblock).bind fun first first' hfirst =>
    .bindBy Clauses (carries_iterate Clauses hadvances ⟨.nil, hfirst⟩ fun hclauses =>
      (carries_nextIs (.inl (by decide))).bindEq fun _ =>
        .ite ((ifClause_carries hblock).bind fun _ _ hclause =>
          .pure (.next ⟨.cons hclauses.2 hclauses.1, hclause⟩)) (.pure (.done hclauses))) ?_
  rintro ⟨outer, last⟩ ⟨outer', last'⟩ ⟨houter, hlast⟩
  refine (elseBlock_carries hblock).bind fun alternate alternate' halternate =>
    carries_of_stays fun offset before before' hat stmt after hreads => ?_
  simp only [reads_bind, reads_read, reads_mark, reads_pure, existsAndEq, true_and, and_true]
    at hreads ⊢
  obtain ⟨rfl, rfl⟩ := hreads
  obtain ⟨span', hspan, hspan'⟩ := hat.exists_span hlast.start
  obtain ⟨stmt', hstmt, hstmt'⟩ := hat.exists_closeClauses houter
    (.mk hspan (.conditional hlast.test hlast.body halternate))
  refine ⟨rfl, stmt', before', rfl, hstmt, fun hmargin => ⟨?_, rfl⟩⟩
  rw [hstmt' (by omega), hspan' (by omega)]
  rfl

private theorem whileStmt_carries : passage.CarriesStmt (whileStmt block) :=
  carries_spanned <| (carries_expect .keywordWhile).bind fun _ _ _ =>
    namedExpr_carries.bind fun _ _ htest => hblock.inside.bind fun _ _ hbody =>
      (elseBlock_carries hblock).bind fun _ _ horElse =>
        .pure fun hspan => .mk hspan (.whileLoop htest hbody horElse)

private theorem forStmt_carries (hclosed : passage.Closed) : passage.CarriesStmt (forStmt block) :=
  carries_spanned <| (carries_accept (.inl (by decide))).bindEq fun _ =>
    (carries_expect .keywordFor).bind fun _ _ _ =>
      (Level.targetList_carries (Level.withInner_carries _) hclosed.sure).bind fun _ _ htarget =>
        (carries_expect .keywordIn).bind fun _ _ _ =>
          (starExprs_carries hclosed).bind fun _ _ hiterable => hblock.inside.bind fun _ _ hbody =>
            (elseBlock_carries hblock).bind fun _ _ horElse =>
              .pure fun hspan => .mk hspan (.forLoop htarget hiterable hbody horElse)

/-! ## Exceptions and contexts -/

private theorem handler_carries :
    passage.Carries 1 0
      (fun handled handled' => handled.1.Alike passage.like handled'.1 ∧ handled'.2 = handled.2)
      (handler block) (handler block) := by
  refine carries_mark @fun start start' hstart => carries_take.bind fun _ _ _ =>
    (carries_accept (.inl (by decide))).bindEq fun star =>
      (carries_nextIs (.inl (by decide))).bindEq fun _ =>
        .iteBind (Option.Rel (Expr.Alike passage.like)) (.pure .none)
          (.map expr_carries fun _ _ hvalue => .some hvalue)
          fun exception exception' hexception => ?_
  have hrest : ∀ name, passage.Carries 1 0
      (fun handled handled' => handled.1.Alike passage.like handled'.1 ∧ handled'.2 = handled.2)
      (block >>= fun body => spanSince start >>= fun span =>
        pure ((⟨span, exception, name, body⟩ : Handler), star))
      (block >>= fun body => spanSince start' >>= fun span =>
        pure ((⟨span, exception', name, body⟩ : Handler), star)) :=
    fun _ => hblock.inside.bind fun _ _ hbody => (carries_spanSince hstart).bind fun _ _ hspan =>
      .pure ⟨.mk hspan hexception hbody, rfl⟩
  cases hexception with
  | some => exact boundName_carries.bindEq hrest
  | none => exact hrest none

private theorem tryStmt_carries
    (hadvances : Advances (repeatStep (nextIs .keywordExcept) (handler block)) passage.tokens) :
    passage.CarriesStmt (tryStmt block) := by
  refine carries_spanned <| (carries_expect .keywordTry).bind fun _ _ _ =>
    hblock.inside.bind fun body body' hbody => (carries_repeatWhile hadvances
      (carries_nextIs (.inl (by decide))) (handler_carries hblock)).bind
      fun handled handled' hhandled => ?_
  have hstar : handled'.any Prod.snd = handled.any Prod.snd := by
    induction hhandled with
    | nil => rfl
    | cons hfirst _ ih => rw [List.any_cons, List.any_cons, hfirst.2, ih]
  have hhandlers : List.Forall₂ (Handler.Alike passage.like) (handled.map Prod.fst)
      (handled'.map Prod.fst) :=
    List.forall₂_map_left_iff.mpr
      (List.forall₂_map_right_iff.mpr (hhandled.imp fun _ _ hfirst => hfirst.1))
  rw [hstar, isEmpty_eq hhandled]
  refine .ite ((carries_expectOr (.inl (by decide)) _).bindEq fun _ => hblock.inside.bind
    fun _ _ hfinal => .pure fun hspan => .mk hspan (.tryBlock hbody .nil .nil hfinal)) ?_
  exact (elseBlock_carries hblock).bind fun _ _ horElse =>
    (carries_accept (.inl (by decide))).bindEq fun _ =>
      .iteBind _ (hblock.inside.least_le (Nat.zero_le 1)) (.pure .nil) fun _ _ hfinal =>
        .pure fun hspan => .mk hspan (.tryBlock hbody hhandlers horElse hfinal)

omit hblock

private theorem withItem_carries :
    passage.Carries 1 0 (WithItem.Alike passage.like) withItem withItem :=
  carries_spanned <| expr_carries.bind fun _ _ hcontext =>
    (carries_ifAccepted (.inl (by decide)) target_carries).bind fun _ _ htarget =>
      .pure fun hspan => .mk hspan hcontext htarget

include hverbatim

private theorem groupedWithItems?_carries :
    passage.Carries 1 0 (Option.Rel (List.Forall₂ (WithItem.Alike passage.like)))
      groupedWithItems? groupedWithItems? := by
  refine hverbatim.carries_attempt (fun like => List.Forall₂ (WithItem.Alike like))
    (fun hclosed => carries_take.bind fun _ _ _ =>
      (carries_listUntil (by decide) withItem_carries.inside).bind fun items items' hitems => ?_)
    fun {before after items} hreads => ?_
  · rw [isEmpty_eq hitems]
    exact .ite (.pure .none) <| (carries_nextIs (.inl (by decide))).bindEq fun _ =>
      .ite (.pure (.some hitems)) (.pure .none)
  · obtain ⟨last, hitems, hne, -, rfl⟩ := reads_groupedWithItems? hreads
    have hfits := (withItem_lays hverbatim.ordered').lists hverbatim.ordered' (by decide) (by decide)
      (Lists.of_reads hitems)
    obtain ⟨item, hitem⟩ := List.exists_mem_of_ne_nil items hne
    exact hverbatim.stop_le hfits.kinds (hfits.lt (List.mem_map_of_mem hitem))

private theorem withItems_carries :
    passage.Carries 1 0 (List.Forall₂ (WithItem.Alike passage.like)) withItems withItems := by
  have hlisted := carries_commaSeparated hverbatim.closed.sure
    (GrammarLoop.withItems.advances passage.ordered) withItem_carries
  refine (carries_nextIs (.inl (by decide))).bindEq fun _ =>
    .ite ((groupedWithItems?_carries hverbatim).bind fun grouped grouped' hgrouped => ?_) hlisted
  cases hgrouped with
  | some hitems => exact .pure hitems
  | none => exact hlisted

/-! ## Cases -/

omit hverbatim in
private theorem patternSpan?_carries (hclosed : passage.Closed) :
    passage.Carries 1 0 (Option.Rel passage.like.span) patternSpan? patternSpan? := by
  let Passed (passed passed' : Nat × Option Span) : Prop :=
    passed'.1 = passed.1 ∧ Option.Rel passage.like.span passed.2 passed'.2
  refine carries_iterate Passed (GrammarLoop.pattern.advances passage.ordered) ⟨rfl, .none⟩ ?_
  rintro ⟨depth, span⟩ ⟨_, span'⟩ ⟨hdepth, hspan⟩
  cases hdepth
  refine (carries_peekSure hclosed.sure).bind fun token token' htoken => ?_
  dsimp only
  rw [htoken.kind_eq]
  refine .ite (.pure (.done hspan)) ?_
  by_cases hend : token.kind = .endOfInput ∨ token.kind = .invalid ∨ ¬token.kind.isSignificant
  · rw [if_pos hend, if_pos hend]
    exact .bindBy (fun _ _ => False) .throw nofun
  · rw [if_neg hend, if_neg hend]
    simp only [not_or, not_not] at hend
    have htokenSpan := htoken.span hend.2.2
    refine carries_take.bind fun _ _ _ => .pure (.next ⟨rfl, .some ?_⟩)
    cases hspan with
    | some hspan => exact passage.like.join htokenSpan hspan
    | none => exact htokenSpan

private theorem casePattern_carries :
    passage.Carries 1 0 passage.like.pattern casePattern casePattern := by
  intro offset before before' hat pattern after hreads
  obtain ⟨span, hspan, -⟩ := reads_casePattern.mp hreads
  obtain ⟨stop, span', after', hle, hstop, hrelated, hspan'⟩ :=
    patternSpan?_carries hverbatim.closed hat hspan
  cases hrelated with
  | some =>
    by_cases hmargin : stop ≤ passage.length
    · have hreads' := reads_casePattern.mpr ⟨_, hspan' (Nat.add_le_add_right hmargin 1), rfl⟩
      refine ⟨stop, _, after', hle, hstop, ?_, fun _ => hreads'⟩
      obtain ⟨hlt, hsolid, hpattern⟩ := casePattern_eq passage.ordered hreads
      obtain ⟨-, -, hpattern'⟩ := casePattern_eq hverbatim.ordered' hreads'
      rw [hpattern, hpattern']
      rw [hat.next_eq, hstop.next_eq] at hlt hsolid ⊢
      rw [hat.next_eq', hstop.next_eq']
      exact hverbatim.pattern (Nat.lt_of_add_lt_add_left hlt) hmargin hsolid
    · exact ⟨stop, pattern, after', hle, hstop, passage.total.pattern pattern,
        fun h => absurd h (by omega)⟩

include hblock

private theorem withStmt_carries : passage.CarriesStmt (withStmt block) :=
  carries_spanned <| (carries_accept (.inl (by decide))).bindEq fun _ =>
    (carries_expect .keywordWith).bind fun _ _ _ =>
      (withItems_carries hverbatim).bind fun _ _ hitems => hblock.inside.bind fun _ _ hbody =>
        .pure fun hspan => .mk hspan (.withBlock hitems hbody)

private theorem matchCase_carries :
    passage.Carries 1 0 (MatchCase.Alike passage.like) (matchCase block) (matchCase block) :=
  carries_spanned <| carries_take.bind fun _ _ _ =>
    (casePattern_carries hverbatim).bind fun _ _ hpattern =>
      (carries_ifAccepted (.inl (by decide)) namedExpr_carries).bind fun _ _ hguard =>
        hblock.inside.bind fun _ _ hbody => .pure fun hspan => .mk hspan hpattern hguard hbody

omit hblock in
private theorem matchSubject?_carries :
    passage.Carries 1 0 (Option.Rel (Expr.Alike passage.like)) matchSubject? matchSubject? := by
  refine hverbatim.carries_attempt Expr.Alike (fun hclosed => carries_take.bind fun _ _ _ =>
    (Level.starNamedExprs_carries (Level.withInner_carries _) hclosed.sure).bind
      fun _ _ hsubject => (carries_accept (.inl (by decide))).bindEq fun _ =>
        .ite ((carries_accept (.inl (by decide))).bindEq fun _ =>
          .ite ((carries_accept (.inl (by decide))).bindEq fun _ =>
            .ite ((carries_nextIsWord hclosed.sure "case").bindEq fun _ =>
              .ite (.pure (.some hsubject)) (.pure .none)) (.pure .none)) (.pure .none))
          (.pure .none)) fun {before after value} hreads => ?_
  obtain ⟨last, hsubject, hcolon, -, hindent, -, rfl⟩ := reads_matchSubject?.mp hreads
  have hfits := (Level.starNamedExprs_lays hverbatim.ordered'
    (Level.outermost_lays hverbatim.ordered') hsubject).thenToken hverbatim.ordered' hcolon
    (by decide)
  have hinside := hverbatim.stop_le hfits.kinds (hfits.lt (List.mem_singleton_self _))
  -- The indent behind the line break stands in the passage, as no indent comes behind it.
  have hlt : last.step.step.next < passage.start' + passage.length := by
    by_contra hbehind
    exact (hverbatim.behind _ (Nat.le_of_not_lt hbehind)).2 hindent
  exact hlt

private theorem matchStmt?_carries
    (hadvances : Advances (repeatStep (nextIsWord "case") (matchCase block)) passage.tokens) :
    passage.Carries 1 0 (Option.Rel (Stmt.Alike passage.like)) (matchStmt? block)
      (matchStmt? block) := by
  refine carries_mark fun hstart => (matchSubject?_carries hverbatim).bind
    fun subject subject' hsubject => ?_
  cases hsubject with
  | none => exact .pure .none
  | some hsubject =>
    exact (carries_repeatWhile hadvances (carries_nextIsWord hverbatim.closed.sure "case")
      (matchCase_carries hverbatim hblock)).bind fun _ _ hcases =>
        (carries_expect .dedent).bind fun _ _ _ =>
          (carries_spanSince hstart).bind fun _ _ hspan =>
            .pure (.some (.mk hspan (.matchCases hsubject hcases)))

/-! ## Definitions -/

omit hverbatim hblock

private theorem decorators_carries :
    passage.Carries 1 0 (List.Forall₂ (Decorator.Alike passage.like)) decorators decorators :=
  carries_repeatWhile (GrammarLoop.decorators.advances passage.ordered)
    (carries_nextIs (.inl (by decide))) <| carries_spanned <|
      (carries_expect .at).bind fun _ _ _ => namedExpr_carries.bind
        fun _ _ hexpression => (carries_expect .newline).bind fun _ _ _ =>
          .pure fun hspan => .mk hspan hexpression

include hblock

/-- A class definition may end with the closing token. -/
theorem classDef_carries {decorators decorators' : List Decorator}
    (hdecorators : List.Forall₂ (Decorator.Alike passage.like) decorators decorators') :
    passage.Carries 0 1 (StmtForm.Alike passage.like) (classDef block decorators)
      (classDef block decorators') := by
  refine (carries_expect .keywordClass).ahead fun _ _ _ =>
    Level.spannedName_carries.ahead fun name name' hname =>
      typeParams_carries.ahead fun params params' hparams =>
        (carries_accept (.inl (by decide))).ahead fun found found' hfound => ?_
  cases hfound
  have hrest : ∀ arguments arguments', List.Forall₂ (Argument.Alike passage.like) arguments arguments' →
      passage.Carries 0 1 (StmtForm.Alike passage.like)
        (block >>= fun body => pure (.classDef decorators name params arguments body))
        (block >>= fun body => pure (.classDef decorators' name' params' arguments' body)) :=
    fun _ _ harguments => hblock.lead fun _ _ hbody =>
      .pure (.classDef hdecorators hname hparams harguments hbody)
  exact .ite ((Level.arguments_carries (Level.withInner_carries _)).ahead hrest)
    (Carries.ahead (.pure .nil) hrest)

/-- So may the definition of a function. -/
theorem functionDef_carries {decorators decorators' : List Decorator}
    (hdecorators : List.Forall₂ (Decorator.Alike passage.like) decorators decorators') :
    passage.Carries 0 1 (StmtForm.Alike passage.like) (functionDef block decorators)
      (functionDef block decorators') := by
  refine (carries_accept (.inl (by decide))).ahead fun isAsync isAsync' hasync =>
    (carries_expect .keywordDef).ahead fun _ _ _ =>
      Level.spannedName_carries.ahead fun _ _ hname =>
        typeParams_carries.ahead fun _ _ htypeParams =>
          (carries_expect .parenthesisOpen).ahead fun _ _ _ =>
            (Level.params_carries (Level.withInner_carries _) (by decide) (by decide) true).ahead
              fun _ _ hparams =>
                (carries_ifAccepted (.inl (by decide)) expr_carries).ahead
                  fun _ _ hreturns => hblock.lead fun _ _ hbody => .pure ?_
  cases hasync
  exact .functionDef hdecorators hname htypeParams hparams hreturns hbody

/-- A definition that a passage ends with is carried over, the closing token included. -/
theorem definition_carries (hclosed : passage.Closed) :
    passage.Carries 0 1 (Stmt.Alike passage.like) (definition block) (definition block) := by
  refine carries_spanned <| decorators_carries.ahead
    fun decorators decorators' hdecorators => (carries_peekSure hclosed.sure).ahead
      fun token token' htoken => ?_
  rw [htoken.kind_eq]
  split
  · exact (classDef_carries hblock hdecorators).lead fun _ _ hform =>
      .pure fun hspan => .mk hspan hform
  · exact (functionDef_carries hblock hdecorators).lead fun _ _ hform =>
      .pure fun hspan => .mk hspan hform
  · exact (functionDef_carries hblock hdecorators).lead fun _ _ hform =>
      .pure fun hspan => .mk hspan hform
  · exact .throw

/-! ## Blocks -/

omit hblock

include hverbatim

private theorem stmtLineOver_carries {depth : Nat}
    (hblock : passage.CarriesStmts (blockWithin depth)) :
    passage.Carries 1 0 (List.Forall₂ (Stmt.Alike passage.like)) (stmtLineOver (blockWithin depth))
      (stmtLineOver (blockWithin depth)) := by
  have hclosed := hverbatim.closed
  have hone : ∀ {parser : Parser Stmt}, passage.CarriesStmt parser →
      passage.Carries 1 0 (List.Forall₂ (Stmt.Alike passage.like))
        (parser >>= fun stmt => pure [stmt]) (parser >>= fun stmt => pure [stmt]) :=
    fun hparser => hparser.bind fun _ _ hstmt => .pure (.cons hstmt .nil)
  have hdefinition := hone ((definition_carries hblock hclosed).inside.least_le (Nat.zero_le 1))
  have hfor := hone (forStmt_carries hblock hclosed)
  have hwith := hone (withStmt_carries hverbatim hblock)
  have hsimple := (simpleStmts_carries hclosed).inside.least_le (Nat.zero_le 1)
  refine carries_peekTwo fun {first first' second second'} hmeet => ?_
  obtain ⟨hfirst, hasync⟩ : first.Alike passage.like first' ∧
      (first.kind = .keywordAsync → second'.kind = second.kind) := by
    cases hmeet with
    | alike hfirst hsecond => exact ⟨hfirst, fun _ => (hsecond.eq_iff (.inr hclosed.sure)).mpr rfl⟩
    | closing _ hfirst hkind => exact ⟨hfirst, fun h => absurd (by rw [h]; rfl) hkind⟩
    | ends hunsure => exact absurd hclosed.sure hunsure
  dsimp only
  rw [hfirst.kind_eq]
  split
  case h_1 | h_2 | h_3 => exact hdefinition
  case h_4 hkind =>
    rw [hasync hkind]
    split
    · exact hdefinition
    · exact hfor
    · exact hwith
    · exact .throw
  case h_5 => exact hfor
  case h_6 =>
    exact hone (ifStmt_carries hblock ((GrammarLoop.elifClauses depth).advances passage.ordered))
  case h_7 =>
    exact hone (tryStmt_carries hblock ((GrammarLoop.handlers depth).advances passage.ordered))
  case h_8 => exact hone (whileStmt_carries hblock)
  case h_9 => exact hwith
  case h_10 hkind =>
    rw [hfirst.text_eq (.inl hkind)]
    refine .ite ((matchStmt?_carries hverbatim hblock
      ((GrammarLoop.matchCases depth).advances passage.ordered)).bind fun stmt stmt' hstmt => ?_)
      hsimple
    cases hstmt with
    | some hstmt => exact .pure (.cons hstmt .nil)
    | none => exact hsimple
  case h_11 => exact hsimple

private theorem blockOver_carries {depth : Nat}
    (hblock : passage.CarriesStmts (blockWithin depth)) :
    passage.CarriesStmts (blockOver (stmtLineOver (blockWithin depth))) := by
  have hclosed := hverbatim.closed
  have hline := stmtLineOver_carries hverbatim hblock
  have hstmts : passage.Carries 1 0 (List.Forall₂ (Stmt.Alike passage.like))
      (stmtsOver (stmtLineOver (blockWithin depth)) .dedent)
      (stmtsOver (stmtLineOver (blockWithin depth)) .dedent) := by
    refine carries_iterate (List.Forall₂ (Stmt.Alike passage.like))
      ((GrammarLoop.lines depth .dedent).advances passage.ordered) .nil fun {stmts stmts'} hstmts =>
      (carries_peekSure hclosed.sure).bind fun token token' htoken => ?_
    rw [htoken.kind_eq]
    exact .ite (.pure (.done (List.forall₂_reverse_iff.mpr hstmts))) <| .ite .throw <|
      hline.bind fun _ _ hlines =>
        .pure (.next (List.rel_append (List.forall₂_reverse_iff.mpr hlines) hstmts))
  refine (carries_expect .colon).ahead fun _ _ _ => (carries_accept (.inl (by decide))).ahead
    fun found found' hfound => ?_
  cases hfound
  exact .ite ((carries_expectOr (.inl (by decide)) _).ahead fun _ _ _ =>
    hstmts.ahead fun _ _ hbody => (carries_expectSure hclosed.sure .dedent).lead fun _ _ _ =>
      .pure hbody) (simpleStmts_carries hclosed)

/-- A block that a passage ends with is carried over, whatever stands behind it. -/
theorem blockWithin_carries (depth : Nat) : passage.CarriesStmts (blockWithin depth) := by
  induction depth with
  | zero => exact carries_failNext
  | succ depth ih => exact blockOver_carries hverbatim ih

end Parser

end PythonOutline
