import PythonOutline.Proofs.Lexer.Run
import PythonOutline.Proofs.Tree.LaminarStmt

/-! # No text is lost

The statements of a module stand for runs of tokens one behind the other, and each of them has the
span of its run. Only line structure and semicolons stand between the runs, so every other token
belongs to exactly one statement. -/

namespace PythonOutline

instance (inner outer : Span) : Decidable (inner.Within outer) :=
  inferInstanceAs (Decidable (_ ∧ _))

/-- The statements whose spans hold that of a token. -/
def Token.holders (token : Token) (stmts : List Stmt) : List Stmt :=
  stmts.filter fun stmt => token.span.Within stmt.span

private theorem Token.holders_cons (token : Token) (stmt : Stmt) (stmts : List Stmt) :
    token.holders (stmt :: stmts) =
      if token.span.Within stmt.span then stmt :: token.holders stmts else token.holders stmts := by
  simp [holders, List.filter_cons]

/-! ## Statements and the runs of tokens they stand for -/

/-- Statements cover a run of tokens: each has the span of a part of the run that starts with text,
the parts follow each other, and of the tokens between them those with text are semicolons. -/
inductive Tokens.Covers (tokens : Tokens) : Nat → List Stmt → Nat → Prop where
  | nil {index : Nat} : Covers tokens index [] index
  | between {start stop : Nat} {stmts : List Stmt}
      (hkind : (tokens.get start).kind.IsSolid → (tokens.get start).kind = .semicolon)
      (hrest : Covers tokens (start + 1) stmts stop) : Covers tokens start stmts stop
  | stmt {start middle stop : Nat} {stmt : Stmt} {stmts : List Stmt}
      (hlt : start < middle) (hsolid : (tokens.get start).kind.IsSolid)
      (hreadable : ∀ index, start ≤ index → index < middle → (tokens.get index).kind.IsReadable)
      (hspan : stmt.span = tokens.spanBetween start middle)
      (hrest : Covers tokens middle stmts stop) : Covers tokens start (stmt :: stmts) stop

namespace Tokens.Covers

variable {tokens : Tokens} {start middle stop : Nat} {stmts others : List Stmt}

/-- Runs behind each other are covered by the statements of both. -/
theorem append (hfirst : tokens.Covers start stmts middle)
    (hsecond : tokens.Covers middle others stop) : tokens.Covers start (stmts ++ others) stop := by
  induction hfirst with
  | nil => exact hsecond
  | between hkind _ ih => exact .between hkind (ih hsecond)
  | stmt hlt hsolid hreadable hspan _ ih => exact .stmt hlt hsolid hreadable hspan (ih hsecond)

/-- A token between statements. -/
theorem token {index : Nat} {kind : TokenKind} (hkind : (tokens.get index).kind = kind)
    (hbetween : kind.IsSolid → kind = .semicolon) : tokens.Covers index [] (index + 1) :=
  .between (by rwa [hkind]) .nil

/-- A statement whose run of tokens is laid out. -/
theorem single {stmt : Stmt} (hfits : tokens.Fits TokenKind.IsReadable start stop [stmt.node])
    (hsolid : (tokens.get start).kind.IsSolid) (hspan : stmt.span = tokens.spanBetween start stop) :
    tokens.Covers start [stmt] stop :=
  .stmt (hfits.lt (List.mem_singleton_self _)) hsolid hfits.kinds hspan .nil

variable {stmt : Stmt}

section

variable (hordered : tokens.Ordered)

include hordered

/-- The span of a run holds the text of the run. -/
theorem within_of_mem (hlt : start < middle) (hsolid : (tokens.get start).kind.IsSolid)
    (hreadable : ∀ index, start ≤ index → index < middle → (tokens.get index).kind.IsReadable)
    (hspan : stmt.span = tokens.spanBetween start middle) {index : Nat} (hstart : start ≤ index)
    (hstop : index < middle) (hkind : (tokens.get index).kind.IsSolid) :
    (tokens.get index).span.Within stmt.span := by
  obtain ⟨first, last, -, -, -, hfirst, hlast, hextreme, heq⟩ :=
    spanBetween_eq hreadable (Nat.le_refl _) hlt hsolid
  obtain ⟨hge, hle⟩ := hextreme index hstart hstop hkind
  rw [hspan, heq]
  exact ⟨hordered.start_le_start hge hfirst hkind, hordered.stop_le_stop hle hkind hlast⟩

/-- The span of a run ends in front of the text behind the run. -/
theorem stop_le_of_le (hlt : start < middle) (hsolid : (tokens.get start).kind.IsSolid)
    (hreadable : ∀ index, start ≤ index → index < middle → (tokens.get index).kind.IsReadable)
    (hspan : stmt.span = tokens.spanBetween start middle) {index : Nat} (hle : middle ≤ index)
    (hkind : (tokens.get index).kind.IsSolid) :
    stmt.span.stop ≤ (tokens.get index).span.start := by
  obtain ⟨first, last, -, -, hstop, -, hlast, -, heq⟩ :=
    spanBetween_eq hreadable (Nat.le_refl _) hlt hsolid
  rw [hspan, heq]
  exact hordered.stop_le last index (by omega) hlast hkind

omit hordered in
/-- The span of a statement starts where a token of the run does. -/
theorem exists_start (hcovers : tokens.Covers start stmts stop) (hstmt : stmt ∈ stmts) :
    ∃ first, start ≤ first ∧ (tokens.get first).kind.IsSolid ∧
      stmt.span.start = (tokens.get first).span.start := by
  induction hcovers with
  | nil => cases hstmt
  | between _ _ ih =>
    obtain ⟨first, hle, hfirst⟩ := ih hstmt
    exact ⟨first, by omega, hfirst⟩
  | stmt hlt hsolid hreadable hspan _ ih =>
    rcases List.mem_cons.mp hstmt with rfl | hstmt
    · obtain ⟨first, last, hle, -, -, hfirst, -, -, heq⟩ :=
        spanBetween_eq hreadable (Nat.le_refl _) hlt hsolid
      rw [hspan, heq]
      exact ⟨first, hle, hfirst, rfl⟩
    · obtain ⟨first, hle, hfirst⟩ := ih hstmt
      exact ⟨first, by omega, hfirst⟩

/-- The statements stand in the order of their text. -/
theorem pairwise (hcovers : tokens.Covers start stmts stop) :
    stmts.Pairwise fun earlier later => earlier.span.stop ≤ later.span.start := by
  induction hcovers with
  | nil => exact .nil
  | between _ _ ih => exact ih
  | stmt hlt hsolid hreadable hspan hrest ih =>
    refine .cons (fun later hlater => ?_) ih
    obtain ⟨first, hle, hfirst, heq⟩ := hrest.exists_start hlater
    rw [heq]
    exact stop_le_of_le hordered hlt hsolid hreadable hspan hle hfirst

/-- No statement of a run holds a token in front of it. -/
theorem holders_of_lt (hcovers : tokens.Covers start stmts stop) {index : Nat}
    (hlt : index < start) (hkind : (tokens.get index).kind.IsSolid) :
    (tokens.get index).holders stmts = [] := by
  refine List.filter_eq_nil_iff.mpr fun stmt hstmt hwithin => ?_
  obtain ⟨first, hle, hfirst, heq⟩ := hcovers.exists_start hstmt
  have hstop := hordered.stop_le index first (by omega) hkind hfirst
  have hstart := hordered.start_lt index hkind
  have hbegin : stmt.span.start ≤ _ := (of_decide_eq_true hwithin).1
  omega

/-- A token with text is held by one statement of its run, unless it is a semicolon. -/
theorem exists_holder (hcovers : tokens.Covers start stmts stop) {index : Nat}
    (hstart : start ≤ index) (hstop : index < stop) (hkind : (tokens.get index).kind.IsSolid)
    (hsemicolon : (tokens.get index).kind ≠ .semicolon) :
    ∃ stmt, (tokens.get index).holders stmts = [stmt] := by
  induction hcovers with
  | nil => omega
  | @between start _ _ hbetween _ ih =>
    have hne : start ≠ index := by
      rintro rfl
      exact hsemicolon (hbetween hkind)
    exact ih (by omega) hstop
  | @stmt start middle _ stmt stmts hlt hsolid hreadable hspan hrest ih =>
    by_cases hmiddle : index < middle
    · have hwithin := within_of_mem hordered hlt hsolid hreadable hspan hstart hmiddle hkind
      rw [Token.holders_cons, if_pos hwithin, hrest.holders_of_lt hordered hmiddle hkind]
      exact ⟨stmt, rfl⟩
    · have houtside : ¬(tokens.get index).span.Within stmt.span := by
        intro hwithin
        have hend := stop_le_of_le hordered hlt hsolid hreadable hspan (by omega) hkind
        have htext := hordered.start_lt index hkind
        have hinside : _ ≤ stmt.span.stop := hwithin.2
        omega
      rw [Token.holders_cons, if_neg houtside]
      exact ih (by omega) hstop

end

end Tokens.Covers

namespace Parser

variable {tokens : Tokens} {before after : Place} {stmt : Stmt} {stmts : List Stmt}
  {block : Parser (List Stmt)}

/-! ## The spans of statements -/

/-- A simple statement has the span of the tokens it takes. -/
theorem simpleStmt_span (hreads : simpleStmt.Reads tokens before stmt after) :
    stmt.span = tokens.spanBetween before.next after.next := by
  rw [reads_simpleStmt] at hreads
  split at hreads
  case h_1 =>
    obtain ⟨-, test, middle, -, message, -, rfl⟩ := reads_assertStmt.mp hreads
    rfl
  case h_4 =>
    obtain ⟨-, first, middle, others, -, -, rfl⟩ := reads_deleteStmt hreads
    rfl
  case h_5 =>
    obtain ⟨-, level, middle, module, last, names, -, -, -, -, rfl⟩ := reads_importFrom hreads
    rfl
  case h_7 =>
    obtain ⟨-, names, -, rfl⟩ := reads_importModules.mp hreads
    rfl
  case h_10 =>
    obtain ⟨-, hrest⟩ := reads_raiseStmt.mp hreads
    split at hrest
    · obtain ⟨exception, middle, -, cause, -, rfl⟩ := hrest
      rfl
    · obtain ⟨-, rfl⟩ := hrest
      rfl
  case h_11 =>
    obtain ⟨-, hrest⟩ := reads_returnStmt.mp hreads
    split at hrest
    · obtain ⟨value, -, rfl⟩ := hrest
      rfl
    · obtain ⟨-, rfl⟩ := hrest
      rfl
  case h_12 =>
    split at hreads
    · obtain ⟨-, params, middle, -, -, value, -, rfl⟩ := reads_typeAliasStmt.mp hreads
      rfl
    · obtain ⟨first, middle, form, -, rfl, -⟩ := reads_expressionStmt hreads
      rfl
  case h_13 =>
    obtain ⟨first, middle, form, -, rfl, -⟩ := reads_expressionStmt hreads
    rfl
  case h_6 | h_8 =>
    obtain ⟨names, -, rfl⟩ := reads_namesStmt.mp hreads
    rfl
  all_goals
    obtain ⟨-, rfl⟩ := reads_keywordStmt.mp hreads
    rfl

/-- A compound statement has the span of the tokens it takes. -/
theorem ReadsCompound.span (hcompound : ReadsCompound block tokens before stmt after) :
    stmt.span = tokens.spanBetween before.next after.next := by
  cases hcompound with
  | definition _ hreads =>
    obtain ⟨decorators, middle, form, -, rfl, -⟩ := reads_definition hreads
    rfl
  | loop _ hreads =>
    obtain ⟨_, _, _, _, _, _, _, _, _, -, -, -, -, -, -, -, rfl⟩ := reads_forStmt hreads
    rfl
  | context _ hreads =>
    obtain ⟨_, _, _, _, _, -, -, -, -, rfl⟩ := reads_withStmt hreads
    rfl
  | conditional _ hreads =>
    obtain ⟨first, middle, hfirst, hcompletes⟩ := reads_ifStmt hreads
    obtain ⟨-, test, _, -, body, -, rfl⟩ := reads_ifClause.mp hfirst
    cases hcompletes <;> rfl
  | attempt _ hreads =>
    obtain ⟨-, _, _, _, _, -, -, _, _, rfl, -⟩ := reads_tryStmt hreads
    rfl
  | whileLoop _ hreads =>
    obtain ⟨-, _, _, -, _, _, -, _, -, rfl⟩ := reads_whileStmt.mp hreads
    rfl
  | cases _ hreads =>
    obtain ⟨_, _, _, _, -, -, -, -, rfl⟩ := reads_matchStmt?_some hreads
    rfl

/-- A compound statement starts with text. -/
theorem ReadsCompound.isSolid (hcompound : ReadsCompound block tokens before stmt after) :
    (tokens.kindAt before).IsSolid := by
  rcases hcompound.opensCompound_or with hopens | hkind
  · unfold opensCompound at hopens
    split at hopens <;> first | contradiction | (rename_i hkind; rw [hkind]; decide)
  · rw [hkind]
    decide

/-! ## Lines -/

section

variable (hordered : tokens.Ordered)

include hordered

private theorem simpleStmt_covers (hreads : simpleStmt.Reads tokens before stmt after) :
    tokens.Covers before.next [stmt] after.next := by
  have hfits := simpleStmt_lays hordered hreads
  exact .single (hfits.weaken fun _ hsolid => hsolid.isReadable)
    (hfits.kinds _ (Nat.le_refl _) (hfits.lt (List.mem_singleton_self _))) (simpleStmt_span hreads)

/-- The statements behind the first one on a line cover it, but for the semicolons. -/
theorem Continues.covers
    (hcontinues : Continues .semicolon (· != .newline) simpleStmt tokens before stmts after) :
    tokens.Covers before.next stmts after.next := by
  induction hcontinues with
  | stop => exact .nil
  | trailing hsemicolon => exact .token hsemicolon fun _ => rfl
  | item hsemicolon _ hitem _ ih =>
    exact .between (fun _ => hsemicolon) ((simpleStmt_covers hordered hitem).append ih)

private theorem simpleStmts_covers (hreads : simpleStmts.Reads tokens before stmts after) :
    tokens.Covers before.next stmts after.next := by
  obtain ⟨first, middle, others, last, hfirst, hothers, hline, rfl, rfl⟩ := reads_simpleStmts hreads
  have hall := (simpleStmt_covers hordered hfirst).append (hothers.covers hordered)
  have hbreak : tokens.Covers last.next [] last.step.next := .token hline (by decide)
  simpa using hall.append hbreak

private theorem stmtLineOver_covers (hblock : block.LaysStmts tokens)
    (hreads : (stmtLineOver block).Reads tokens before stmts after) :
    tokens.Covers before.next stmts after.next := by
  rcases reads_stmtLineOver hreads with ⟨stmt, rfl, hcompound⟩ | ⟨-, start, hstart, hsimple⟩
  · exact .single (compound_fits hordered hblock hcompound) hcompound.isSolid hcompound.span
  · rw [← hstart]
    exact simpleStmts_covers hordered hsimple

private theorem stmts_covers {stop : TokenKind}
    (hreads : (Parser.stmts stop).Reads tokens before stmts after) :
    tokens.Covers before.next stmts after.next := by
  have hlines := reads_stmtsOver hreads
  clear hreads
  induction hlines with
  | stop => exact .nil
  | line _ _ hfirst _ ih =>
    exact (stmtLineOver_covers hordered (blockWithin_lays hordered _) hfirst).append ih

end

end Parser

/-- Nothing of a module is lost: the spans of its statements follow each other, and every token that
carries text and is no semicolon lies within the span of exactly one of them. -/
theorem parseModule_covers (source : String) (module : Module)
    (hparse : parseModule source = .ok module) :
    (module.body.Pairwise fun earlier later => earlier.span.stop ≤ later.span.start) ∧
      ∀ index, ((Tokens.ofSource source).get index).kind.isSignificant →
        ((Tokens.ofSource source).get index).kind ≠ .endOfInput →
        ((Tokens.ofSource source).get index).kind ≠ .semicolon →
        ∃ stmt, ((Tokens.ofSource source).get index).holders module.body = [stmt] := by
  obtain ⟨body, last, hbody, hend, hordered, rfl⟩ := reads_of_parseModule hparse
  have hcovers := Parser.stmts_covers hordered hbody
  refine ⟨hcovers.pairwise hordered, fun index hsignificant hinside hsemicolon => ?_⟩
  have hlast : index < last.next := by
    refine Nat.lt_of_not_le fun hle => hinside ?_
    have hsize := (Tokens.kind_ofSource_eq_endOfInput_iff source last.next).mp hend
    exact (Tokens.kind_ofSource_eq_endOfInput_iff source index).mpr (by omega)
  exact hcovers.exists_holder hordered (Nat.zero_le _) hlast
    ⟨hsignificant, hinside, hordered.ne_invalid index⟩ hsemicolon

/-- Two statements on a line, and a block whose last semicolon no statement follows. -/
theorem parseModule_covers_lines :
    ∃ module, parseModule "a; b\nif c:\n  d;\n" = .ok module ∧
      (module.body.Pairwise fun earlier later => earlier.span.stop ≤ later.span.start) ∧
      ∀ index, ((Tokens.ofSource "a; b\nif c:\n  d;\n").get index).kind.isSignificant →
        ((Tokens.ofSource "a; b\nif c:\n  d;\n").get index).kind ≠ .endOfInput →
        ((Tokens.ofSource "a; b\nif c:\n  d;\n").get index).kind ≠ .semicolon →
        ∃ stmt, ((Tokens.ofSource "a; b\nif c:\n  d;\n").get index).holders module.body = [stmt] := by
  have hparses : (parseModule "a; b\nif c:\n  d;\n").isOk := by decide +kernel
  cases hparse : parseModule "a; b\nif c:\n  d;\n" with
  | error failure =>
    rw [hparse] at hparses
    cases hparses
  | ok module => exact ⟨module, rfl, parseModule_covers _ module hparse⟩

end PythonOutline
