import PythonOutline.Proofs.Lexer.Excerpt
import PythonOutline.Proofs.Outline.Definitions
import PythonOutline.Proofs.Tree.StmtStart

/-! # Where the statements of a module stand

Whole lines leave as many levels of indentation open as were open in front of them, and end with
line structure. So each line of a module starts outside of all levels and brackets. Behind the last
text of a definition come a line break and a dedent for every level that is open there, unless a
level holds no text. -/

namespace PythonOutline

/-- The kinds of line structure. -/
theorem TokenKind.eq_of_not_isSignificant {kind : TokenKind} (hkind : ¬kind.isSignificant) :
    kind = .newline ∨ kind = .indent ∨ kind = .dedent := by
  unfold isSignificant at hkind
  split at hkind <;> simp_all

/-! ## Levels and logical lines -/

/-- A token ends some lines and leaves one unfinished, which holds text if the token does. -/
theorem logicalLinesFrom_cons {depth : Nat} (hdepth : 0 < depth) (current : List Token)
    (token : Token) :
    ∃ (lines : List LogicalLine) (depth' : Nat) (current' : List Token),
      (depth' : Int) = depth + Tokens.levelChange token.kind ∧
      (token.kind.isSignificant → current' ≠ []) ∧
      ∀ others, logicalLinesFrom depth current (token :: others) =
        lines ++ logicalLinesFrom depth' current' others := by
  by_cases hkind : token.kind.isSignificant
  · refine ⟨[], depth, current ++ [token], ?_, by simp, fun others => ?_⟩
    · unfold Tokens.levelChange
      split
      · simp_all [TokenKind.isSignificant]
      · simp_all [TokenKind.isSignificant]
      · simp
    · rw [logicalLinesFrom]
      split
      · simp_all [TokenKind.isSignificant]
      · simp_all [TokenKind.isSignificant]
      · simp_all [TokenKind.isSignificant]
      · rfl
  · rcases TokenKind.eq_of_not_isSignificant hkind with hnewline | hindent | hdedent
    · exact ⟨[⟨depth, current⟩], depth, [], by simp [hnewline, Tokens.levelChange],
        fun h => absurd h hkind, fun others => by simp [logicalLinesFrom, hnewline]⟩
    · exact ⟨[], depth + 1, current, by simp [hindent, Tokens.levelChange], fun h => absurd h hkind,
        fun others => by simp [logicalLinesFrom, hindent]⟩
    · refine ⟨[], depth - 1, current, ?_, fun h => absurd h hkind,
        fun others => by simp [logicalLinesFrom, hdedent]⟩
      simp only [hdedent, Tokens.levelChange]
      omega

namespace Tokens

variable {tokens : Tokens} {start stop : Nat} {definitions : List (DeclarationKind × Name)}

private theorem run_succ (hle : start ≤ stop) :
    tokens.run start (stop + 1) = tokens.run start stop ++ [tokens.get stop] := by
  rw [← run_append hle (Nat.le_succ stop), run_cons (Nat.lt_succ_self stop), run_self]

/-- A run of tokens ends some lines and leaves one unfinished, at the depth that its changes of
indentation lead to. -/
theorem logicalLinesFrom_run (start count : Nat) {depth : Nat} (hdepth : count ≤ depth) :
    ∃ (lines : List LogicalLine) (depth' : Nat) (current : List Token), depth ≤ depth' + count ∧
      (depth' : Int) = depth + (tokens.levelAt (start + count) - tokens.levelAt start) ∧
      (0 < count → (tokens.get (start + count - 1)).kind.isSignificant → current ≠ []) ∧
      ∀ others, logicalLinesFrom depth [] (tokens.run start (start + count) ++ others) =
        lines ++ logicalLinesFrom depth' current others := by
  induction count with
  | zero => exact ⟨[], depth, [], Nat.le_refl _, by simp, nofun, by simp⟩
  | succ count ih =>
    obtain ⟨lines, depth', current, hle, hlevel, -, hlines⟩ := ih (Nat.le_of_succ_le hdepth)
    obtain ⟨lines', depth'', current', hlevel', htext, hlines'⟩ :=
      logicalLinesFrom_cons (show 0 < depth' by omega) current (tokens.get (start + count))
    refine ⟨lines ++ lines', depth'', current', ?_, ?_, fun _ => htext, fun others => ?_⟩
    · have hchange : -1 ≤ levelChange (tokens.get (start + count)).kind := by
        unfold levelChange
        split <;> decide
      omega
    · rw [← Nat.add_assoc, levelAt]
      omega
    · rw [← Nat.add_assoc, run_succ (Nat.le_add_right start count), List.append_assoc, hlines,
        List.singleton_append, hlines', List.append_assoc]

/-- Whole lines leave the levels as they found them, and end with line structure. -/
theorem Outlines.ends (houtlines : tokens.Outlines start stop definitions) :
    tokens.levelAt stop = tokens.levelAt start ∧
      (start < stop → ¬(tokens.get (stop - 1)).kind.isSignificant) := by
  obtain ⟨hle, hlines⟩ := houtlines
  obtain ⟨count, rfl⟩ := Nat.exists_eq_add_of_le hle
  obtain ⟨lines, -, -, hlines⟩ := hlines count
  obtain ⟨lines', depth', current, -, hlevel, htext, hlines'⟩ :=
    @logicalLinesFrom_run tokens start count count (Nat.le_refl _)
  have hlast := (hlines [.empty .newline 0]).symm.trans (hlines' _)
  simp only [logicalLinesFrom, Token.empty, List.isEmpty_nil, if_pos] at hlast
  obtain ⟨-, hline⟩ := List.append_inj' hlast rfl
  cases hline
  exact ⟨by omega, fun hlt hkind => htext (by omega) hkind rfl⟩

end Tokens

/-! ## The lines of a module -/

/-- In front of the line that a statement stands in there are whole lines. -/
theorem Parser.Lines.exists_line {tokens : Tokens} {line : Parser (List Stmt)} {stop : TokenKind}
    {before after : Place} {stmts : List Stmt} (hlines : Lines line stop tokens before stmts after)
    (hline : line.OutlinesStmts tokens) {stmt : Stmt} (hstmt : stmt ∈ stmts) :
    ∃ (first : Place) (others : List Stmt) (last : Place),
      (∃ definitions, tokens.Outlines before.next first.next definitions) ∧
      line.Reads tokens (first.look 0) others last ∧ stmt ∈ others := by
  induction hlines with
  | stop => exact (List.not_mem_nil hstmt).elim
  | @line before middle _ earlier others _ _ hfirst _ ih =>
    rcases List.mem_append.mp hstmt with hstmt | hstmt
    · exact ⟨before, earlier, middle, ⟨[], .nil tokens before.next⟩, hfirst, hstmt⟩
    · obtain ⟨first, others, last, ⟨definitions, houtlines⟩, hreads, hstmt⟩ := ih hstmt
      have hbefore := hline hfirst
      exact ⟨first, others, last, ⟨_, hbefore.append houtlines⟩, hreads, hstmt⟩

/-! ## Definitions -/

/-- A definition is told by its first token, or by the one behind an `async`. -/
def Tokens.StartsDefinition (tokens : Tokens) (index : Nat) : Prop :=
  (tokens.get index).kind = .at ∨ (tokens.get index).kind = .keywordClass ∨
    (tokens.get index).kind = .keywordDef ∨
    (tokens.get index).kind = .keywordAsync ∧ (tokens.get (index + 1)).kind = .keywordDef

/-- A definition starts with text that is no bracket. -/
theorem Tokens.StartsDefinition.isPlain {tokens : Tokens} {index : Nat}
    (hstarts : tokens.StartsDefinition index) : (tokens.get index).kind.IsPlain := by
  rcases hstarts with hkind | hkind | hkind | ⟨hkind, -⟩ <;> rw [hkind] <;> decide

namespace Parser

variable {tokens : Tokens} {before after : Place} {stmt : Stmt} {block : Parser (List Stmt)}

section

variable (hordered : tokens.Ordered) (hnests : block.NestsStmts tokens)

include hordered hnests

/-- What is a definition was read as one. -/
theorem ReadsCompound.reads_of_definition? (hcompound : ReadsCompound block tokens before stmt after)
    (hdefinition : stmt.definition?.isSome) :
    tokens.StartsDefinition before.next ∧
      (Parser.definition block).Reads tokens (before.look 1) stmt after := by
  have hother : stmt.definition? ≠ none := Option.isSome_iff_ne_none.mp hdefinition
  cases hcompound with
  | definition hkind hreads => exact ⟨hkind, hreads⟩
  | loop hkind hreads => exact absurd (forStmt_outlines hordered hnests hreads hkind).1 hother
  | context hkind hreads => exact absurd (withStmt_outlines hordered hnests hreads hkind).1 hother
  | conditional _ hreads => exact absurd (ifStmt_outlines hordered hnests hreads).1 hother
  | attempt _ hreads => exact absurd (tryStmt_outlines hordered hnests hreads).1 hother
  | whileLoop hkind hreads =>
    exact absurd (whileStmt_outlines hordered hnests hreads hkind).1 hother
  | cases hkind hreads => exact absurd (matchStmt?_outlines hordered hnests hreads hkind).1 hother

/-- Behind the first token of a definition stands the colon of its header. -/
theorem definition_colon (hreads : (definition block).Reads tokens before stmt after) :
    ∃ index, before.next < index ∧ index < after.next ∧ (tokens.get index).kind = .colon := by
  obtain ⟨decorators, middle, form, hdecorators, -, hform⟩ := reads_definition hreads
  have hle := (decorators_outlines hordered hdecorators).1
  have hclause : ∃ header body, ReadsClause block tokens middle.next header body after := by
    rcases hform with ⟨-, hclass⟩ | ⟨-, hfunction⟩
    · obtain ⟨_, _, _, -, -, hclause, -⟩ := reads_classDef_clause hordered hclass
      exact ⟨_, _, hclause⟩
    · obtain ⟨_, _, _, _, _, _, -, -, -, hclause, -⟩ := reads_functionDef_clause hordered hfunction
      exact ⟨_, _, hclause⟩
  obtain ⟨_, _, header, hlt, -, hbody⟩ := hclause
  obtain ⟨hcolon, hrest⟩ := hnests hbody
  exact ⟨header.next, Nat.lt_of_le_of_lt hle hlt, hrest.1, hcolon⟩

/-- A definition spans the text from its first token to its last one, behind which there is only
line structure. -/
theorem definition_extent (hlays : block.LaysStmts tokens)
    (hreads : (definition block).Reads tokens before stmt after)
    (hfirst : (tokens.kindAt before).IsSolid) :
    ∃ last, before.next < last ∧ last < after.next ∧ (tokens.get last).kind.IsSolid ∧
      (∀ index, last < index → index < after.next → ¬(tokens.get index).kind.isSignificant) ∧
      stmt.span = ⟨(tokens.get before.next).span.start, (tokens.get last).span.stop⟩ := by
  obtain ⟨colon, hgt, hlt, hcolon⟩ := definition_colon hordered hnests hreads
  have hkinds := (definition_lays hordered hlays hreads).kinds
  obtain ⟨_, _, _, -, rfl, -⟩ := Parser.reads_definition hreads
  obtain ⟨first, last, hge, -, hlast, -, hsolid, hextreme, hspan⟩ :=
    Tokens.spanBetween_eq hkinds (Nat.le_refl before.next) (Nat.lt_trans hgt hlt) hfirst
  obtain ⟨hle, -⟩ := hextreme before.next (Nat.le_refl _) (Nat.lt_trans hgt hlt) hfirst
  obtain rfl := Nat.le_antisymm hge hle
  obtain ⟨-, hcolonLe⟩ := hextreme colon (Nat.le_of_lt hgt) hlt (by rw [hcolon]; decide)
  refine ⟨last, Nat.lt_of_lt_of_le hgt hcolonLe, hlast, hsolid, fun index hindex hstop hkind => ?_,
    hspan⟩
  have hreadable := hkinds index (by omega) hstop
  obtain ⟨-, hindexLe⟩ := hextreme index (by omega) hstop ⟨hkind, hreadable.2, hreadable.1⟩
  omega

end

end Parser

/-! ## The end of a definition -/

namespace LayoutStep

variable {before after : Layout} {kind : TokenKind}

/-- Line structure behind text ends the line. -/
theorem endsLine (hstep : LayoutStep before kind after) (hline : before.inLine = true)
    (hkind : ¬kind.isSignificant) : kind = .newline ∧ after.inLine = false := by
  cases hstep with
  | indent | dedent => cases hline
  | text hsolid => exact absurd hsolid.1 hkind
  | newline => exact ⟨rfl, rfl⟩

/-- Between lines it opens a level or closes one. -/
theorem changesLevel (hstep : LayoutStep before kind after) (hline : before.inLine = false)
    (hkind : ¬kind.isSignificant) : kind.ChangesLevel ∧ after.inLine = false := by
  cases hstep with
  | indent => exact ⟨.inl rfl, rfl⟩
  | dedent => exact ⟨.inr rfl, rfl⟩
  | text hsolid => exact absurd hsolid.1 hkind
  | newline => cases hline

end LayoutStep

namespace Tokens

variable {source : String} {index start count last stop : Nat}

/-- Every token but an end of the input takes a step of the layout, from as many levels as are open
in front of it. -/
theorem Ordered.layoutStep (hordered : (ofSource source).Ordered)
    (hkind : ((ofSource source).get index).kind ≠ .endOfInput) :
    LayoutStep ((Lexer.ofSource source).after index).layout ((ofSource source).get index).kind
        ((Lexer.ofSource source).after (index + 1)).layout ∧
      (ofSource source).levelAt index = ((Lexer.ofSource source).after index).layout.depth := by
  have hvalid := hordered.ne_invalid index
  rw [get_ofSource_eq_next] at hkind hvalid ⊢
  rcases (keepsLevel_ofSource source index).2 with ⟨hlayered, hreading, hdepth⟩ | hended
  · rw [Lexer.after_succ]
    exact ⟨(hlayered.next_advances hreading hvalid).1.resolve_right fun hend => hkind hend.1, hdepth⟩
  · rw [show ((Lexer.ofSource source).after index).next = _ from hended] at hkind
    exact absurd rfl hkind

/-- The end of the input counts as significant. -/
theorem ne_endOfInput_of_not_isSignificant {kind : TokenKind} (hkind : ¬kind.isSignificant) :
    kind ≠ .endOfInput := by
  rintro rfl
  exact hkind rfl

/-- Behind a line, line structure up to a place outside of all levels closes a level with each
token, if no level ends right behind its start. -/
theorem Ordered.dedents (hordered : (ofSource source).Ordered)
    (hlevels : ∀ index, ((ofSource source).get index).kind = .indent →
      ((ofSource source).get (index + 1)).kind ≠ .dedent)
    (hline : ((Lexer.ofSource source).after start).layout.inLine = false)
    (hkinds : ∀ index, start ≤ index → index < start + count →
      ¬((ofSource source).get index).kind.isSignificant)
    (hlevel : (ofSource source).levelAt (start + count) = 0) :
    (ofSource source).levelAt start = count ∧
      ∀ index < count, ((ofSource source).get (start + index)).kind = .dedent := by
  induction count generalizing start with
  | zero => exact ⟨hlevel, nofun⟩
  | succ count ih =>
    have hkind := hkinds start (Nat.le_refl _) (by omega)
    obtain ⟨hstep, hdepth⟩ := hordered.layoutStep (ne_endOfInput_of_not_isSignificant hkind)
    obtain ⟨hchange, hline⟩ := hstep.changesLevel hline hkind
    rw [← Nat.add_assoc, Nat.add_right_comm] at hkinds hlevel
    obtain ⟨hopen, hdedents⟩ := ih hline (fun index hge => hkinds index (by omega)) hlevel
    rw [levelAt] at hopen
    rcases hchange with hindent | hdedent
    · -- The level that opens here is closed behind it, and nothing but dedents follow.
      rw [hindent, levelChange] at hopen
      exact absurd (hdedents 0 (by omega)) (hlevels start hindent)
    · rw [hdedent, levelChange] at hopen
      refine ⟨by omega, fun index hlt => ?_⟩
      cases index with
      | zero => exact hdedent
      | succ index =>
        rw [← Nat.add_assoc, Nat.add_right_comm]
        exact hdedents index (Nat.lt_of_succ_lt_succ hlt)

/-- Behind the last text in front of a place outside of all levels come a line break and a dedent
for every level that is open there, if no level ends right behind its start. -/
theorem Ordered.closing_kinds (hordered : (ofSource source).Ordered)
    (hlevels : ∀ index, ((ofSource source).get index).kind = .indent →
      ((ofSource source).get (index + 1)).kind ≠ .dedent)
    (hlast : ((ofSource source).get last).kind.IsSolid) (hlt : last + 1 < stop)
    (hbehind : ∀ index, last < index → index < stop →
      ¬((ofSource source).get index).kind.isSignificant)
    (hlevel : (ofSource source).levelAt stop = 0) :
    ∃ depth : Nat, (ofSource source).levelAt (last + 1) = depth ∧ stop = last + 2 + depth ∧
      ∀ index ≤ depth, ((ofSource source).get (last + 1 + index)).kind = closingKind depth index := by
  obtain ⟨depth, rfl⟩ : ∃ depth, stop = last + 2 + depth := Nat.exists_eq_add_of_le hlt
  have hkind := hbehind (last + 1) (Nat.lt_succ_self last) (by omega)
  have hinLine := (hordered.layoutStep hlast.2.1).1.inLine_eq hlast
  obtain ⟨hstep, -⟩ := hordered.layoutStep (ne_endOfInput_of_not_isSignificant hkind)
  obtain ⟨hbreak, hline⟩ := hstep.endsLine hinLine hkind
  obtain ⟨hopen, hdedents⟩ :=
    hordered.dedents hlevels hline (fun index hge => hbehind index (by omega)) hlevel
  rw [levelAt, hbreak] at hopen
  refine ⟨depth, (Int.add_zero _).symm.trans hopen, rfl, fun index hle => ?_⟩
  cases index with
  | zero => exact hbreak
  | succ index =>
    rw [closingKind, if_pos (Nat.lt_of_succ_le hle), ← hdedents index hle]
    congr 2
    omega

end Tokens

namespace Parser

/-- A definition of a module is read outside of all levels and brackets. It ends with a line break
and a dedent for every level that is open behind its last text. -/
structure ReadsTopLevel (source : String) (before : Place) (stmt : Stmt) (last depth : Nat)
    (after : Place) : Prop where
  reads : (definition block).Reads (.ofSource source) before stmt after
  wasRead : WasRead (.ofSource source) stmt
  starts : (Tokens.ofSource source).StartsDefinition before.next
  levelAt_eq : (Tokens.ofSource source).levelAt before.next = 0
  openers_eq : (Tokens.ofSource source).openers before.next = []
  lt : before.next < last
  isSolid : ((Tokens.ofSource source).get last).kind.IsSolid
  depth_eq : (Tokens.ofSource source).levelAt (last + 1) = depth
  next_eq : after.next = last + 2 + depth
  closing : ∀ index ≤ depth,
    ((Tokens.ofSource source).get (last + 1 + index)).kind = closingKind depth index
  span_eq : stmt.span = ⟨((Tokens.ofSource source).get before.next).span.start,
    ((Tokens.ofSource source).get last).span.stop⟩

end Parser

/-- So is every definition among the statements of a module, if no level ends right behind
its start. -/
theorem exists_readsTopLevel {source : String} {module : Module} {stmt : Stmt}
    (hparse : parseModule source = .ok module) (hstmt : stmt ∈ module.body)
    (hdefinition : stmt.definition?.isSome)
    (hlevels : ∀ index, ((Tokens.ofSource source).get index).kind = .indent →
      ((Tokens.ofSource source).get (index + 1)).kind ≠ .dedent) :
    ∃ before last depth after, Parser.ReadsTopLevel source before stmt last depth after := by
  obtain ⟨body, final, hbody, -, hordered, rfl⟩ := reads_of_parseModule hparse
  have hnests : Parser.block.NestsStmts (.ofSource source) := Parser.blockWithin_nests hordered _
  obtain ⟨first, others, after, ⟨_, hbefore⟩, hline, hstmt⟩ :=
    (Parser.reads_stmtsOver hbody).exists_line (Parser.stmtLineOver_outlines hordered hnests) hstmt
  obtain ⟨hstarts, hreads⟩ : (Tokens.ofSource source).StartsDefinition (first.look 0).next ∧
      (Parser.definition Parser.block).Reads (.ofSource source) ((first.look 0).look 1) stmt after := by
    rcases Parser.reads_stmtLineOver hline with ⟨_, rfl, hcompound⟩ | ⟨-, _, -, hsimple⟩
    · obtain rfl := List.mem_singleton.mp hstmt
      exact hcompound.reads_of_definition? hordered hnests hdefinition
    · have hnone := List.filterMap_eq_nil_iff.mp (Parser.simpleStmts_definition? hsimple) stmt hstmt
      exact absurd hnone (Option.isSome_iff_ne_none.mp hdefinition)
  have hwithin := Parser.definition_outlines hordered hnests hreads
  rw [Place.look_next, Place.look_next] at hwithin
  obtain ⟨hlevel, hbehind⟩ := hbefore.ends
  obtain ⟨hlevelAfter, hending⟩ := (hbefore.append hwithin).ends
  obtain ⟨last, hlt, hstop, hsolid, hstructure, hspan⟩ := Parser.definition_extent hordered hnests
    (Parser.blockWithin_lays hordered _) hreads hstarts.isPlain.1
  have hlast : last + 1 < after.next := by
    refine Nat.lt_of_le_of_ne hstop fun heq => hending (Nat.zero_lt_of_lt hstop) ?_
    rw [← heq]
    exact hsolid.1
  obtain ⟨depth, hdepth, hnext, hclosing⟩ :=
    hordered.closing_kinds hlevels hsolid hlast hstructure hlevelAfter
  refine ⟨_, last, depth, after, hreads, Parser.stmtLineOver_readsStmts _ hline stmt hstmt, hstarts,
    hlevel, ?_, hlt, hsolid, hdepth, hnext, hclosing, hspan⟩
  rw [Place.look_next, Place.look_next]
  cases hfirst : first.next with
  | zero => rfl
  | succ index =>
    rw [hfirst] at hbehind
    exact ((Tokens.matched_ofSource source).openers_structural (hbehind (Nat.succ_pos index))).2

end PythonOutline
