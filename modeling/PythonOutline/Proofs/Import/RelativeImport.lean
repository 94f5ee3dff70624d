import PythonOutline.Outline.Basic
import PythonOutline.Proofs.Import.Parse
import PythonOutline.Proofs.Import.Place

/-! # The records of relative imports

A relative import yields one record for each of its names, in the order in which they are written,
and the module of each record has as many dots in front of its path as were written. That holds
however the tokens of the import are spaced out, and so whatever groups the lexer puts the dots
into. An import on a line of its own is a module, and in any module an import yields its records
between those of the statements around it. -/

namespace PythonOutline

open PythonOutline.Parser

variable {written : RelativeImport} {text : List Char}

/-! ## Imports among other statements -/

/-- A statement whose text is a relative import makes the imports that were written. -/
theorem RelativeImport.bindings_of_slice {source : String} {module : Module} {stmt : Stmt}
    (hlevel : 1 ≤ written.level)
    (hspaced : Spaced false (.fixed .keywordFrom) written.lexemes text)
    (hparse : parseModule source = .ok module) (hstmt : stmt ∈ module.body)
    (hslice : Text.slice source.toList stmt.span.start stmt.span.stop = "from".toList ++ text) :
    (Import.ofStmt source.toList stmt).map Import.binding = written.bindings := by
  obtain ⟨body, last, hbody, -, hordered, rfl⟩ := reads_of_parseModule hparse
  have hfrom : ∀ {start stop : Place}, ((Tokens.ofSource source).kindAt start).IsSolid →
      start.next < stop.next →
      stmt.span = (Tokens.ofSource source).spanBetween start.next stop.next →
      (Tokens.ofSource source).kindAt start = .keywordFrom := by
    intro start stop hsolid hlt hspan
    rw [hspan, Tokens.spanBetween_start hsolid.1 hlt] at hslice
    exact (hordered.lexeme_of_slice hsolid hslice (RelativeImport.standsBefore_from hspaced)).1.2.1
  obtain ⟨start, stop, hcompound | ⟨hsimple, hbehind⟩⟩ := (reads_stmtsOver hbody).exists_reads hstmt
  · have hfits := compound_fits hordered (blockWithin_lays hordered _) hcompound
    exact absurd (hfrom hcompound.isSolid (hfits.lt (List.mem_singleton_self _)) hcompound.span)
      hcompound.kindAt_ne_from
  · have hfits := simpleStmt_lays hordered hsimple
    have hlt := hfits.lt (List.mem_singleton_self _)
    have hsolid := hfits.kinds start.next (Nat.le_refl _) hlt
    have hkind := hfrom hsolid hlt (simpleStmt_span hsimple)
    have hlast : stop.next - 1 + 1 = stop.next := by omega
    have hlastSolid := hfits.kinds (stop.next - 1) (by omega) (by omega)
    rw [simpleStmt_span hsimple, Tokens.spanBetween_of_isSolid hlt hfits.kinds] at hslice
    dsimp only at hslice
    obtain ⟨grouped, hgrouped, hspells⟩ :=
      hordered.spells_of_slice hspaced hsolid hlastSolid hslice
    rw [hlast] at hspells
    obtain ⟨imported, after, himported, -, hbindings⟩ :=
      @importFrom_reads _ (start.look 2) _ _ _ hlevel hgrouped hspells hbehind
    rw [reads_simpleStmt, hkind] at hsimple
    cases Eq.trans (Eq.symm hsimple) himported
    exact hbindings _

/-! ## Imports on lines of their own -/

/-- Where a source starts with a token that is text and no bracket, the lexer goes on behind it. -/
theorem Lexer.ofSource_next {source : String} {lexeme : Lexeme} {behind : List Char}
    (hsource : source.toList = lexeme.text.toList ++ behind) (hplain : lexeme.kind.IsPlain)
    (hstands : lexeme.StandsBefore behind) :
    (Lexer.ofSource source).next.1.kind = lexeme.kind ∧
      (Lexer.ofSource source).next.1.text = lexeme.text ∧
      (Lexer.ofSource source).next.2 =
        { Lexer.ofSource source with
          cursor := ⟨behind, Text.byteLength lexeme.text.toList⟩
          atLineStart := false
          lineHasTokens := true } := by
  obtain ⟨first, others, htext, hstart, hread⟩ := hstands
  have hreading := Lexer.ofSource_reading source
  have hcursor : (Lexer.ofSource source).cursor = ⟨lexeme.text.toList ++ behind, 0⟩ := by
    simp [Lexer.ofSource, Lexer.start, hsource, htext, hstart.ne_byteOrderMark]
  have hrest : (Lexer.ofSource source).cursor.rest = first :: (others ++ behind) := by
    rw [hcursor, htext]
    rfl
  have hentered : (Lexer.ofSource source).readLineStart =
      .ok (none, { Lexer.ofSource source with atLineStart := false }) :=
    Lexer.readIndentation_startsLexeme hstart hrest rfl
  have htrivia : skipTrivia false (Lexer.ofSource source).cursor =
      .ok ⟨lexeme.text.toList ++ behind, 0⟩ := by
    rw [hcursor, htext]
    exact Lexer.skipTriviaFrom_startsLexeme hstart
  have hbreak : (⟨lexeme.text.toList ++ behind, 0⟩ : Cursor).skipLineBreak? = none := by
    simp [htext, Cursor.skipLineBreak?, hstart.ne_lineFeed, hstart.ne_carriageReturn]
  have hnext := hreading.read_significant rfl hentered htrivia
    (by rw [htext]; rfl : Cursor.peek? _ = some first) hbreak
  rw [Lexer.readSignificant_lexeme rfl (hread 0) (Lexer.trackBrackets_plain hplain _ _ _),
    Nat.zero_add] at hnext
  rw [hreading.next_eq hnext]
  exact ⟨rfl, rfl, rfl⟩

/-- At the end of the only line stand a line break and the end of the input. -/
theorem Lexer.Amid.next_kinds {lexer : Lexer} (hamid : lexer.Amid true ['\n'] 0) :
    lexer.next.1.kind = .newline ∧ lexer.next.2.next.1.kind = .endOfInput := by
  obtain ⟨first, others, hrun, hfirst, hothers⟩ := List.map_eq_cons_iff.mp (hamid.runFor_end 0)
  obtain ⟨second, _, rfl, hsecond, -⟩ := List.map_eq_cons_iff.mp hothers
  have hcalls : ∀ {index step}, (first :: second :: _)[index]? = some step →
      step = (lexer.after index).next :=
    fun hstep => Lexer.runFor_getElem? (hrun ▸ hstep)
  rw [@hcalls 0 first rfl] at hfirst
  rw [@hcalls 1 second rfl] at hsecond
  exact ⟨(Prod.mk.inj hfirst).1, (Prod.mk.inj hsecond).1⟩

/-- An import from a module on a line of its own. -/
def importLine (text : List Char) : String :=
  String.ofList ("from".toList ++ text) ++ "\n"

private theorem toList_importLine (text : List Char) :
    (importLine text).toList = "from".toList ++ (text ++ ['\n']) := by
  unfold importLine
  calc (String.ofList ("from".toList ++ text) ++ "\n").toList
      = (String.ofList ("from".toList ++ text)).toList ++ "\n".toList := String.toList_append ..
    _ = ("from".toList ++ text) ++ ['\n'] := congrArg (· ++ ['\n']) (String.toList_ofList ..)
    _ = "from".toList ++ (text ++ ['\n']) := List.append_assoc ..

/-- The tokens of the line are those of the import, the line break and the end of the input. -/
theorem spells_importLine (hspaced : Spaced false (.fixed .keywordFrom) written.lexemes text) :
    ∃ stop grouped, Grouped written.lexemes grouped ∧
      (Tokens.ofSource (importLine text)).Spells 0 stop (.fixed .keywordFrom :: grouped) ∧
      ((Tokens.ofSource (importLine text)).get stop).kind = .newline ∧
      ((Tokens.ofSource (importLine text)).get (stop + 1)).kind = .endOfInput := by
  have hword : (Lexeme.fixed .keywordFrom).text = "from" := by decide +kernel
  have hsource : (importLine text).toList =
      (Lexeme.fixed .keywordFrom).text.toList ++ (text ++ ['\n']) :=
    hword ▸ toList_importLine text
  obtain ⟨hkind, htext, hbase⟩ := Lexer.ofSource_next hsource (by decide)
    (RelativeImport.standsBefore_from hspaced ['\n'])
  have hreading := Lexer.ofSource_reading (importLine text)
  generalize hlexer : (Lexer.ofSource (importLine text)).next.2 = base at hbase
  have hamid : base.AmidLine := by
    rw [hbase]
    exact ⟨rfl, rfl, rfl⟩
  have hstands : Tokens.StandsAt (importLine text) base false
      ⟨text ++ ['\n'], Text.byteLength (Lexeme.fixed .keywordFrom).text.toList⟩ 1 := by
    refine ⟨⟨[], ?_, rfl⟩, ?_⟩
    · rw [Lexer.after, Lexer.after, hlexer, hbase]
      rfl
    · exact hreading.next_reading (by rw [hkind]; decide)
  obtain ⟨grouped, hgrouped, hspells, hend⟩ :=
    Tokens.spells_of_spaced hamid hspaced hstands rfl written.inImport fun last hlast =>
      ⟨written.names.kind_ne_dot last (RelativeImport.mem_names_of_getLast? hlast), fun _ _ _ =>
        (written.inImport last (List.mem_of_getLast? hlast)).standsBefore_lineFeed⟩
  have hline : ((Lexer.ofSource (importLine text)).after (1 + grouped.length)).Amid true ['\n'] 0 := by
    obtain ⟨opened, hmoved, hopened⟩ := hend.moved
    obtain rfl : opened = [] := List.map_eq_nil_iff.mp hopened
    rw [hmoved, hbase]
    exact ⟨rfl, rfl, rfl, rfl, rfl, rfl, rfl, .inl rfl⟩
  obtain ⟨hnewline, hinput⟩ := hline.next_kinds
  refine ⟨1 + grouped.length, grouped, hgrouped, ?_, ?_, ?_⟩
  · obtain ⟨hindex, hfirst⟩ := @Tokens.get_of_next _ 0 (.fixed .keywordFrom) hkind htext (by decide)
    exact ⟨hindex, hfirst.1, hfirst.2, hspells⟩
  · rw [Tokens.get_ofSource_eq_next]
    exact hnewline
  · rw [Tokens.get_ofSource_eq_next, Lexer.after_succ]
    exact hinput

/-- An import on a line of its own is a module of one statement, which makes the imports that were
written. -/
theorem parseModule_importLine (hlevel : 1 ≤ written.level)
    (hspaced : Spaced false (.fixed .keywordFrom) written.lexemes text) :
    ∃ module stmt, parseModule (importLine text) = .ok module ∧ module.body = [stmt] ∧
      ∀ source, (Import.ofStmt source stmt).map Import.binding = written.bindings := by
  obtain ⟨stop, grouped, hgrouped, hspells, hnewline, hinput⟩ := spells_importLine hspaced
  have hvalid : ∀ index, ((Tokens.ofSource (importLine text)).get index).kind ≠ .invalid := by
    intro index
    rcases Nat.lt_trichotomy index stop with hlt | rfl | hlt
    · obtain ⟨lexeme, hlexeme, hkind⟩ := hspells.exists_mem (Nat.zero_le _) hlt
      have hsolid : lexeme.kind.IsSolid := by
        rcases List.mem_cons.mp hlexeme with rfl | hlexeme
        · decide
        · exact hgrouped.forall_mem (fun other hother =>
            Tokens.isSolid_of_inImport (written.inImport other hother)) (by decide) lexeme hlexeme
      rw [hkind]
      exact hsolid.2.2
    · rw [hnewline]
      decide
    · have hsize := (Tokens.kind_ofSource_eq_endOfInput_iff _ _).mp hinput
      rw [(Tokens.kind_ofSource_eq_endOfInput_iff _ index).mpr (by omega)]
      decide
  have hkind : (Tokens.ofSource (importLine text)).kindAt .start = .keywordFrom := hspells.2.1
  obtain ⟨stmt, after, himport, rfl, hbindings⟩ :=
    @importFrom_reads _ (((Place.start.look 0).look 1).look 2) _ _ _ hlevel hgrouped hspells
      (.inr hnewline)
  have hsimple : simpleStmt.Reads (Tokens.ofSource (importLine text)) ((Place.start.look 0).look 1)
      stmt after := by
    rw [reads_simpleStmt, Tokens.kindAt_look, Tokens.kindAt_look, hkind]
    exact himport
  have hline : stmtLine.Reads (Tokens.ofSource (importLine text)) (Place.start.look 0) [stmt]
      (after.look 0).step := by
    simp only [stmtLine, stmtLineOver, reads_bind, reads_peekTwo, existsAndEq, true_and,
      Tokens.get_kind, Tokens.kindAt_look, hkind]
    exact simpleStmts_reads_single hsimple hnewline
  have hmodule := module_reads_line hline (by rw [hkind]; decide) hinput (Nat.zero_lt_of_lt hspells.1)
  exact ⟨_, stmt, parseModule_of_reads hmodule hvalid, rfl, hbindings⟩

/-! ## Outlines -/

/-- **Relative imports.** A relative import with one dot or more on a line of its own has an
outline, however its tokens are spaced out: one record for each of its names, in their order, with
the dots and the path of the module. Among the statements of any other module it makes such records
too, and they stand between those of the statements around it. -/
theorem Outline.ofSource_relativeImport (hlevel : 1 ≤ written.level)
    (hspaced : Spaced false (.fixed .keywordFrom) written.lexemes text) :
    (∀ exports, ∃ outline, Outline.ofSource (importLine text) exports = .ok outline ∧
      outline.imports.map Import.binding = written.bindings) ∧
    ∀ {source : String} {module : Module} {before after : List Stmt} {stmt : Stmt},
      parseModule source = .ok module → module.body = before ++ stmt :: after →
      Text.slice source.toList stmt.span.start stmt.span.stop = "from".toList ++ text →
      ∃ records, records.map Import.binding = written.bindings ∧
        ∀ exports, (Outline.ofModule source.toList exports module).imports =
          Import.ofBody source.toList before ++ records ++ Import.ofBody source.toList after := by
  constructor
  · intro exports
    obtain ⟨module, stmt, hparse, hbody, hbindings⟩ := parseModule_importLine hlevel hspaced
    refine ⟨Outline.ofModule (importLine text).toList exports module, ?_, ?_⟩
    · rw [Outline.ofSource, hparse]
      rfl
    · have himports : (Outline.ofModule (importLine text).toList exports module).imports =
          Import.ofStmt (importLine text).toList stmt := by
        rw [Outline.ofModule, Import.ofBody, hbody, List.flatMap_singleton]
      rw [himports]
      exact hbindings _
  · intro source module before after stmt hparse hbody hslice
    have hstmt : stmt ∈ module.body := by
      rw [hbody]
      exact List.mem_append_right _ List.mem_cons_self
    refine ⟨Import.ofStmt source.toList stmt,
      RelativeImport.bindings_of_slice hlevel hspaced hparse hstmt hslice, fun exports => ?_⟩
    rw [Outline.ofModule, hbody]
    simp only [Import.ofBody, List.flatMap_append, List.flatMap_cons, List.append_assoc]

/-- An import with five dots, a path of two parts and two names, with a comment between its
parentheses. -/
def spreadText : List Char :=
  " . ... .p\t. q import(a as b, # x\n c,)".toList

/-- A module in which that import stands between other statements. -/
def spreadModule : String :=
  "x = 1; from . ... .p\t. q import(a as b, # x\n c,); import y\n"

private theorem exists_spaced_spreadText : ∃ written : RelativeImport, written.level = 5 ∧
    written.bindings = [(".....p.q", some "a", some "b"), (".....p.q", some "c", none)] ∧
    Spaced false (.fixed .keywordFrom) written.lexemes spreadText := by
  let written : RelativeImport :=
    { level := 5
      path := [⟨'p', [], by decide, by simp, by decide⟩, ⟨'q', [], by decide, by simp, by decide⟩]
      names := .enclosed
        ⟨⟨'a', [], by decide, by simp, by decide⟩, some ⟨'b', [], by decide, by simp, by decide⟩⟩
        [⟨⟨'c', [], by decide, by simp, by decide⟩, none⟩] true }
  refine ⟨written, rfl, by decide +kernel, ?_⟩
  have hblank : ∀ {inParens}, IsGap inParens [' '] := .blank (.inl rfl) .nil
  have htab : IsGap false ['\t'] := .blank (.inr (.inl rfl)) .nil
  have hcomment : IsGap true " # x\n ".toList :=
    .blank (.inl rfl) (@IsGap.comment true [' ', 'x'] [' '] '\n' rfl (by simp [EndsLine]) (.inl rfl)
      hblank)
  exact .cons hblank (by decide) (.plain (by decide)) <|
    .cons hblank (by decide) (.plain (by decide)) <|
    .cons .nil (by decide) (.plain (by decide)) <|
    .cons .nil (by decide) (.plain (by decide)) <|
    .cons hblank (by decide) (.plain (by decide)) <|
    .cons .nil (by decide) (.plain (by decide)) <|
    .cons htab (by decide) (.plain (by decide)) <|
    .cons hblank (by decide) (.plain (by decide)) <|
    .cons hblank (by decide) (.plain (by decide)) <|
    .cons .nil (by decide) .opening <|
    .cons .nil (by decide) (.plain (by decide)) <|
    .cons hblank (by decide) (.plain (by decide)) <|
    .cons hblank (by decide) (.plain (by decide)) <|
    .cons .nil (by decide) (.plain (by decide)) <|
    .cons hcomment (by decide) (.plain (by decide)) <|
    .cons .nil (by decide) (.plain (by decide)) <|
    .cons .nil (by decide) .closing .nil

/-- An import of two names from a package five levels up, spread over lines in parentheses. -/
theorem Outline.ofSource_relativeImport_spread : ∃ written : RelativeImport, 1 ≤ written.level ∧
    written.bindings = [(".....p.q", some "a", some "b"), (".....p.q", some "c", none)] ∧
    Spaced false (.fixed .keywordFrom) written.lexemes spreadText ∧
    (∃ outline, Outline.ofSource (importLine spreadText) none = .ok outline ∧
      outline.imports.map Import.binding = written.bindings) ∧
    ∃ module before stmt after, parseModule spreadModule = .ok module ∧
      module.body = before ++ stmt :: after ∧
      Text.slice spreadModule.toList stmt.span.start stmt.span.stop =
        "from".toList ++ spreadText ∧
      ∃ records, records.map Import.binding = written.bindings ∧
        ∀ exports, (Outline.ofModule spreadModule.toList exports module).imports =
          Import.ofBody spreadModule.toList before ++ records ++
            Import.ofBody spreadModule.toList after := by
  obtain ⟨written, hfive, hbindings, hspaced⟩ := exists_spaced_spreadText
  have hlevel : 1 ≤ written.level := by
    rw [hfive]
    decide
  obtain ⟨hline, hamong⟩ := Outline.ofSource_relativeImport hlevel hspaced
  have hreads : (parseModule spreadModule).toOption.any fun module => module.body.any fun stmt =>
      Text.slice spreadModule.toList stmt.span.start stmt.span.stop = "from".toList ++ spreadText := by
    decide +kernel
  cases hparse : parseModule spreadModule with
  | error failure =>
    rw [hparse] at hreads
    cases hreads
  | ok module =>
    rw [hparse] at hreads
    obtain ⟨stmt, hstmt, hslice⟩ := List.any_eq_true.mp hreads
    obtain ⟨before, after, hbody⟩ := List.append_of_mem hstmt
    have hslice := of_decide_eq_true hslice
    exact ⟨written, hlevel, hbindings, hspaced, hline none, module, before, stmt, after, rfl, hbody,
      hslice, hamong hparse hbody hslice⟩

end PythonOutline
