import Mathlib.Data.Finset.Card
import PythonOutline.Outline.Basic
import PythonOutline.Proofs.Outline.Definitions
import PythonOutline.Proofs.Tree.LaminarStmt

/-! # Declarations and the lines of a source

The definitions of a module are told by the tokens of its source alone: they start at the lines at
depth zero that start with the keywords of a definition. The declarations of its outline are as many
as there are names among them.
-/

namespace PythonOutline

/-- The tokens of a source in front of the first that is invalid or the end of the input. -/
def Lexer.readableTokens (source : String) : List Token :=
  (readable (run source)).map Prod.fst

/-- The name behind the keywords of a header. -/
def Header.name? (header : Header) : Option String :=
  header.tokens.head?.map Token.text

namespace Declaration

variable {source : List Char} {exports : Option (List String)}

/-- A statement makes a declaration of the name it defines. -/
theorem ofStmt?_name (stmt : Stmt) :
    (ofStmt? source exports stmt).map name =
      stmt.definition?.map fun definition => definition.2.text := by
  obtain ⟨span, form⟩ := stmt
  cases form <;> rfl

/-- A declaration takes the place of one with its name, or comes last. -/
theorem insert_names (declaration : Declaration) (others : List Declaration) :
    (declaration.insert others).map name =
      if declaration.name ∈ others.map name then others.map name
      else others.map name ++ [declaration.name] := by
  induction others with
  | nil => simp [insert]
  | cons other others ih =>
    by_cases hsame : other.name = declaration.name
    · simp [insert, hsame]
    · have hother : declaration.name ≠ other.name := fun heq => hsame heq.symm
      rw [insert, if_neg hsame, List.map_cons, ih]
      by_cases hmember : declaration.name ∈ others.map name
      · simp [hmember]
      · rw [if_neg hmember, if_neg (by simpa [hother] using hmember)]
        rfl

/-- No name is declared twice, and the names are those of earlier declarations and of the
definitions among the statements. -/
theorem ofStmtsInto_names {declarations : List Declaration} (stmts : List Stmt)
    (hnodup : (declarations.map name).Nodup) :
    ((ofStmtsInto source exports declarations stmts).map name).Nodup ∧
      ∀ text, text ∈ (ofStmtsInto source exports declarations stmts).map name ↔
        text ∈ declarations.map name ∨
          text ∈ (stmts.filterMap Stmt.definition?).map fun definition => definition.2.text := by
  induction stmts generalizing declarations with
  | nil => simpa [ofStmtsInto] using hnodup
  | cons stmt stmts ih =>
    have hname := @ofStmt?_name source exports stmt
    cases hstmt : ofStmt? source exports stmt with
    | none =>
      have hnone : stmt.definition? = none := by
        rw [hstmt] at hname
        simpa using hname.symm
      rw [ofStmtsInto, hstmt, List.filterMap_cons_none hnone]
      exact ih hnodup
    | some declaration =>
      obtain ⟨definition, hdefinition, htext⟩ : ∃ definition, stmt.definition? = some definition ∧
          definition.2.text = declaration.name := by
        rw [hstmt] at hname
        simpa using hname.symm
      have hinsert := declaration.insert_names declarations
      have hinserted : ((declaration.insert declarations).map name).Nodup := by
        rw [hinsert]
        split
        · exact hnodup
        · rename_i hfresh
          exact hnodup.append (List.nodup_singleton _) (by simpa using hfresh)
      rw [ofStmtsInto, hstmt, List.filterMap_cons_some hdefinition, List.map_cons, htext]
      obtain ⟨hnames, hmembers⟩ := ih hinserted
      refine ⟨hnames, fun text => ?_⟩
      rw [hmembers, hinsert]
      split
      · rename_i hmember
        constructor
        · rintro (hearlier | hlater)
          · exact .inl hearlier
          · exact .inr (List.mem_cons_of_mem _ hlater)
        · rintro (hearlier | hlater)
          · exact .inl hearlier
          · rcases List.mem_cons.mp hlater with rfl | hlater
            · exact .inl hmember
            · exact .inr hlater
      · rw [List.mem_append, List.mem_singleton, List.mem_cons, or_assoc]

/-- A body has as many declarations as there are names that its statements define. -/
theorem ofBody_length (body : List Stmt) :
    (ofBody source exports body).length =
      ((body.filterMap Stmt.definition?).map fun definition => definition.2.text).toFinset.card := by
  obtain ⟨hnodup, hmembers⟩ := @ofStmtsInto_names source exports [] body List.nodup_nil
  rw [← List.length_map name, ofBody, ← List.toFinset_card_of_nodup hnodup]
  refine congrArg Finset.card (Finset.ext fun text => ?_)
  rw [List.mem_toFinset, List.mem_toFinset, hmembers]
  simp

end Declaration

/-- The names behind the headers are those of the definitions they start. -/
theorem Header.name?_of_starts {headers : List Header} {definitions : List (DeclarationKind × Name)}
    (hstarts : List.Forall₂ Header.Starts headers definitions) :
    headers.filterMap Header.name? = definitions.map fun definition => definition.2.text := by
  induction hstarts with
  | nil => rfl
  | @cons header definition headers definitions hfirst _ ih =>
    obtain ⟨-, name, others, htokens, -, hname⟩ := hfirst
    have hnamed : header.name? = some definition.2.text := by
      simp [Header.name?, htokens, hname]
    rw [List.filterMap_cons_some hnamed, ih, List.map_cons]

namespace Tokens

/-- The elements of a list in front of the first that fails a test, by their indices. Behind the
list stands an element that fails it. -/
theorem takeWhile_eq_map {test : Token → Bool} {ending : Token} (hending : test ending = false)
    {list : List Token} {stop : Nat} (hall : ∀ index < stop, test (list[index]?.getD ending))
    (hstop : test (list[stop]?.getD ending) = false) :
    list.takeWhile test = (List.range stop).map fun index => list[index]?.getD ending := by
  induction list generalizing stop with
  | nil =>
    cases stop with
    | zero => rfl
    | succ stop => exact absurd (hall 0 (Nat.succ_pos _)) (by simpa using hending)
  | cons token list ih =>
    cases stop with
    | zero => rw [List.takeWhile_cons_of_neg (by simpa using hstop), List.range_zero, List.map_nil]
    | succ stop =>
      have hrest := @ih stop (fun index hlt => by simpa using hall (index + 1) (by omega))
        (by simpa using hstop)
      rw [List.takeWhile_cons_of_pos (by simpa using hall 0 (Nat.succ_pos _)), hrest,
        List.range_succ_eq_map, List.map_cons, List.map_map]
      simp [Function.comp_def]

/-- The tokens up to an end of input are the readable ones. -/
theorem run_ofSource {source : String} {stop : Nat}
    (hreadable : ∀ index < stop, ((ofSource source).get index).kind.IsReadable)
    (hend : ((ofSource source).get stop).kind = .endOfInput) :
    (ofSource source).run 0 stop = Lexer.readableTokens source := by
  have hget : ∀ index, (ofSource source).get index =
      ((Lexer.run source).map Prod.fst)[index]?.getD (.endOfInput source.utf8ByteSize) := by
    intro index
    rw [get_ofSource, List.getElem?_map]
  have hwhile : Lexer.readableTokens source =
      ((Lexer.run source).map Prod.fst).takeWhile fun token => token.kind.IsReadable := by
    rw [Lexer.readableTokens, Lexer.readable, List.takeWhile_map]
    rfl
  have htokens := @takeWhile_eq_map (fun token => token.kind.IsReadable)
    (.endOfInput source.utf8ByteSize) rfl ((Lexer.run source).map Prod.fst) stop
    (fun index hlt => by rw [← hget]; exact decide_eq_true (hreadable index hlt))
    (by rw [← hget, hend]; rfl)
  rw [hwhile, htokens, run, Nat.sub_zero, ← List.range_eq_range']
  exact List.map_congr_left fun index _ => hget index

end Tokens

/-- The definitions among the statements of a module correspond, one to one and in order, to the
logical lines at depth zero that start with `def`, `class` or `async def`: the kinds agree, and the
name of each is the identifier behind the keywords. The outline of the source has as many
declarations as there are different names on those lines. -/
theorem parseModule_definitions (source : String) (module : Module)
    (hparse : parseModule source = .ok module) :
    let headers := headersAt 0 (logicalLines (Lexer.readableTokens source))
    List.Forall₂ Header.Starts headers (module.body.filterMap Stmt.definition?) ∧
      ∀ exports, ∃ outline, Outline.ofSource source exports = .ok outline ∧
        outline.declarations.length = (headers.filterMap Header.name?).toFinset.card := by
  intro headers
  have hstarts : List.Forall₂ Header.Starts headers (module.body.filterMap Stmt.definition?) := by
    obtain ⟨body, last, hbody, hend, hordered, rfl⟩ := reads_of_parseModule hparse
    have hfits := Parser.stmts_lays hordered .endOfInput hbody
    have hrun := Tokens.run_ofSource (fun index hlt => hfits.kinds index (Nat.zero_le _) hlt) hend
    obtain ⟨lines, -, hstarts, hlines⟩ := (Parser.stmts_outlines hordered .endOfInput hbody).2 0
    have hall : logicalLines (Lexer.readableTokens source) = lines := by
      have hnil := hlines []
      rw [List.append_nil] at hnil
      rw [logicalLines, ← hrun]
      exact hnil.trans (List.append_nil _)
    show List.Forall₂ Header.Starts (headersAt 0 (logicalLines _)) _
    rw [hall]
    exact hstarts
  refine ⟨hstarts, fun exports => ⟨.ofModule source.toList exports module, ?_, ?_⟩⟩
  · rw [Outline.ofSource, hparse]
    rfl
  · rw [Header.name?_of_starts hstarts]
    exact Declaration.ofBody_length module.body

/-- Of three definitions, two share a name, so two declarations are left. -/
theorem parseModule_definitions_shadowed :
    ∃ outline, Outline.ofSource "class A: pass\nasync def f(): pass\ndef A(): pass\n" none =
      .ok outline ∧ outline.declarations.length = 2 := by
  have hparses : (parseModule "class A: pass\nasync def f(): pass\ndef A(): pass\n").isOk := by
    decide +kernel
  have hnames : ((headersAt 0 (logicalLines (Lexer.readableTokens
      "class A: pass\nasync def f(): pass\ndef A(): pass\n"))).filterMap
      Header.name?).toFinset.card = 2 := by
    decide +kernel
  cases hparse : parseModule "class A: pass\nasync def f(): pass\ndef A(): pass\n" with
  | error failure =>
    rw [hparse] at hparses
    cases hparses
  | ok module =>
    obtain ⟨outline, houtline, hlength⟩ := (parseModule_definitions _ module hparse).2 none
    exact ⟨outline, houtline, hlength.trans hnames⟩

end PythonOutline
