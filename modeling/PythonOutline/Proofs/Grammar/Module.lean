import PythonOutline.Parser.Module
import PythonOutline.Proofs.Grammar.Compound
import PythonOutline.Proofs.Lexer.Tokens

/-! # The grammar of definitions, blocks and modules

What the parsers of definitions, lines, blocks and modules read, one rule a parser.
-/

namespace PythonOutline.Parser

variable {tokens : Tokens} {before after : Place} {stmt : Stmt} {stmts : List Stmt}
  {block line : Parser (List Stmt)}

/-! ## Definitions -/

/-- The name of a definition has the span of its token. -/
theorem reads_definedName {name : Name} :
    definedName.Reads tokens before name after ↔
      tokens.kindAt before = .identifier ∧ after = before.step ∧
        name = ⟨tokens.spanBetween before.next after.next, (tokens.get before.next).text⟩ := by
  simp [definedName, and_assoc]

/-- A decorator is an expression on a line of its own. -/
theorem reads_decorator {decorator : Decorator} :
    Parser.decorator.Reads tokens before decorator after ↔
      tokens.kindAt before = .at ∧
        ∃ expression last, namedExpr.Reads tokens before.step expression last ∧
          tokens.kindAt last = .newline ∧ after = last.step ∧
          decorator = ⟨tokens.spanBetween before.next after.next, expression⟩ := by
  simp [Parser.decorator, and_assoc]

/-- Decorators follow each other for as long as one starts. -/
theorem reads_decorators {decorators : List Decorator}
    (hreads : Parser.decorators.Reads tokens before decorators after) :
    Repeats (nextIs .at) decorator tokens before decorators after := by
  simp only [Parser.decorators, reads_repeatWhile] at hreads
  exact hreads.2

/-- A class is its name, its type parameters, its arguments, and a block. -/
theorem reads_classDef {decorators : List Decorator} {form : StmtForm}
    (hreads : (classDef block decorators).Reads tokens before form after) :
    ∃ name start params middle arguments header body,
      tokens.kindAt before = .keywordClass ∧ definedName.Reads tokens before.step name start ∧
      typeParams.Reads tokens start params middle ∧
      (if tokens.kindAt middle = .parenthesisOpen then
          Level.outermost.arguments.Reads tokens middle.step arguments header
        else arguments = [] ∧ header = middle.look 0) ∧
      block.Reads tokens header body after ∧
      form = .classDef decorators name params arguments body := by
  simp only [classDef, ite_bind, reads_bind, reads_expect, reads_pure, existsAndEq,
    and_true] at hreads
  obtain ⟨hclass, name, start, hname, params, middle, hparams, called, opened, hcalled, arguments,
    header, harguments, body, hbody, rfl⟩ := hreads
  refine ⟨name, start, params, middle, arguments, header, body, hclass, hname, hparams, ?_, hbody,
    rfl⟩
  rw [reads_accept] at hcalled
  split at hcalled
  · rename_i hparen
    obtain ⟨rfl, rfl⟩ := hcalled
    rw [if_pos hparen]
    exact harguments
  · rename_i hparen
    obtain ⟨rfl, rfl⟩ := hcalled
    rw [if_neg hparen]
    exact reads_pure.mp harguments

/-- A function is its name, its parameters, the type of its result, and a block. -/
theorem reads_functionDef {decorators : List Decorator} {form : StmtForm}
    (hreads : (functionDef block decorators).Reads tokens before form after) :
    ∃ isAsync start name list params middle parameters result returns header body,
      (accept .keywordAsync).Reads tokens before isAsync start ∧
      tokens.kindAt start = .keywordDef ∧ definedName.Reads tokens start.step name list ∧
      typeParams.Reads tokens list params middle ∧ tokens.kindAt middle = .parenthesisOpen ∧
      (Level.outermost.params .parenthesisClose true).Reads tokens middle.step parameters result ∧
      (ifAccepted .hyphenChevronRight expr).Reads tokens result returns header ∧
      block.Reads tokens header body after ∧
      form = .functionDef decorators isAsync name params parameters returns body := by
  simp only [functionDef, reads_bind, reads_expect, reads_pure, existsAndEq, and_true] at hreads
  obtain ⟨isAsync, start, hasync, hdef, name, list, hname, params, middle, hparams, hparen,
    parameters, result, hparameters, returns, header, hreturns, body, hbody, rfl⟩ := hreads
  exact ⟨isAsync, start, name, list, params, middle, parameters, result, returns, header, body,
    hasync, hdef, hname, hparams, hparen, hparameters, hreturns, hbody, rfl⟩

/-- A definition is of a class or a function, behind its decorators. -/
theorem reads_definition (hreads : (definition block).Reads tokens before stmt after) :
    ∃ decorators middle form, Parser.decorators.Reads tokens before decorators middle ∧
      stmt = ⟨tokens.spanBetween before.next after.next, form⟩ ∧
      (tokens.kindAt middle = .keywordClass ∧
          (classDef block decorators).Reads tokens (middle.look 0) form after ∨
        (tokens.kindAt middle = .keywordAsync ∨ tokens.kindAt middle = .keywordDef) ∧
          (functionDef block decorators).Reads tokens (middle.look 0) form after) := by
  simp only [definition, reads_spanned, reads_bind, reads_peek, existsAndEq, true_and, and_true,
    Tokens.get_kind] at hreads
  obtain ⟨make, ⟨decorators, middle, hdecorators, hrest⟩, rfl⟩ := hreads
  split at hrest
  · rename_i hclass
    obtain ⟨form, _, hform, hmake⟩ := reads_bind.mp hrest
    obtain ⟨rfl, rfl⟩ := reads_pure.mp hmake
    exact ⟨decorators, middle, form, hdecorators, rfl, .inl ⟨hclass, hform⟩⟩
  · rename_i hasync
    obtain ⟨form, _, hform, hmake⟩ := reads_bind.mp hrest
    obtain ⟨rfl, rfl⟩ := reads_pure.mp hmake
    exact ⟨decorators, middle, form, hdecorators, rfl, .inr ⟨.inl hasync, hform⟩⟩
  · rename_i hdef
    obtain ⟨form, _, hform, hmake⟩ := reads_bind.mp hrest
    obtain ⟨rfl, rfl⟩ := reads_pure.mp hmake
    exact ⟨decorators, middle, form, hdecorators, rfl, .inr ⟨.inr hdef, hform⟩⟩
  · simp at hrest

/-! ## Blocks -/

/-- Lines are read up to a token, which is not taken. -/
inductive Lines (line : Parser (List Stmt)) (stop : TokenKind) (tokens : Tokens) :
    Place → List Stmt → Place → Prop where
  | stop {before : Place} (hstop : tokens.kindAt before = stop) :
      Lines line stop tokens before [] (before.look 0)
  | line {before middle after : Place} {first others : List Stmt}
      (hstop : tokens.kindAt before ≠ stop) (hindent : tokens.kindAt before ≠ .indent)
      (hline : line.Reads tokens (before.look 0) first middle)
      (hrest : Lines line stop tokens middle others after) :
      Lines line stop tokens before (first ++ others) after

/-- Statements are read line by line, up to the stop. -/
theorem reads_stmtsOver {stop : TokenKind}
    (hreads : (stmtsOver line stop).Reads tokens before stmts after) :
    Lines line stop tokens before stmts after := by
  simp only [stmtsOver, reads_iterate] at hreads
  obtain ⟨count, -, hiterates⟩ := hreads
  generalize hstart : ([] : List Stmt) = earlier at hiterates
  suffices hothers : ∃ others, stmts = earlier.reverse ++ others ∧
      Lines line stop tokens before others after by
    obtain ⟨others, rfl, hlines⟩ := hothers
    subst hstart
    exact hlines
  clear hstart
  induction hiterates with
  | @done earlier before after result hstep =>
    obtain ⟨hstop, rfl, rfl⟩ : tokens.kindAt before = stop ∧ result = earlier.reverse ∧
        after = before.look 0 := by
      simpa using hstep
    exact ⟨[], by simp, .stop hstop⟩
  | @next _ earlier earlier' before middle _ _ hstep _ ih =>
    obtain ⟨hstop, hindent, first, hline, rfl⟩ : tokens.kindAt before ≠ stop ∧
        tokens.kindAt before ≠ .indent ∧ ∃ first, line.Reads tokens (before.look 0) first middle ∧
          earlier' = first.reverse ++ earlier := by
      simpa using hstep
    obtain ⟨others, rfl, hlines⟩ := ih
    exact ⟨first ++ others, by simp, .line hstop hindent hline hlines⟩

/-- A block is the rest of the line behind its colon, or the deeper lines behind it. -/
theorem reads_blockOver :
    (blockOver line).Reads tokens before stmts after ↔
      tokens.kindAt before = .colon ∧
        if tokens.kindAt before.step = .newline then
          tokens.kindAt before.step.step = .indent ∧
            ∃ last, (stmtsOver line .dedent).Reads tokens before.step.step.step stmts last ∧
              tokens.kindAt last = .dedent ∧ after = last.step
        else simpleStmts.Reads tokens (before.step.look 0) stmts after := by
  simp [blockOver]

/-- Whether a token stands in front of compound statements only. -/
def opensCompound : TokenKind → Bool
  | .at | .keywordAsync | .keywordClass | .keywordDef | .keywordFor | .keywordIf | .keywordTry
  | .keywordWhile | .keywordWith => true
  | _ => false

/-- A compound statement stands at a place. It is told by its first token, or by the one behind an
`async`. -/
inductive ReadsCompound (block : Parser (List Stmt)) (tokens : Tokens) (before : Place) (stmt : Stmt)
    (after : Place) : Prop where
  | definition
      (hkind : tokens.kindAt before = .at ∨ tokens.kindAt before = .keywordClass ∨
        tokens.kindAt before = .keywordDef ∨
        tokens.kindAt before = .keywordAsync ∧ tokens.kindAt before.step = .keywordDef)
      (hreads : (definition block).Reads tokens (before.look 1) stmt after)
  | loop
      (hkind : tokens.kindAt before = .keywordFor ∨
        tokens.kindAt before = .keywordAsync ∧ tokens.kindAt before.step = .keywordFor)
      (hreads : (forStmt block).Reads tokens (before.look 1) stmt after)
  | context
      (hkind : tokens.kindAt before = .keywordWith ∨
        tokens.kindAt before = .keywordAsync ∧ tokens.kindAt before.step = .keywordWith)
      (hreads : (withStmt block).Reads tokens (before.look 1) stmt after)
  | conditional (hkind : tokens.kindAt before = .keywordIf)
      (hreads : (ifStmt block).Reads tokens (before.look 1) stmt after)
  | attempt (hkind : tokens.kindAt before = .keywordTry)
      (hreads : (tryStmt block).Reads tokens (before.look 1) stmt after)
  | whileLoop (hkind : tokens.kindAt before = .keywordWhile)
      (hreads : (whileStmt block).Reads tokens (before.look 1) stmt after)
  | cases (hkind : tokens.kindAt before = .identifier)
      (hreads : (matchStmt? block).Reads tokens (before.look 1) (some stmt) after)

/-- A compound statement starts with a token that stands in front of such statements only, or with
the name `match`. -/
theorem ReadsCompound.opensCompound_or
    (hcompound : ReadsCompound block tokens before stmt after) :
    opensCompound (tokens.kindAt before) = true ∨ tokens.kindAt before = .identifier := by
  cases hcompound with
  | definition hkind =>
    rcases hkind with hkind | hkind | hkind | ⟨hkind, -⟩ <;> exact .inl (by rw [hkind]; rfl)
  | loop hkind | context hkind =>
    rcases hkind with hkind | ⟨hkind, -⟩ <;> exact .inl (by rw [hkind]; rfl)
  | conditional hkind | attempt hkind | whileLoop hkind => exact .inl (by rw [hkind]; rfl)
  | cases hkind => exact .inr hkind

/-- A line is one compound statement, or simple statements that may have been looked at before. -/
theorem reads_stmtLineOver (hreads : (stmtLineOver block).Reads tokens before stmts after) :
    (∃ stmt, stmts = [stmt] ∧ ReadsCompound block tokens before stmt after) ∨
      opensCompound (tokens.kindAt before) = false ∧
        ∃ start, start.next = before.next ∧ simpleStmts.Reads tokens start stmts after := by
  simp only [stmtLineOver, reads_bind, reads_peekTwo, existsAndEq, true_and, and_true,
    Tokens.get_kind, Tokens.get_kind_step] at hreads
  have hsingle : ∀ {parser : Parser Stmt},
      (parser >>= fun stmt => pure [stmt]).Reads tokens (before.look 1) stmts after →
        ∃ stmt, stmts = [stmt] ∧ parser.Reads tokens (before.look 1) stmt after := by
    intro parser hparser
    obtain ⟨stmt, _, hstmt, hrest⟩ := reads_bind.mp hparser
    obtain ⟨rfl, rfl⟩ := reads_pure.mp hrest
    exact ⟨stmt, rfl, hstmt⟩
  split at hreads
  · rename_i hkind
    obtain ⟨stmt, hstmts, hstmt⟩ := hsingle hreads
    exact .inl ⟨stmt, hstmts, .definition (.inl hkind) hstmt⟩
  · rename_i hkind
    obtain ⟨stmt, hstmts, hstmt⟩ := hsingle hreads
    exact .inl ⟨stmt, hstmts, .definition (.inr (.inl hkind)) hstmt⟩
  · rename_i hkind
    obtain ⟨stmt, hstmts, hstmt⟩ := hsingle hreads
    exact .inl ⟨stmt, hstmts, .definition (.inr (.inr (.inl hkind))) hstmt⟩
  · rename_i hkind
    split at hreads
    · rename_i hdef
      obtain ⟨stmt, hstmts, hstmt⟩ := hsingle hreads
      exact .inl ⟨stmt, hstmts, .definition (.inr (.inr (.inr ⟨hkind, hdef⟩))) hstmt⟩
    · rename_i hfor
      obtain ⟨stmt, hstmts, hstmt⟩ := hsingle hreads
      exact .inl ⟨stmt, hstmts, .loop (.inr ⟨hkind, hfor⟩) hstmt⟩
    · rename_i hwith
      obtain ⟨stmt, hstmts, hstmt⟩ := hsingle hreads
      exact .inl ⟨stmt, hstmts, .context (.inr ⟨hkind, hwith⟩) hstmt⟩
    · simp at hreads
  · rename_i hkind
    obtain ⟨stmt, hstmts, hstmt⟩ := hsingle hreads
    exact .inl ⟨stmt, hstmts, .loop (.inl hkind) hstmt⟩
  · rename_i hkind
    obtain ⟨stmt, hstmts, hstmt⟩ := hsingle hreads
    exact .inl ⟨stmt, hstmts, .conditional hkind hstmt⟩
  · rename_i hkind
    obtain ⟨stmt, hstmts, hstmt⟩ := hsingle hreads
    exact .inl ⟨stmt, hstmts, .attempt hkind hstmt⟩
  · rename_i hkind
    obtain ⟨stmt, hstmts, hstmt⟩ := hsingle hreads
    exact .inl ⟨stmt, hstmts, .whileLoop hkind hstmt⟩
  · rename_i hkind
    obtain ⟨stmt, hstmts, hstmt⟩ := hsingle hreads
    exact .inl ⟨stmt, hstmts, .context (.inl hkind) hstmt⟩
  · rename_i hkind
    have hsimple : opensCompound (tokens.kindAt before) = false := by
      rw [hkind]
      rfl
    rw [reads_ite] at hreads
    split at hreads
    · obtain ⟨stmt?, middle, hmatch, hrest⟩ := reads_bind.mp hreads
      cases stmt? with
      | some stmt =>
        obtain ⟨rfl, rfl⟩ := reads_pure.mp hrest
        exact .inl ⟨stmt, rfl, .cases hkind hmatch⟩
      | none =>
        have hnext : middle.next = (before.look 1).next := reads_matchStmt?_none hmatch
        exact .inr ⟨hsimple, middle, hnext, hrest⟩
    · exact .inr ⟨hsimple, before.look 1, rfl, hreads⟩
  · refine .inr ⟨?_, before.look 1, rfl, hreads⟩
    unfold opensCompound
    split <;> first | contradiction | rfl

/-- A module is the statements up to the end of the input, with the span of the whole source. -/
theorem reads_module {module : Module} :
    Parser.module.Reads tokens before module after ↔
      ∃ body last, (Parser.stmts .endOfInput).Reads tokens before body last ∧
        tokens.kindAt last = .endOfInput ∧ after = last.step ∧
        module = ⟨⟨0, tokens.size⟩, body⟩ := by
  simp [Parser.module, and_assoc]

/-! ## Single lines -/

/-- A simple statement in front of a line break is a line. -/
theorem simpleStmts_reads_single (hreads : simpleStmt.Reads tokens before stmt after)
    (hline : tokens.kindAt after = .newline) :
    simpleStmts.Reads tokens before [stmt] (after.look 0).step := by
  simp only [simpleStmts, reads_bind, reads_iterate]
  refine ⟨_, after, hreads, [stmt], after.look 0, ⟨0, Nat.zero_le _, .done ?_⟩, ?_⟩
  · simp [hline]
  · simp [hline]

/-- A line in front of the end of the input is a module. -/
theorem module_reads_line (hreads : stmtLine.Reads tokens (Place.start.look 0) stmts after)
    (hstart : tokens.kindAt .start ≠ .endOfInput ∧ tokens.kindAt .start ≠ .indent)
    (hend : tokens.kindAt after = .endOfInput) (hsize : 0 < tokens.tokens.size) :
    Parser.module.Reads tokens .start ⟨⟨0, tokens.size⟩, stmts⟩ (after.look 0).step := by
  refine reads_module.mpr ⟨_, after.look 0, ?_, hend, rfl, rfl⟩
  simp only [Parser.stmts, stmtsOver, reads_iterate]
  refine ⟨1, hsize, @Iterates.next _ _ _ _ 0 _ stmts.reverse _ after _ _ ?_ (.done ?_)⟩
  · have hline : ∃ line, stmtLine.Reads tokens (Place.start.look 0) line after ∧
        stmts.reverse = line.reverse :=
      ⟨stmts, hreads, rfl⟩
    simpa [hstart] using hline
  · simp [hend]

end PythonOutline.Parser

namespace PythonOutline

/-- A source that is a module has been read to the end of its tokens, and none of them
is invalid. -/
theorem reads_of_parseModule {source : String} {module : Module}
    (hparse : parseModule source = .ok module) :
    ∃ body last, (Parser.stmts .endOfInput).Reads (.ofSource source) .start body last ∧
      (Tokens.ofSource source).kindAt last = .endOfInput ∧
      (Tokens.ofSource source).Ordered ∧
      module = ⟨⟨0, source.utf8ByteSize⟩, body⟩ := by
  unfold parseModule Parser.runOn at hparse
  split at hparse
  · rename_i result place hmodule
    split at hparse
    · cases hparse
    · rename_i hfailure
      cases hparse
      obtain ⟨body, last, hbody, hend, rfl, rfl⟩ := Parser.reads_module.mp hmodule
      refine ⟨body, last, hbody, hend, Tokens.ordered_ofSource ?_, rfl⟩
      intro index hinvalid
      obtain ⟨failure, hknown⟩ := Tokens.failureWithin_of_endOfInput hinvalid hend
        (Nat.lt_of_lt_of_le (Nat.lt_succ_self _) (Nat.le_max_right _ _) : _ < last.step.seen)
      rw [hknown] at hfailure
      cases hfailure
  · split at hparse <;> cases hparse

/-- A source without invalid tokens is the module that the parser reads. -/
theorem parseModule_of_reads {source : String} {module : Module} {after : Place}
    (hreads : Parser.module.Reads (.ofSource source) .start module after)
    (hvalid : ∀ index, ((Tokens.ofSource source).get index).kind ≠ .invalid) :
    parseModule source = .ok module := by
  unfold parseModule Parser.runOn
  rw [show Parser.module (Tokens.ofSource source) .start = _ from hreads]
  dsimp only
  rw [Tokens.failureWithin_eq_none hvalid]

end PythonOutline
