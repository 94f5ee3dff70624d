import PythonOutline.Proofs.Grammar.Module
import PythonOutline.Proofs.Literal.Delimiter
import PythonOutline.Proofs.Operator.Parse

/-! # Printing and parsing

A printed tree on a line of its own is a module of one expression statement, and the expression is
the tree. A name that is `match` or `type` does not make the line another statement, as no colon, no
equals sign and no bracket stands in it.
-/

namespace PythonOutline

open PythonOutline.Parser

/-- The tokens between two indices are an expression on a line of its own, and no token of the
source may turn the line into another statement. -/
structure Tokens.HoldsExpr (tokens : Tokens) (start stop : Nat) (expr : Expr) : Prop where
  yields : Level.outermost.expr.Yields tokens start stop expr
  leads_pos : 0 < (tokens.get start).kind.leads
  newline : (tokens.get stop).kind = .newline
  ne_colon : ∀ index, (tokens.get index).kind ≠ .colon
  ne_equals : ∀ index, (tokens.get index).kind ≠ .equals
  ne_bracketOpen : ∀ index, (tokens.get index).kind ≠ .bracketOpen

namespace Tokens.HoldsExpr

variable {tokens : Tokens} {start stop : Nat} {expr : Expr}

/-- The line starts with no token that leads no layer. -/
theorem start_ne (hholds : tokens.HoldsExpr start stop expr) {other : TokenKind}
    (hother : other.leads = 0) : (tokens.get start).kind ≠ other :=
  TokenKind.ne_of_leads (by rw [hother]; exact hholds.leads_pos)

/-- The expression is read where one may be assigned. -/
theorem yieldOrStarExprs (hholds : tokens.HoldsExpr start stop expr) :
    Parser.yieldOrStarExprs.Yields tokens start stop expr := by
  rintro before rfl
  obtain ⟨value, middle, hreads, rfl, rfl⟩ := hholds.yields ((before.look 0).look 0) rfl
  have hstart : ∀ {other : TokenKind}, other.leads = 0 → tokens.kindAt before ≠ other :=
    hholds.start_ne
  have hitem : Level.outermost.starExpr.Reads tokens (before.look 0) value middle := by
    rw [Level.starExpr, Level.reads_starredOr, Tokens.kindAt_look, if_neg (hstart rfl)]
    exact hreads
  have hkind : tokens.kindAt middle = .newline := hholds.newline
  refine ⟨value, middle.look 0, ?_, rfl, rfl⟩
  rw [Parser.yieldOrStarExprs, Level.reads_yieldOrStarExprs, if_neg (hstart rfl), Level.starExprs]
  simp only [Level.tupleOf, reads_bind, reads_mark, existsAndEq, true_and]
  refine ⟨value, middle, hitem, ?_⟩
  simp [hkind]

/-- The expression is read as a statement. -/
theorem expressionStmt (hholds : tokens.HoldsExpr start stop expr) (before : Place)
    (hbefore : before.next = start) :
    ∃ span value after, Parser.expressionStmt.Reads tokens before ⟨span, .expression value⟩ after ∧
      after.next = stop ∧ value.withoutSpans = expr := by
  obtain ⟨value, middle, hreads, rfl, rfl⟩ := hholds.yieldOrStarExprs before hbefore
  have hkind : tokens.kindAt middle = .newline := hholds.newline
  refine ⟨tokens.spanBetween before.next middle.next, value, middle.look 0, ?_, rfl, rfl⟩
  simp only [Parser.expressionStmt, reads_spanned, reads_bind, reads_peekKind, existsAndEq, true_and]
  refine ⟨fun span => ⟨span, .expression value⟩, ⟨value, middle, hreads, ?_⟩, rfl⟩
  simp [hkind, Operator.augmented?]

/-- The expression is the one statement of its line. -/
theorem simpleStmts (hholds : tokens.HoldsExpr start stop expr) (before : Place)
    (hbefore : before.next = start) :
    ∃ span value after, Parser.simpleStmts.Reads tokens before [⟨span, .expression value⟩] after ∧
      after.next = stop + 1 ∧ value.withoutSpans = expr := by
  subst hbefore
  obtain ⟨span, value, middle, hreads, rfl, rfl⟩ := hholds.expressionStmt (before.look 2) rfl
  have hkind : tokens.kindAt middle = .newline := hholds.newline
  have hstmt : simpleStmt.Reads tokens before ⟨span, .expression value⟩ middle := by
    have hlead : 0 < (tokens.kindAt before).leads := hholds.leads_pos
    have halias : startsTypeAlias (tokens.get before.next) (tokens.get (before.next + 1))
        (tokens.get (before.next + 2)) = false := by
      simp only [startsTypeAlias, beq_eq_false_iff_ne.mpr (hholds.ne_equals _),
        beq_eq_false_iff_ne.mpr (hholds.ne_bracketOpen _), Bool.or_self, Bool.and_false,
        Bool.false_and]
    rw [reads_simpleStmt, halias]
    generalize tokens.kindAt before = kind at hlead
    split <;> first | exact absurd hlead (Nat.lt_irrefl 0) | exact hreads
  exact ⟨span, value, (middle.look 0).step, simpleStmts_reads_single hstmt hkind, rfl, rfl⟩

/-- Without a colon no match statement is read. -/
theorem matchStmt?_reads_none (hholds : tokens.HoldsExpr start stop expr) (block : Parser (List Stmt))
    (before : Place) :
    ∃ seen, (matchStmt? block).Reads tokens before none ⟨before.next, seen⟩ := by
  have hsubject : ∀ subject after, ¬matchSubject?.Reads tokens before (some subject) after := by
    intro subject after hreads
    obtain ⟨last, -, hcolon, -⟩ := reads_matchSubject?.mp hreads
    exact hholds.ne_colon last.next hcolon
  obtain ⟨seen, hnone⟩ : ∃ seen, matchSubject?.Reads tokens before none ⟨before.next, seen⟩ :=
    attempt_reads_none fun subject after hreads =>
      hsubject subject after (reads_attempt_some.mpr hreads)
  refine ⟨seen, ?_⟩
  simp only [matchStmt?, reads_bind, reads_mark, existsAndEq, true_and]
  exact ⟨none, _, hnone, reads_pure.mpr ⟨rfl, rfl⟩⟩

/-- The line is not taken for a compound statement. -/
theorem stmtLine (hholds : tokens.HoldsExpr start stop expr) (before : Place)
    (hbefore : before.next = start) :
    ∃ span value after, Parser.stmtLine.Reads tokens before [⟨span, .expression value⟩] after ∧
      after.next = stop + 1 ∧ value.withoutSpans = expr := by
  subst hbefore
  -- The line may have been looked at by the parser of match statements.
  obtain ⟨line, hline, hchoice⟩ : ∃ line : Place, line.next = before.next ∧
      ∀ {stmts after}, Parser.simpleStmts.Reads tokens line stmts after →
        Parser.stmtLine.Reads tokens before stmts after := by
    have hlead : 0 < (tokens.kindAt before).leads := hholds.leads_pos
    obtain ⟨seen, hmatch⟩ := hholds.matchStmt?_reads_none block (before.look 1)
    simp only [Parser.stmtLine, stmtLineOver, reads_bind, reads_peekTwo, existsAndEq, true_and,
      Tokens.get_kind]
    generalize tokens.kindAt before = kind at hlead
    split <;> try exact absurd hlead (Nat.lt_irrefl 0)
    · by_cases hword : (tokens.get before.next).text = "match"
      · refine ⟨⟨before.next, seen⟩, rfl, fun hreads => ?_⟩
        rw [if_pos hword]
        exact reads_bind.mpr ⟨none, _, hmatch, hreads⟩
      · refine ⟨before.look 1, rfl, fun hreads => ?_⟩
        rw [if_neg hword]
        exact hreads
    · exact ⟨before.look 1, rfl, fun hreads => hreads⟩
  obtain ⟨span, value, after, hreads, hafter, hvalue⟩ := hholds.simpleStmts line hline
  exact ⟨span, value, after, hchoice hreads, hafter, hvalue⟩

/-- A source of one line is a module of one statement. -/
theorem module (hholds : tokens.HoldsExpr 0 stop expr)
    (hend : (tokens.get (stop + 1)).kind = .endOfInput) (hsize : 0 < tokens.tokens.size) :
    ∃ span value after,
      Parser.module.Reads tokens .start ⟨⟨0, tokens.size⟩, [⟨span, .expression value⟩]⟩ after ∧
      value.withoutSpans = expr := by
  obtain ⟨span, value, middle, hreads, hmiddle, hvalue⟩ :=
    hholds.stmtLine (Place.start.look 0) rfl
  have hkind : tokens.kindAt middle = .endOfInput := by
    rw [Tokens.kindAt, hmiddle]
    exact hend
  exact ⟨span, value, (middle.look 0).step,
    module_reads_line hreads ⟨hholds.start_ne rfl, hholds.start_ne rfl⟩ hkind hsize, hvalue⟩

end Tokens.HoldsExpr

/-! ## Printed trees -/

namespace Tokens

variable {tokens : Tokens}

/-- A token of known kind and text. -/
theorem get_of_map {known : List (TokenKind × String)} {index : Nat} {kind : TokenKind}
    {text : String}
    (hmap : tokens.tokens.toList.map (fun token => (token.kind, token.text)) = known)
    (hknown : known[index]? = some (kind, text)) :
    index < tokens.tokens.size ∧ (tokens.get index).kind = kind ∧
      (tokens.get index).text = text := by
  rw [← hmap, List.getElem?_map, Option.map_eq_some_iff] at hknown
  obtain ⟨token, htoken, hpair⟩ := hknown
  cases hpair
  rw [Array.getElem?_toList] at htoken
  obtain ⟨hindex, -⟩ := Array.getElem?_eq_some_iff.mp htoken
  have hget : tokens.get index = token := by
    rw [get, htoken]
    rfl
  rw [hget]
  exact ⟨hindex, rfl, rfl⟩

private theorem spells_of_get {start : Nat} {lexemes : List Lexeme}
    (hget : ∀ index lexeme, lexemes[index]? = some lexeme →
      start + index < tokens.tokens.size ∧ (tokens.get (start + index)).kind = lexeme.kind ∧
        (tokens.get (start + index)).text = lexeme.text) :
    tokens.Spells start (start + lexemes.length) lexemes := by
  induction lexemes generalizing start with
  | nil => rfl
  | cons lexeme lexemes ih =>
    obtain ⟨hlt, hkind, htext⟩ := hget 0 lexeme rfl
    have hrest := @ih (start + 1) fun index other hother => by
      rw [Nat.add_assoc, Nat.add_comm 1]
      exact hget (index + 1) other hother
    rw [Nat.add_assoc, Nat.add_comm 1] at hrest
    exact ⟨hlt, hkind, htext, hrest⟩

end Tokens

namespace OperatorExpr

/-- The tokens of a printed tree on a line of its own. -/
def tokens (expr : OperatorExpr) : Tokens :=
  .ofSource (expr.print ++ "\n")

private theorem spells_tokens (expr : OperatorExpr) :
    expr.tokens.Spells 0 expr.lexemes.length expr.lexemes := by
  have hspells := @Tokens.spells_of_get expr.tokens 0 expr.lexemes fun index lexeme hlexeme => by
    refine Tokens.get_of_map (Tokens.ofSource_print expr) ?_
    have hlt := (List.getElem?_eq_some_iff.mp hlexeme).1
    rw [Nat.zero_add, List.getElem?_append_left (by simpa using hlt), List.getElem?_map, hlexeme]
    rfl
  rwa [Nat.zero_add] at hspells

private theorem tokens_newline (expr : OperatorExpr) :
    (expr.tokens.get expr.lexemes.length).kind = .newline :=
  (@Tokens.get_of_map _ _ _ .newline "\n" (Tokens.ofSource_print expr) (by simp)).2.1

private theorem tokens_endOfInput (expr : OperatorExpr) :
    (expr.tokens.get (expr.lexemes.length + 1)).kind = .endOfInput :=
  (@Tokens.get_of_map _ _ _ .endOfInput "" (Tokens.ofSource_print expr) (by simp)).2.1

/-- Every token of a printed tree is one that trees are written with, the line break or the end of
the input. -/
theorem kind_tokens_ne (expr : OperatorExpr) (index : Nat) {other : TokenKind}
    (hother : (other == .identifier || writesOperators other) = false)
    (hline : other ≠ .newline ∧ other ≠ .endOfInput) : (expr.tokens.get index).kind ≠ other := by
  rintro rfl
  cases hindex : expr.tokens.tokens[index]? with
  | none =>
    rw [Tokens.get, hindex] at hline
    exact hline.2 rfl
  | some token =>
    have hmem : (token.kind, token.text) ∈ expr.tokens.tokens.toList.map
        (fun token => (token.kind, token.text)) :=
      List.mem_map_of_mem (Array.mem_toList_iff.mpr (Array.mem_of_getElem? hindex))
    rw [Tokens.get, hindex, Option.getD_some] at hother hline
    rw [show expr.tokens.tokens.toList.map _ = _ from Tokens.ofSource_print expr] at hmem
    rcases List.mem_append.mp hmem with hmem | hmem
    · obtain ⟨lexeme, hlexeme, hpair⟩ := List.mem_map.mp hmem
      exact (expr.lexemes_balanced.isUsed lexeme hlexeme).kind_ne hother (Prod.mk.inj hpair).1
    · simp [hline] at hmem

/-- The tokens of a printed expression hold it from the first of its lexemes to the last. -/
private theorem tokens_holdsExpr (expr : OperatorExpr) (hnesting : expr.nesting < Level.maxCount) :
    expr.tokens.HoldsExpr 0 expr.lexemes.length expr.toExpr := by
  have hspells := expr.spells_tokens
  have hnewline := expr.tokens_newline
  have hyields : ((Level.withInner (Level.maxCount - 1)).layer conditionalPrecedence).Yields
      expr.tokens 0 expr.lexemes.length expr.toExpr := by
    refine expr.isRead.bare (Nat.le_refl _) expr.precedence_bounds.1 (Nat.le_pred_of_lt hnesting)
      hspells ?_
    rw [hnewline]
    decide
  have hlead : 0 < (expr.tokens.get 0).kind.leads :=
    Nat.lt_of_lt_of_le (by decide) (Nat.le_trans expr.precedence_bounds.1
      (expr.lexemes_startsLayer.get_kind hspells))
  exact ⟨hyields, hlead, hnewline, fun index => expr.kind_tokens_ne index rfl (by decide),
    fun index => expr.kind_tokens_ne index rfl (by decide),
    fun index => expr.kind_tokens_ne index rfl (by decide)⟩

/-- No token of a printed tree is invalid, so the parser's answer is not turned into an error. -/
theorem parseModule_tokens {expr : OperatorExpr} {module : Module} {after : Place}
    (hreads : Parser.module.Reads expr.tokens .start module after) :
    parseModule (expr.print ++ "\n") = .ok module :=
  parseModule_of_reads hreads fun index => expr.kind_tokens_ne index rfl (by decide)

/-- The tokens that a tree is written with are read as a module that holds the tree. -/
theorem tokens_module (expr : OperatorExpr) (hnesting : expr.nesting < Level.maxCount) :
    ∃ span value after,
      Parser.module.Reads expr.tokens .start
        ⟨⟨0, expr.tokens.size⟩, [⟨span, .expression value⟩]⟩ after ∧
      value.withoutSpans = expr.toExpr := by
  obtain ⟨hstop, hsize⟩ := expr.spells_tokens.stop_le expr.lexemes_ne_nil
  exact (expr.tokens_holdsExpr hnesting).module expr.tokens_endOfInput
    (Nat.lt_of_lt_of_le hstop hsize)

end OperatorExpr

/-! ## Names -/

/-- No keyword is spelled for identifiers. -/
theorem TokenKind.keyword?_ne_identifier (word : String) : keyword? word ≠ some .identifier := by
  have hall : ∀ entry ∈ keywordSpellings, entry.1 ≠ .identifier := by decide
  intro hkeyword
  obtain ⟨entry, hentry, hkind⟩ := Option.map_eq_some_iff.mp hkeyword
  exact hall entry (List.mem_of_find?_eq_some hentry) hkind

/-- What the lexer reads as an identifier is the text of one. -/
theorem Identifier.exists_of_significant {c : Char} {cursor stop : Cursor}
    (hpeek : cursor.peek? = some c)
    (hread : Lexer.significant c cursor = .ok (.identifier, stop)) :
    ∃ identifier : Identifier, identifier.text = String.ofList (cursor.textTo stop) := by
  have hstring : ∀ {offset formatted quote},
      Lexer.string offset formatted quote ≠ .ok (.identifier, stop) := by
    intro offset formatted quote hstring
    rw [Lexer.string_eq] at hstring
    split at hstring <;> cases hstring
  obtain ⟨cs, hrest⟩ := List.head?_eq_some_iff.mp hpeek
  have hpasses := cursor.passes_skipWhile Text.isIdentifierContinue
  unfold Lexer.significant at hread
  split at hread
  · rename_i hstart
    unfold Lexer.word at hread
    dsimp only at hread
    split at hread
    · exact absurd hread hstring
    · obtain ⟨hkind, rfl⟩ := Prod.mk.inj (Except.ok.inj hread)
      rw [hrest, List.takeWhile_cons_of_pos (Text.isIdentifierContinue_of_start hstart)] at hpasses
      rw [hpasses.textTo_eq] at hkind ⊢
      refine ⟨⟨c, cs.takeWhile Text.isIdentifierContinue, hstart,
        fun d hd => List.all_eq_true.mp List.all_takeWhile d hd, ?_⟩, rfl⟩
      cases hkeyword : TokenKind.keyword? (String.ofList (c :: cs.takeWhile _)) with
      | none => rfl
      | some kind =>
        rw [hkeyword] at hkind
        exact absurd (hkeyword.trans (congrArg some hkind)) (TokenKind.keyword?_ne_identifier _)
  split at hread
  · unfold Lexer.number at hread
    split at hread <;> cases hread
  split at hread
  · exact absurd hread hstring
  · exact absurd hread (Lexer.operator_ne_ok (by decide))

/-- The names of trees are all those that a source may have. -/
theorem Identifier.exists_text_eq_iff {text : String} :
    (∃ identifier : Identifier, identifier.text = text) ↔
      ∃ source, ∃ step ∈ Lexer.run source, step.1.kind = .identifier ∧ step.1.text = text := by
  constructor
  · rintro ⟨identifier, rfl⟩
    have hprint := Tokens.ofSource_print (.name identifier)
    have hmem : (TokenKind.identifier, identifier.text) ∈
        (OperatorExpr.name identifier).tokens.tokens.toList.map fun token => (token.kind, token.text) := by
      rw [OperatorExpr.tokens, hprint]
      exact List.mem_append_left _ (List.mem_cons_self ..)
    obtain ⟨token, htoken, hpair⟩ := List.mem_map.mp hmem
    obtain ⟨hkind, htext⟩ := Prod.mk.inj hpair
    rw [OperatorExpr.tokens, Tokens.ofSource, List.toList_toArray] at htoken
    obtain ⟨step, hstep, rfl⟩ := List.mem_map.mp htoken
    exact ⟨_, step, hstep, hkind, htext⟩
  · rintro ⟨source, step, hstep, hkind, rfl⟩
    obtain ⟨c, start, -, hpeek, htoken, hsignificant⟩ :=
      Lexer.run_significant hstep (by rw [hkind]; decide)
    rw [hkind] at hsignificant
    rw [htoken]
    exact exists_of_significant hpeek hsignificant

namespace OperatorExpr

/-- **Parsing a printed tree yields the tree.** The text of an operator tree and a line break are a
module of one expression statement, whose expression is the tree up to spans, unless the text nests
deeper than expressions may. The names in trees are all those that a source may have. -/
theorem parseModule_print (expr : OperatorExpr) (hnesting : expr.nesting ≤ 199) :
    (∃ module span value, parseModule (expr.print ++ "\n") = .ok module ∧
      module.body = [⟨span, .expression value⟩] ∧ value.withoutSpans = expr.toExpr) ∧
    ∀ text, (∃ identifier : Identifier, identifier.text = text) ↔
      ∃ source, ∃ step ∈ Lexer.run source, step.1.kind = .identifier ∧ step.1.text = text := by
  obtain ⟨span, value, after, hreads, hvalue⟩ := expr.tokens_module (Nat.lt_succ_of_le hnesting)
  exact ⟨⟨_, span, value, parseModule_tokens hreads, rfl, hvalue⟩,
    fun _ => Identifier.exists_text_eq_iff⟩

/-- A product of a sum in parentheses and a negated power, whose spaces stand where they may. -/
theorem parseModule_print_product :
    ∃ module span value, parseModule "( a + b ) * - c ** d\n" = .ok module ∧
      module.body = [⟨span, .expression value⟩] ∧
      value.withoutSpans = ⟨.point 0, .binary .multiplication
        ⟨.point 0, .binary .addition ⟨.point 0, .name "a"⟩ ⟨.point 0, .name "b"⟩⟩
        ⟨.point 0, .unary .unaryNegation
          ⟨.point 0, .binary .exponentiation ⟨.point 0, .name "c"⟩ ⟨.point 0, .name "d"⟩⟩⟩⟩ := by
  let product : OperatorExpr :=
    .binary ⟨.asterisk, .multiplication, rfl⟩
      (.binary ⟨.plus, .addition, rfl⟩ (.name ⟨'a', [], by decide, by simp, by decide⟩)
        (.name ⟨'b', [], by decide, by simp, by decide⟩))
      (.unary ⟨.hyphen, .unaryNegation, rfl⟩
        (.power (.name ⟨'c', [], by decide, by simp, by decide⟩)
          (.name ⟨'d', [], by decide, by simp, by decide⟩)))
  have hprint : product.print ++ "\n" = "( a + b ) * - c ** d\n" := by decide +kernel
  rw [← hprint]
  exact (parseModule_print product (by decide)).1

end OperatorExpr

end PythonOutline
