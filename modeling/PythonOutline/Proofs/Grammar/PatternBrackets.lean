import PythonOutline.Proofs.Grammar.DepthBlock
import PythonOutline.Proofs.Grammar.LexicalError
import PythonOutline.Proofs.Grammar.Pattern

/-! # Closing brackets in patterns

A pattern counts its brackets, and a closing bracket leaves the count at zero where it is zero
already. That never happens: the grammar is followed here with another parser for such a bracket,
and whichever parser that is, every source is read alike, with lexical errors or without. So the
brackets of a pattern are those that the lexer has matched. -/

namespace PythonOutline

namespace Parser

/-! ## The grammar with another parser for an unmatched bracket -/

section

variable (unmatched : Token → Parser Nat)

/-- Takes one more token of a pattern, where `unmatched` reads how many brackets are open behind a
closing bracket that closes none. -/
abbrev patternStepOr : Nat × Option Span → Parser (Step (Nat × Option Span) (Option Span)) :=
  fun (depth, span) => do
    let token ← peek
    if depth = 0 ∧ (token.kind = .colon ∨ token.kind = .keywordIf) then return .done span
    if token.kind = .endOfInput ∨ token.kind = .invalid ∨ ¬token.kind.isSignificant then
      throw (token.error (.expected "pattern"))
    let depth ←
      if token.kind.isOpenBracket then pure (depth + 1)
      else if token.kind.isCloseBracket then
        if depth = 0 then unmatched token else pure (depth - 1)
      else pure depth
    let _ ← take
    return .next (depth, some (token.span.joinOption span))

/-- A pattern as its source text. -/
def casePatternOr : Parser String := do
  match ← iterate ((0, none) : Nat × Option Span) (patternStepOr unmatched) with
  | some span => return String.ofList (Text.slice (← read).source span.start span.stop)
  | none => failNext (.expected "pattern")

/-- A case of a match statement. -/
def matchCaseOr (block : Parser (List Stmt)) : Parser MatchCase := spanned do
  let _ ← take
  let pattern ← casePatternOr unmatched
  let guard ← ifAccepted .keywordIf namedExpr
  let body ← block
  return fun span => ⟨span, pattern, guard, body⟩

/-- A match statement, if the line is the header of one. Otherwise nothing is taken. -/
def matchStmtOr? (block : Parser (List Stmt)) : Parser (Option Stmt) := do
  let start ← mark
  match ← matchSubject? with
  | none => return none
  | some subject =>
    let cases ← repeatWhile (nextIsWord "case") (matchCaseOr unmatched block)
    let _ ← expect .dedent
    return some ⟨← spanSince start, .matchCases subject cases⟩

/-- One compound statement, or a line of simple statements. -/
def stmtLineOr (block : Parser (List Stmt)) : Parser (List Stmt) := do
  let (first, _) ← peekTwo
  if first.kind = .identifier ∧ first.text = "match" then
    match ← matchStmtOr? unmatched block with
    | some stmt => return [stmt]
    | none => simpleStmts
  else stmtLineOver block

/-- A block that nests at most `depth` blocks, itself included. -/
def blockOr : (depth : Nat) → Parser (List Stmt)
  | 0 => failNext .nestingTooDeep
  | depth + 1 => blockOver (stmtLineOr unmatched (blockOr depth))

/-- A whole module. -/
def moduleOr : Parser Module := do
  let body ← stmtsOver (stmtLineOr unmatched (blockOr unmatched maxIndentLevels)) .endOfInput
  let _ ← expect .endOfInput
  return ⟨⟨0, (← read).size⟩, body⟩

end

variable {tokens : Tokens} {place : Place} {block : Parser (List Stmt)} {level : Int}
  (unmatched : Token → Parser Nat)

private theorem peekTwo_apply :
    peekTwo tokens place =
      .ok (tokens.get place.next, tokens.get (place.next + 1)) (place.look 1) :=
  reads_peekTwo.mpr ⟨rfl, rfl⟩

/-- A line may have been looked at before it is read. -/
theorem stmtLineOver_look :
    stmtLineOver block tokens (place.look 1) = stmtLineOver block tokens place := by
  rw [stmtLineOver, bind_apply, bind_apply, peekTwo_apply, peekTwo_apply, Place.look_look]
  rfl

/-- A line that starts with the word `match` is a match statement or simple statements. -/
theorem stmtLineOver_match (hkind : (tokens.get place.next).kind = .identifier)
    (htext : (tokens.get place.next).text = "match") :
    stmtLineOver block tokens place =
      (matchStmt? block >>= fun stmt? => match stmt? with
        | some stmt => pure [stmt]
        | none => simpleStmts) tokens (place.look 1) := by
  rw [stmtLineOver, bind_apply, peekTwo_apply]
  simp only [hkind, htext]
  rfl

/-- Lines are read alike if match statements are. -/
theorem stmtLineOr_eq_of_match
    (hmatch : ∀ place, matchStmtOr? unmatched block tokens place = matchStmt? block tokens place) :
    stmtLineOr unmatched block tokens place = stmtLineOver block tokens place := by
  rw [stmtLineOr, bind_apply, peekTwo_apply]
  dsimp only
  split
  · rename_i hword
    rw [stmtLineOver_match hword.1 hword.2, bind_apply, bind_apply, hmatch]
  · exact stmtLineOver_look

/-- A step that leaves no bracket open behind an unmatched one is that of the grammar. -/
theorem patternStepOr_zero : patternStepOr (fun _ => pure 0) = patternStep := by
  funext ⟨depth, span⟩
  simp only [patternStepOr, patternStep]
  congr 1
  funext token
  by_cases hopen : token.kind.isOpenBracket
  · simp [hopen]
  · by_cases hclose : token.kind.isCloseBracket
    · by_cases hzero : depth = 0
      · simp [hopen, hclose, hzero]
      · simp [hopen, hclose, hzero]
    · simp [hopen, hclose]

/-- The grammar itself leaves no bracket open behind an unmatched one. -/
theorem moduleOr_zero : moduleOr (fun _ => pure 0) = module := by
  have hmatch : ∀ block : Parser (List Stmt),
      matchStmtOr? (fun _ => pure 0) block = matchStmt? block := by
    intro block
    rw [matchStmtOr?, matchCaseOr, casePatternOr, patternStepOr_zero]
    rfl
  have hline : ∀ block : Parser (List Stmt),
      stmtLineOr (fun _ => pure 0) block = stmtLineOver block := by
    intro block
    funext tokens place
    exact stmtLineOr_eq_of_match _ fun place => by rw [hmatch]
  have hblock : ∀ depth, blockOr (fun _ => pure 0) depth = blockWithin depth := by
    intro depth
    induction depth with
    | zero => rfl
    | succ depth ih => rw [blockOr, blockWithin, hline, ih]
  rw [moduleOr, hline, hblock]
  rfl

/-! ## Matched brackets -/

/-- Two loops do the same if their steps do wherever a condition holds, which each step keeps. -/
theorem iterate_eq_of_invariant {σ α : Type} {step step' : σ → Parser (Step σ α)}
    {holds : σ → Place → Prop}
    (hstep : ∀ state place, holds state place → step' state tokens place = step state tokens place)
    (hkeeps : ∀ {state state' before after}, holds state before →
      (step state).Reads tokens before (.next state') after → holds state' after)
    {state : σ} (hstart : holds state place) :
    iterate state step' tokens place = iterate state step tokens place := by
  have hfor : ∀ (fuel : Nat) (state : σ) (place : Place), holds state place →
      iterateFor step' fuel state tokens place = iterateFor step fuel state tokens place := by
    intro fuel
    induction fuel with
    | zero => exact fun _ _ _ => rfl
    | succ fuel ih =>
      intro state place hholds
      rw [iterateFor, iterateFor, bind_apply, bind_apply, hstep state place hholds]
      cases hresult : step state tokens place with
      | error => rfl
      | ok decision middle =>
        cases decision with
        | next state' => exact ih state' middle (hkeeps hholds hresult)
        | done => rfl
  exact hfor _ state place hstart

section

variable (hmatched : tokens.Matched)

include hmatched

/-- Where the count is the number of open brackets, no closing bracket is unmatched. -/
theorem patternStepOr_eq {state : Nat × Option Span}
    (hdepth : state.1 = (tokens.openers place.next).length) :
    patternStepOr unmatched state tokens place = patternStep state tokens place := by
  obtain ⟨depth, span⟩ := state
  have hpeek : peek tokens place = .ok (tokens.get place.next) (place.look 0) :=
    reads_peek.mpr ⟨rfl, rfl⟩
  have hne : (tokens.get place.next).kind.isCloseBracket → depth ≠ 0 := by
    intro hclose
    have hlength := hmatched.length_close hclose
    dsimp only at hdepth
    omega
  simp only [patternStepOr, patternStep, bind_apply, hpeek]
  generalize tokens.get place.next = token at hne
  by_cases hopen : token.kind.isOpenBracket
  · simp [hopen]
  · by_cases hclose : token.kind.isCloseBracket
    · simp [hopen, hclose, hne hclose]
    · simp [hopen, hclose]

private theorem casePatternOr_eq (hopened : tokens.openers place.next = []) :
    casePatternOr unmatched tokens place = casePattern tokens place := by
  have hspan : iterate ((0, none) : Nat × Option Span) (patternStepOr unmatched) tokens place =
      patternSpan? tokens place :=
    iterate_eq_of_invariant (fun _ _ hdepth => patternStepOr_eq unmatched hmatched hdepth)
      (fun hdepth hstep => depth_eq_of_patternStep hdepth hstep) (by rw [hopened]; rfl)
  rw [casePatternOr, bind_apply, hspan]
  exact (bind_apply (patternSpan?) _ tokens place).symm

private theorem matchCaseOr_eq (hopened : tokens.openers place.next = [])
    (hkind : tokens.kindAt place = .identifier) :
    matchCaseOr unmatched block tokens place = matchCase block tokens place := by
  have hsame : SameAt tokens (fun _ => True) (matchCase block) (matchCaseOr unmatched block) place := by
    refine .spanned <| .bind rfl fun token after htoken => ?_
    obtain ⟨-, rfl⟩ := reads_take.mp htoken
    have hinner : tokens.openers place.step.next = [] := by
      rw [Place.step_next, Tokens.openers, Token.openersBehind, Tokens.get_kind, hkind]
      exact hopened
    exact .bind (casePatternOr_eq unmatched hmatched hinner) fun _ _ _ => ⟨rfl, fun _ _ _ => trivial⟩
  exact hsame.1

/-- The cases of a match statement stand outside of brackets. -/
theorem matchStmtOr?_eq (hends : block.EndsLines tokens) :
    matchStmtOr? unmatched block tokens place = matchStmt? block tokens place := by
  have hcases : SameInside tokens (fun index => tokens.openers index = [])
      (repeatWhile (nextIsWord "case") (matchCase block))
      (repeatWhile (nextIsWord "case") (matchCaseOr unmatched block)) := by
    refine sameInside_repeatWhile
      (sameInside_of_stays fun _ _ _ hreads => by rw [(reads_nextIsWord.mp hreads).2]; rfl) ?_
    intro before start hbefore hstart
    obtain ⟨hword, rfl⟩ := reads_nextIsWord.mp hstart
    refine ⟨matchCaseOr_eq unmatched hmatched hbefore (kind_of_isWord hword.symm), ?_⟩
    intro case after hcase
    obtain ⟨_, _, -, _, _, -, body, hbody, -⟩ := reads_matchCase.mp hcase
    exact hmatched.openers_endsLine (hends hbody)
  have hsame : SameAt tokens (fun _ => True) (matchStmt? block) (matchStmtOr? unmatched block)
      place := by
    refine .bind rfl fun start before _ => .bind rfl fun subject? middle hsubject => ?_
    cases subject? with
    | none => exact ⟨rfl, fun _ _ _ => trivial⟩
    | some subject =>
      exact .bind (hcases (matchSubject?_openers hmatched hsubject)).1 fun _ _ _ =>
        ⟨rfl, fun _ _ _ => trivial⟩
  exact hsame.1

/-- On balanced tokens no pattern closes more than it opened, so the answer for that case is never
asked for. -/
private theorem stmtLineOr_sameLevel (hordered : tokens.InOrder) {depth : Nat}
    (hblock : ∀ level, SameLevel tokens level (blockWithin depth) (blockOr unmatched depth))
    (level : Int) :
    SameLevel tokens level (stmtLineOver (blockWithin depth))
      (stmtLineOr unmatched (blockOr unmatched depth)) := by
  have hends : (blockOr unmatched depth).EndsLines tokens := by
    intro before stmts after hreads
    -- At the level of its place a block is that of the grammar.
    have hsame := (hblock (tokens.levelAt before.next) (Int.le_refl _)).1
    rw [Parser.Reads, hsame] at hreads
    exact blockWithin_endsLines depth hreads
  have hline := stmtLineOver_sameLevel hordered (hblock level) (hblock (level + 1))
  intro place hplace
  obtain ⟨hsame, hafter⟩ := hline hplace
  refine ⟨?_, hafter⟩
  rw [stmtLineOr_eq_of_match unmatched fun place => matchStmtOr?_eq unmatched hmatched hends, hsame]

/-- A block is read alike at every level. -/
theorem blockOr_sameLevel (hordered : tokens.InOrder) (depth : Nat) :
    ∀ level, SameLevel tokens level (blockWithin depth) (blockOr unmatched depth) := by
  induction depth with
  | zero => exact fun _ => sameInside_failNext
  | succ depth ih =>
    intro level
    exact blockOver_sameLevel hordered (stmtLineOr_sameLevel unmatched hmatched hordered ih (level + 1))

/-- Whatever reads an unmatched bracket, a module is read alike. -/
theorem moduleOr_eq (hordered : tokens.InOrder) :
    moduleOr unmatched tokens .start = module tokens .start := by
  have hblock := blockOr_sameLevel unmatched hmatched hordered maxIndentLevels
  have hline := stmtLineOr_sameLevel unmatched hmatched hordered hblock 0
  have hstart : tokens.AtLevel 0 Place.start.next := Int.le_refl _
  have hbody := stmtsOver_sameLevel hline .endOfInput hstart
  rw [moduleOr, module, bind_apply, bind_apply, hbody.1]
  rfl

end

end Parser

/-- **The pattern of a case has balanced brackets.** In a source that is a module, the pattern of
every case is the text from the first to the last of the tokens between its `case` and its guard or
its colon, of which there are some. Their brackets are balanced, and a colon or an `if` among them
stands within brackets. The grammar takes a closing bracket that stands where a pattern has none
open for one that leaves none open. Whatever it is taken for, every source is read alike, be it a
module or not: no pattern ever comes to such a bracket. -/
theorem parseModule_patterns (source : String) :
    (∀ {module : Module} {stmt : Stmt}, parseModule source = .ok module →
      Stmt.Within module.body stmt → ∀ case ∈ stmt.form.cases,
        ∃ keyword stop, (Tokens.ofSource source).HasPattern keyword stop case) ∧
    Parser.moduleOr (fun _ => pure 0) = Parser.module ∧
    ∀ unmatched, Parser.moduleOr unmatched (Tokens.ofSource source) .start =
      Parser.module (Tokens.ofSource source) .start := by
  have hordered := Tokens.inOrder_ofSource source
  have hmatched := Tokens.matched_ofSource source
  refine ⟨?_, Parser.moduleOr_zero,
    fun unmatched => Parser.moduleOr_eq unmatched hmatched hordered⟩
  intro module stmt hparse hwithin case hcase
  obtain ⟨before, hreads⟩ := parseModule_wasRead hparse hwithin
  obtain ⟨depth, start, after, hmatch⟩ := hreads.reads_matchStmt? hcase
  exact Parser.matchStmt?_hasPattern hordered hmatched hmatch case hcase

/-- A match statement whose case has a guard, with a colon and an `if` in the brackets of
its pattern. -/
def matchesNested : String :=
  "match x:\n case \x7b'a': [y if z else (w)]\x7d if x:\n  pass\n"

/-- The pattern is the text up to the guard, brackets and all. -/
theorem parseModule_patterns_nested :
    ∃ module stmt case keyword stop, parseModule matchesNested = .ok module ∧
      Stmt.Within module.body stmt ∧ case ∈ stmt.form.cases ∧ case.guard.isSome ∧
      case.pattern = "\x7b'a': [y if z else (w)]\x7d" ∧
      (Tokens.ofSource matchesNested).HasPattern keyword stop case := by
  have hreads : (parseModule matchesNested).toOption.any fun module =>
      module.body.any fun stmt => stmt.form.cases.any fun case =>
        case.guard.isSome ∧ case.pattern = "\x7b'a': [y if z else (w)]\x7d" := by
    decide +kernel
  cases hparse : parseModule matchesNested with
  | error failure =>
    rw [hparse] at hreads
    cases hreads
  | ok module =>
    rw [hparse] at hreads
    obtain ⟨stmt, hstmt, hreads⟩ := List.any_eq_true.mp hreads
    obtain ⟨case, hcase, hreads⟩ := List.any_eq_true.mp hreads
    obtain ⟨hguard, hpattern⟩ := of_decide_eq_true hreads
    obtain ⟨keyword, stop, hhas⟩ :=
      (parseModule_patterns matchesNested).1 hparse (.among hstmt) case hcase
    exact ⟨module, stmt, case, keyword, stop, rfl, .among hstmt, hcase, hguard, hpattern, hhas⟩

end PythonOutline
