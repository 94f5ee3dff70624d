import PythonOutline.Proofs.Grammar.RegularStmt
import PythonOutline.Proofs.Parser.Machine

/-! # The methods of the grammar on a machine

Whatever is done with a machine, its buffer holds the first tokens of its source and its lexer stands
behind these, so a method of the grammar does on it what it does on the complete token sequence.
`Machine.Leads` collects what may be done: any scripts, at any nesting level.
-/

namespace PythonOutline

/-- The methods of the grammar, where a number of nesting levels may still be opened. Statements
start where none is open. -/
inductive Method : (levels : Nat) → {α : Type} → Parser α → Prop where
  | peek {levels : Nat} : Method levels Parser.peek
  | peekTwo {levels : Nat} : Method levels Parser.peekTwo
  | peekThree {levels : Nat} : Method levels Parser.peekThree
  | take {levels : Nat} : Method levels Parser.take
  | accept {levels : Nat} (kind : TokenKind) : Method levels (Parser.accept kind)
  | expect {levels : Nat} (kind : TokenKind) : Method levels (Parser.expect kind)
  | identifier {levels : Nat} : Method levels Parser.identifier
  | numberLiteral {levels : Nat} : Method levels Parser.numberLiteral
  | stringLiteral {levels : Nat} : Method levels Parser.stringLiteral
  | atom {levels : Nat} : Method levels (Level.withInner levels).atom
  | primary {levels : Nat} : Method levels (Level.withInner levels).primary
  | awaited {levels : Nat} : Method levels (Level.withInner levels).awaited
  | power {levels : Nat} : Method levels (Level.withInner levels).power
  | factor {levels : Nat} : Method levels (Level.withInner levels).factor
  | binary {levels : Nat} (tiers : Nat) : Method levels ((Level.withInner levels).binary tiers)
  | bitwiseOr {levels : Nat} : Method levels (Level.withInner levels).bitwiseOr
  | comparisonOperator {levels : Nat} : Method levels Level.comparisonOperator?
  | comparison {levels : Nat} : Method levels (Level.withInner levels).comparison
  | notTest {levels : Nat} : Method levels (Level.withInner levels).notTest
  | andTest {levels : Nat} : Method levels (Level.withInner levels).andTest
  | orTest {levels : Nat} : Method levels (Level.withInner levels).orTest
  | expr {levels : Nat} : Method levels (Level.withInner levels).expr
  | lambdaExpr {levels : Nat} : Method levels (Level.withInner levels).lambdaExpr
  | namedExpr {levels : Nat} : Method levels (Level.withInner levels).namedExpr
  | starred {levels : Nat} : Method levels (Level.withInner levels).starred
  | starExpr {levels : Nat} : Method levels (Level.withInner levels).starExpr
  | starNamedExpr {levels : Nat} : Method levels (Level.withInner levels).starNamedExpr
  | starExprs {levels : Nat} : Method levels (Level.withInner levels).starExprs
  | starNamedExprs {levels : Nat} : Method levels (Level.withInner levels).starNamedExprs
  | yieldExpr {levels : Nat} : Method levels (Level.withInner levels).yieldExpr
  | yieldOrStarExprs {levels : Nat} : Method levels (Level.withInner levels).yieldOrStarExprs
  | targetList {levels : Nat} : Method levels (Level.withInner levels).targetList
  | target {levels : Nat} : Method levels (Level.withInner levels).target
  | startsForClause {levels : Nat} : Method levels Parser.startsForClause
  | forClause {levels : Nat} : Method levels (Level.withInner levels).forClause
  | forClauses {levels : Nat} : Method levels (Level.withInner levels).forClauses
  | comprehension {levels : Nat} (start : Nat) (close : TokenKind) (kind : ComprehensionKind)
      (element : Expr) (value : Option Expr) :
      Method levels ((Level.withInner levels).comprehension start close kind element value)
  | displayElements {levels : Nat} (close : TokenKind) :
      Method levels ((Level.withInner levels).displayElements close)
  | parenDisplay {levels : Nat} : Method levels (Level.withInner levels).parenDisplay
  | listDisplay {levels : Nat} : Method levels (Level.withInner levels).listDisplay
  | dictEntry {levels : Nat} : Method levels (Level.withInner levels).dictEntry
  | braceDisplay {levels : Nat} : Method levels (Level.withInner levels).braceDisplay
  | argument {levels : Nat} : Method levels (Level.withInner levels).argument
  | arguments {levels : Nat} : Method levels (Level.withInner levels).arguments
  | subscript {levels : Nat} : Method levels (Level.withInner levels).subscript
  | sliceBound {levels : Nat} : Method levels (Level.withInner levels).sliceBound
  | sliceItem {levels : Nat} : Method levels (Level.withInner levels).sliceItem
  | param {levels : Nat} (kind : ParamKind) (typeHints : Bool) :
      Method levels ((Level.withInner levels).param kind typeHints)
  | params {levels : Nat} (close : TokenKind) (typeHints : Bool) :
      Method levels ((Level.withInner levels).params close typeHints)
  | typeParam : Method Parser.stmtLevels Parser.typeParam
  | typeParams : Method Parser.stmtLevels Parser.typeParams
  | assertStmt : Method Parser.stmtLevels Parser.assertStmt
  | deleteStmt : Method Parser.stmtLevels Parser.deleteStmt
  | raiseStmt : Method Parser.stmtLevels Parser.raiseStmt
  | returnStmt : Method Parser.stmtLevels Parser.returnStmt
  | typeAliasStmt : Method Parser.stmtLevels Parser.typeAliasStmt
  | namesStmt (form : List String → StmtForm) : Method Parser.stmtLevels (Parser.namesStmt form)
  | dottedName : Method Parser.stmtLevels Parser.dottedName
  | importModules : Method Parser.stmtLevels Parser.importModules
  | importFrom : Method Parser.stmtLevels Parser.importFrom
  | expressionStmt : Method Parser.stmtLevels Parser.expressionStmt
  | simpleStmt : Method Parser.stmtLevels Parser.simpleStmt
  | simpleStmts : Method Parser.stmtLevels Parser.simpleStmts
  | elseBlock : Method Parser.stmtLevels (Parser.elseBlock Parser.block)
  | ifStmt : Method Parser.stmtLevels (Parser.ifStmt Parser.block)
  | whileStmt : Method Parser.stmtLevels (Parser.whileStmt Parser.block)
  | forStmt : Method Parser.stmtLevels (Parser.forStmt Parser.block)
  | tryStmt : Method Parser.stmtLevels (Parser.tryStmt Parser.block)
  | withItem : Method Parser.stmtLevels Parser.withItem
  | groupedWithItems : Method Parser.stmtLevels Parser.groupedWithItems?
  | withItems : Method Parser.stmtLevels Parser.withItems
  | withStmt : Method Parser.stmtLevels (Parser.withStmt Parser.block)
  | casePattern : Method Parser.stmtLevels Parser.casePattern
  | matchCase : Method Parser.stmtLevels (Parser.matchCase Parser.block)
  | matchSubject : Method Parser.stmtLevels Parser.matchSubject?
  | matchStmt : Method Parser.stmtLevels (Parser.matchStmt? Parser.block)
  | definedName : Method Parser.stmtLevels Parser.definedName
  | decorators : Method Parser.stmtLevels Parser.decorators
  | classDef (decorators : List Decorator) :
      Method Parser.stmtLevels (Parser.classDef Parser.block decorators)
  | functionDef (decorators : List Decorator) :
      Method Parser.stmtLevels (Parser.functionDef Parser.block decorators)
  | definition : Method Parser.stmtLevels (Parser.definition Parser.block)
  | block : Method Parser.stmtLevels Parser.block
  | stmtLine : Method Parser.stmtLevels Parser.stmtLine
  | stmts (stop : TokenKind) : Method Parser.stmtLevels (Parser.stmts stop)
  | module : Method Parser.stmtLevels Parser.module

/-- Each method of the parser is a regular one. -/
theorem Method.regular {bound levels : Nat} {α : Type} {parser : Parser α}
    (hmethod : Method levels parser) : Parser.Regular bound levels [] parser := by
  cases hmethod <;> infer_instance

namespace Machine

variable {source : String} {machine later : Machine} {place : Place} {nesting : Nat}

/-- The machines that come of a machine by any operations. -/
inductive Leads (first : Machine) : Machine → Prop where
  | refl : Leads first first
  /-- A script is performed, and yields a value or fails. -/
  | run {machine : Machine} {α : Type} (script : Script α) (hleads : Leads first machine) :
      Leads first (script.run machine).2
  /-- A nesting level is opened, in which more is to be done. -/
  | enter {machine : Machine} (hopen : machine.nesting + 1 < Level.maxCount)
      (hleads : Leads first machine) : Leads first machine.enter

/-- The buffer holds the first tokens that the lexer answers for the source, the lexer has answered
these and no more, and the next token is at most the one behind them. -/
structure Sound (machine : Machine) : Prop where
  buffer_eq : machine.buffer = (Lexer.ofSource machine.source).firstTokens machine.buffer.length
  lexer_eq : machine.lexer = (Lexer.ofSource machine.source).after machine.buffer.length
  next_le : machine.next ≤ machine.buffer.length

/-- No script tells one machine from the other, as long as it does not go back on its own. -/
def Alike (machine other : Machine) : Prop :=
  ∀ (α : Type) (script : Script α), script.Plain →
    (script.run other).1 = (script.run machine).1 ∧
      (script.run other).2.next = (script.run machine).2.next

/-- The machine that answers stands where the parser has stopped. -/
theorem answer_snd {α : Type} (outcome : Parser.Outcome α) :
    (answer source nesting outcome).2 = ofPlace source (Parser.stop outcome) nesting := by
  cases outcome <;> rfl

/-- What comes of a machine at a place is a machine at a later place. -/
theorem leads_ofPlace (hplace : place.next ≤ place.seen)
    (hleads : (ofPlace source place nesting).Leads later) :
    ∃ after : Place, place.Grows after ∧ later = ofPlace source after later.nesting := by
  induction hleads with
  | refl => exact ⟨place, ⟨Nat.le_refl _, hplace⟩, rfl⟩
  | run script _ ih =>
    obtain ⟨after, hgrows, hmachine⟩ := ih
    rw [hmachine, run_ofPlace script hgrows.next_le, answer_snd]
    exact ⟨_, hgrows.trans (script.grows_eval _ _ hgrows.next_le), rfl⟩
  | enter _ _ ih =>
    obtain ⟨after, hgrows, hmachine⟩ := ih
    exact ⟨after, hgrows, by rw [hmachine]; rfl⟩

/-- A machine that others lead to is given by its place and its count of levels. -/
theorem Leads.eq_ofPlace (hleads : (ofSource source).Leads machine) :
    ∃ place : Place, place.next ≤ place.seen ∧ machine = ofPlace source place machine.nesting := by
  have hstart : ofSource source = ofPlace source .start 0 := rfl
  rw [hstart] at hleads
  obtain ⟨place, hgrows, hmachine⟩ := leads_ofPlace (Nat.le_refl _) hleads
  exact ⟨place, hgrows.next_le, hmachine⟩

private theorem sound_ofPlace (hplace : place.next ≤ place.seen) :
    (ofPlace source place nesting).Sound := by
  have hlength : (ofPlace source place nesting).buffer.length = place.seen :=
    Lexer.length_firstTokens ..
  exact ⟨by rw [hlength]; rfl, by rw [hlength]; rfl, by rw [hlength]; exact hplace⟩

/-- Machines at places with the same next token are alike. -/
theorem alike_ofPlace {other : Place} (hplace : place.next ≤ place.seen)
    (hother : other.next ≤ other.seen) (hnext : other.next = place.next) :
    (ofPlace source place nesting).Alike (ofPlace source other nesting) := by
  intro α script hplain
  rw [run_ofPlace script hplace, run_ofPlace script hother, answer_snd, answer_snd]
  have hagrees : Parser.Agrees
      (script.eval (Level.maxCount - 1 - nesting) (Tokens.ofSource source) place)
      (script.eval (Level.maxCount - 1 - nesting) (Tokens.ofSource source) other) :=
    hplain.agrees _ hnext
  cases hfirst : script.eval (Level.maxCount - 1 - nesting) (Tokens.ofSource source) place <;>
    cases hsecond : script.eval (Level.maxCount - 1 - nesting) (Tokens.ofSource source) other <;>
    rw [hfirst, hsecond] at hagrees
  · exact ⟨congrArg Except.ok hagrees.1, hagrees.2⟩
  · exact hagrees.elim
  · exact hagrees.elim
  · exact ⟨congrArg Except.error hagrees.1, hagrees.2⟩

/-- A script that yields none and is undone leaves a machine that goes on as if nothing was done. -/
theorem alike_rewound {α : Type} (hplace : place.next ≤ place.seen) (body : Script (Option α))
    (hnone : ((Script.rewindable body .done).run (ofPlace source place nesting)).1 = .ok none) :
    (ofPlace source place nesting).Alike
      ((Script.rewindable body .done).run (ofPlace source place nesting)).2 := by
  have hgrows := body.grows_eval (Level.maxCount - 1 - nesting) (Tokens.ofSource source) hplace
  have hback := hgrows.back hplace
  rw [run_ofPlace _ hplace, Script.eval_rewindable] at hnone ⊢
  rw [answer_snd]
  cases hresult : body.eval (Level.maxCount - 1 - nesting) (Tokens.ofSource source) place with
  | error error middle =>
    rw [hresult] at hback
    exact alike_ofPlace hplace hback.next_le rfl
  | ok value middle =>
    rw [hresult] at hnone hback
    cases value with
    | none => exact alike_ofPlace hplace hback.next_le rfl
    | some value => cases hnone

/-- A method is one script for a source, which a machine performs as the method says. -/
theorem run_method {levels : Nat} {α : Type} {parser : Parser α} (hmethod : Method levels parser)
    (source : String) :
    ∃ script : Script α, script.Plain ∧
      ∀ {place : Place} {nesting : Nat}, place.next ≤ place.seen →
        nesting + levels + 1 = Level.maxCount →
          script.run (ofPlace source place nesting) =
            answer source nesting (parser (Tokens.ofSource source) place) := by
  have hregular : Parser.Regular (Tokens.ofSource source).tokens.size levels [] parser :=
    hmethod.regular
  obtain ⟨script, hplain, heval⟩ := hregular.performed
  refine ⟨script, hplain, fun {place nesting} hplace hlevels => ?_⟩
  have hopen : Level.maxCount - 1 - nesting = levels := by omega
  rw [run_ofPlace script hplace, hopen, heval _ rfl]

/-- **The buffer of a parser.** Whatever is done with a parser of a source: its buffer holds the
first tokens of the source and its lexer stands behind them, an operation leaves the nesting
counter as it was, earlier checkpoints can be gone back to, and what is undone is as if it had
not been done. A method of the grammar does what it does on the complete token sequence, at the
next token. -/
theorem operations_sound (source : String) :
    (∀ {machine : Machine}, (ofSource source).Leads machine →
      machine.source = source ∧ machine.Sound ∧
      (∀ {α : Type} (script : Script α), (script.run machine).2.nesting = machine.nesting) ∧
      (∀ {later : Machine}, machine.Leads later →
        later.restore machine.next = { later with next := machine.next }) ∧
      ∀ {α : Type} (body : Script (Option α)),
        ((Script.rewindable body .done).run machine).1 = .ok none →
          machine.Alike ((Script.rewindable body .done).run machine).2) ∧
    ∀ {levels : Nat} {α : Type} {parser : Parser α}, Method levels parser →
      ∃ script : Script α, script.Plain ∧
        ∀ {machine : Machine}, (ofSource source).Leads machine →
          machine.nesting + levels + 1 = Level.maxCount →
            script.run machine = answer source machine.nesting
              (parser (Tokens.ofSource source) ⟨machine.next, machine.buffer.length⟩) := by
  refine ⟨fun hleads => ?_, fun {_ _ parser} hmethod => ?_⟩
  · obtain ⟨place, hplace, hmachine⟩ := hleads.eq_ofPlace
    rw [hmachine]
    refine ⟨rfl, sound_ofPlace hplace, fun script => ?_, fun hlater => ?_, alike_rewound hplace⟩
    · rw [run_ofPlace script hplace, answer_snd]
      rfl
    · obtain ⟨after, hgrows, hafter⟩ := leads_ofPlace hplace hlater
      rw [hafter]
      exact restore_ofPlace_of_le (Nat.le_trans hplace hgrows.seen_le)
  · obtain ⟨script, hplain, hrun⟩ := run_method hmethod source
    refine ⟨script, hplain, fun {machine} hleads hlevels => ?_⟩
    obtain ⟨place, hplace, hmachine⟩ := hleads.eq_ofPlace
    have hat : (⟨place.next, ((Lexer.ofSource source).firstTokens place.seen).length⟩ : Place) =
        place := by
      rw [Lexer.length_firstTokens]
    rw [hmachine, hrun hplace hlevels]
    exact congrArg (fun place => answer source machine.nesting (parser (Tokens.ofSource source) place))
      hat.symm

/-- The buffer is sound behind a look at two tokens that is undone, and a module is read as on the
complete token sequence from there. -/
theorem operations_sound_matched :
    let source := "match x\n"
    let look : Script (Option Unit) := .ahead 2 fun _ => .done none
    let machine := ((Script.rewindable look .done).run (ofSource source)).2
    machine.next = 0 ∧ machine.buffer.length = 2 ∧ machine.Sound ∧ (ofSource source).Alike machine ∧
      machine.restore 0 = { machine with next := 0 } ∧
      ∃ script : Script Module, script.run machine =
        answer source 0 (Parser.module (Tokens.ofSource source) ⟨0, 2⟩) := by
  intro source look machine
  have hstart : (ofSource source).Leads (ofSource source) := .refl
  have hleads : (ofSource source).Leads machine := .run _ hstart
  obtain ⟨-, -, -, hrestore, halike⟩ := (operations_sound source).1 hstart
  obtain ⟨-, hsound, -⟩ := (operations_sound source).1 hleads
  obtain ⟨script, -, hrun⟩ := (operations_sound source).2 Method.module
  exact ⟨rfl, rfl, hsound, halike look rfl, hrestore hleads, script,
    hrun hleads rfl⟩

/-- A module is parsed by a machine that asks its lexer for one token at a time, and that learns of
a lexical error from the lexer where the machine has stopped. -/
theorem parseModule_eq_run (source : String) :
    ∃ script : Script Module, script.Plain ∧ parseModule source =
      match script.run (ofSource source) with
      | (.ok value, machine) =>
        match machine.lexer.failure with
        | some failure => .error failure
        | none => .ok value
      | (.error error, machine) =>
        match machine.lexer.failure with
        | some failure => .error (if failure.span.start ≤ error.span.start then failure else error)
        | none => .error error := by
  obtain ⟨script, hplain, hrun⟩ := run_method Method.module source
  refine ⟨script, hplain, ?_⟩
  have hstart : script.run (ofSource source) = answer source 0 _ :=
    hrun (Nat.le_refl Place.start.next) rfl
  rw [hstart, parseModule, Parser.runOn]
  cases Parser.module (Tokens.ofSource source) .start with
  | ok _ place | error _ place =>
    cases hfailure : (Tokens.ofSource source).failureWithin place.seen <;>
      simp only [answer, ofPlace, ← Tokens.failureWithin_ofSource, hfailure]

end Machine

end PythonOutline
