import Mathlib.Data.List.Forall2
import PythonOutline.Outline.Declaration
import PythonOutline.Proofs.Tree.Clause

/-! # Logical lines and the definitions they start

A token sequence is split into logical lines by its line breaks, and the changes of indentation tell
how deep each line lies. The first tokens of a line tell whether a definition starts there. This
module defines the lines and says what a run of tokens adds to them; nothing in it looks at the
grammar.
-/

namespace PythonOutline

/-- A logical line: how many changes of indentation are open around it, and its tokens without the
line break. -/
structure LogicalLine where
  depth : Nat
  tokens : List Token
  deriving DecidableEq, Repr

/-- The logical lines of a token sequence at a depth, behind tokens of an unfinished line. -/
def logicalLinesFrom (depth : Nat) (current : List Token) : List Token → List LogicalLine
  | [] => if current.isEmpty then [] else [⟨depth, current⟩]
  | token :: tokens =>
    match token.kind with
    | .indent => logicalLinesFrom (depth + 1) current tokens
    | .dedent => logicalLinesFrom (depth - 1) current tokens
    | .newline => ⟨depth, current⟩ :: logicalLinesFrom depth [] tokens
    | _ => logicalLinesFrom depth (current ++ [token]) tokens

/-- The logical lines of a token sequence. -/
def logicalLines (tokens : List Token) : List LogicalLine :=
  logicalLinesFrom 0 [] tokens

/-- The start of a definition: what is defined, and the tokens behind the keywords that say so. -/
structure Header where
  kind : DeclarationKind
  tokens : List Token
  deriving DecidableEq, Repr

/-- The start of the definition that tokens start with `def`, `class`, or `async` and `def`. -/
def header? : List Token → Option Header
  | [] => none
  | first :: others =>
    match first.kind, others with
    | .keywordDef, _ => some ⟨.function, others⟩
    | .keywordClass, _ => some ⟨.classType, others⟩
    | .keywordAsync, second :: others =>
      if second.kind = .keywordDef then some ⟨.asyncFunction, others⟩ else none
    | _, _ => none

/-- The headers of the lines at a depth. -/
def headersAt (depth : Nat) (lines : List LogicalLine) : List Header :=
  (lines.filter fun line => line.depth = depth).filterMap fun line => header? line.tokens

/-- What a statement defines, if it is the definition of a function or a class. -/
def Stmt.definition? (stmt : Stmt) : Option (DeclarationKind × Name) :=
  match stmt.form with
  | .functionDef _ isAsync name _ _ _ _ =>
    some (if isAsync then .asyncFunction else .function, name)
  | .classDef _ name _ _ _ => some (.classType, name)
  | _ => none

/-- A header starts a definition: the kinds agree, and the name is the identifier behind the
keywords. -/
def Header.Starts (header : Header) (definition : DeclarationKind × Name) : Prop :=
  header.kind = definition.1 ∧ ∃ name others, header.tokens = name :: others ∧
    name.kind = .identifier ∧ definition.2 = ⟨name.span, name.text⟩

/-- Whether a definition may start with a token of a kind. -/
def startsDefinition : TokenKind → Bool
  | .keywordAsync | .keywordClass | .keywordDef => true
  | _ => false

/-- A line is no header unless its first token may start one. -/
theorem header?_eq_none {first : Token} {others : List Token} {kind : TokenKind}
    (hkind : first.kind = kind) (hother : startsDefinition kind = false) :
    header? (first :: others) = none := by
  unfold header?
  dsimp only
  subst hkind
  split <;> rename_i hfirst <;> first | rfl | (rw [hfirst] at hother; cases hother)

private theorem headersAt_append (depth : Nat) (first second : List LogicalLine) :
    headersAt depth (first ++ second) = headersAt depth first ++ headersAt depth second := by
  simp [headersAt]

/-- Lines that lie deeper have no headers at a depth. -/
theorem headersAt_eq_nil {depth : Nat} {lines : List LogicalLine}
    (hdeeper : ∀ line ∈ lines, depth < line.depth) : headersAt depth lines = [] := by
  have hnone : lines.filter (fun line => line.depth = depth) = [] := by
    refine List.filter_eq_nil_iff.mpr fun line hline => ?_
    have hlt := hdeeper line hline
    simpa using Nat.ne_of_gt hlt
  rw [headersAt, hnone, List.filterMap_nil]

/-- Text goes to the unfinished line. -/
theorem logicalLinesFrom_solid {depth : Nat} {current tokens others : List Token}
    (hsolid : ∀ token ∈ tokens, token.kind.IsSolid) :
    logicalLinesFrom depth current (tokens ++ others) =
      logicalLinesFrom depth (current ++ tokens) others := by
  induction tokens generalizing current with
  | nil => simp
  | cons token tokens ih =>
    have hfirst := hsolid token (List.mem_cons_self ..)
    have hrest := @ih (current ++ [token]) fun other hother =>
      hsolid other (List.mem_cons_of_mem _ hother)
    rw [List.append_assoc] at hrest
    rw [List.cons_append, logicalLinesFrom]
    split
    · rename_i hkind
      rw [hkind] at hfirst
      exact absurd hfirst (by decide)
    · rename_i hkind
      rw [hkind] at hfirst
      exact absurd hfirst (by decide)
    · rename_i hkind
      rw [hkind] at hfirst
      exact absurd hfirst (by decide)
    · exact hrest

namespace Tokens

variable {tokens : Tokens} {start middle stop : Nat}

/-- The tokens from one index up to another. -/
def run (tokens : Tokens) (start stop : Nat) : List Token :=
  (List.range' start (stop - start)).map tokens.get

@[simp]
theorem run_self (tokens : Tokens) (start : Nat) : tokens.run start start = [] := by
  simp [run]

/-- A run is its first token and the run behind it. -/
theorem run_cons (hlt : start < stop) :
    tokens.run start stop = tokens.get start :: tokens.run (start + 1) stop := by
  obtain ⟨count, hcount⟩ : ∃ count, stop - start = count + 1 := ⟨stop - start - 1, by omega⟩
  have hrest : stop - (start + 1) = count := by omega
  rw [run, run, hcount, hrest, List.range'_succ, List.map_cons]

/-- Runs behind each other are one run. -/
theorem run_append (hstart : start ≤ middle) (hstop : middle ≤ stop) :
    tokens.run start middle ++ tokens.run middle stop = tokens.run start stop := by
  obtain ⟨first, rfl⟩ := Nat.exists_eq_add_of_le hstart
  obtain ⟨second, rfl⟩ := Nat.exists_eq_add_of_le hstop
  have hall : start + first + second - start = first + second := by omega
  rw [run, run, run, hall, Nat.add_sub_cancel_left, Nat.add_sub_cancel_left, ← List.map_append,
    List.range'_append_1]

private theorem run_isSolid {nodes : List Node}
    (hfits : tokens.Fits TokenKind.IsSolid start stop nodes) :
    ∀ token ∈ tokens.run start stop, token.kind.IsSolid := by
  intro token htoken
  obtain ⟨index, hindex, rfl⟩ := List.mem_map.mp htoken
  have hrange := List.mem_range'_1.mp hindex
  exact hfits.kinds index hrange.1 (by omega)

/-- An identifier behind the keywords of a header is the name of what it starts. -/
theorem starts_name {index : Nat} (hname : (tokens.get index).kind = .identifier)
    (kind : DeclarationKind) (others : List Token) :
    Header.Starts ⟨kind, tokens.get index :: others⟩
      (kind, ⟨tokens.spanBetween index (index + 1), (tokens.get index).text⟩) := by
  have hspan : tokens.spanBetween index (index + 1) = (tokens.get index).span :=
    spanBetween_succ (by rw [hname]; rfl)
  exact ⟨rfl, tokens.get index, others, rfl, hname, by rw [hspan]⟩

/-! ## What runs of tokens add to the lines -/

/-- A run of whole lines, none of which lies less deep than the first. The headers at its depth
start some definitions, in order. -/
def Outlines (tokens : Tokens) (start stop : Nat) (definitions : List (DeclarationKind × Name)) :
    Prop :=
  start ≤ stop ∧ ∀ depth, ∃ lines, (∀ line ∈ lines, depth ≤ line.depth) ∧
    List.Forall₂ Header.Starts (headersAt depth lines) definitions ∧
    ∀ others, logicalLinesFrom depth [] (tokens.run start stop ++ others) =
      lines ++ logicalLinesFrom depth [] others

/-- No tokens start no definition. -/
theorem Outlines.nil (tokens : Tokens) (index : Nat) : tokens.Outlines index index [] :=
  ⟨Nat.le_refl _, fun depth => ⟨[], by simp, .nil, by simp⟩⟩

/-- Runs of lines behind each other start the definitions of both. -/
theorem Outlines.append {first second : List (DeclarationKind × Name)}
    (hfirst : tokens.Outlines start middle first) (hsecond : tokens.Outlines middle stop second) :
    tokens.Outlines start stop (first ++ second) := by
  refine ⟨Nat.le_trans hfirst.1 hsecond.1, fun depth => ?_⟩
  obtain ⟨lines, hdepth, hstarts, hlines⟩ := hfirst.2 depth
  obtain ⟨lines', hdepth', hstarts', hlines'⟩ := hsecond.2 depth
  refine ⟨lines ++ lines', ?_, ?_, ?_⟩
  · intro line hline
    rcases List.mem_append.mp hline with hline | hline
    · exact hdepth line hline
    · exact hdepth' line hline
  · rw [headersAt_append]
    exact List.rel_append hstarts hstarts'
  · intro others
    rw [← run_append hfirst.1 hsecond.1, List.append_assoc, hlines, hlines', List.append_assoc]

/-- A run that ends a line and then holds deeper lines only. -/
def Nests (tokens : Tokens) (start stop : Nat) : Prop :=
  start ≤ stop ∧ ∀ depth, ∃ rest lines, (∀ line ∈ lines, depth < line.depth) ∧
    ∀ current others, logicalLinesFrom depth current (tokens.run start stop ++ others) =
      ⟨depth, current ++ rest⟩ :: lines ++ logicalLinesFrom depth [] others

/-- Text in front of a run that ends a line. -/
theorem Nests.behind {nodes : List Node} (hfits : tokens.Fits TokenKind.IsSolid start middle nodes)
    (hnests : tokens.Nests middle stop) : tokens.Nests start stop := by
  refine ⟨Nat.le_trans hfits.le hnests.1, fun depth => ?_⟩
  obtain ⟨rest, lines, hdeeper, hlines⟩ := hnests.2 depth
  refine ⟨tokens.run start middle ++ rest, lines, hdeeper, fun current others => ?_⟩
  rw [← run_append hfits.le hnests.1, List.append_assoc,
    logicalLinesFrom_solid (run_isSolid hfits), hlines, List.append_assoc]

/-- Text and a line break. -/
theorem Nests.line {nodes : List Node} (hfits : tokens.Fits TokenKind.IsSolid start stop nodes)
    (hline : (tokens.get stop).kind = .newline) : tokens.Nests start (stop + 1) := by
  refine .behind hfits ⟨Nat.le_succ _, fun depth => ⟨[], [], by simp, fun current others => ?_⟩⟩
  rw [run_cons (Nat.lt_succ_self _), run_self, List.cons_append, logicalLinesFrom, hline]
  simp

/-- A line break, and deeper lines between changes of indentation. -/
theorem Nests.block {definitions : List (DeclarationKind × Name)}
    (hline : (tokens.get start).kind = .newline) (hindent : (tokens.get (start + 1)).kind = .indent)
    (houtlines : tokens.Outlines (start + 2) stop definitions)
    (hdedent : (tokens.get stop).kind = .dedent) : tokens.Nests start (stop + 1) := by
  have hle := houtlines.1
  refine ⟨by omega, fun depth => ?_⟩
  obtain ⟨lines, hdepth, -, hlines⟩ := houtlines.2 (depth + 1)
  refine ⟨[], lines, hdepth, fun current others => ?_⟩
  have hrun : tokens.run start (stop + 1) =
      tokens.get start :: tokens.get (start + 1) ::
        (tokens.run (start + 2) stop ++ [tokens.get stop]) := by
    rw [run_cons (by omega), run_cons (by omega), ← run_append hle (Nat.le_succ stop),
      run_cons (Nat.lt_succ_self stop), run_self]
  rw [hrun, List.cons_append, logicalLinesFrom, hline]
  simp only [List.cons_append, List.append_assoc, logicalLinesFrom, hindent]
  rw [hlines, List.append_nil]
  simp [logicalLinesFrom, hdedent]

/-- A line that starts with text, and deeper lines behind it. -/
theorem Nests.outlines {nodes : List Node}
    (hfits : tokens.Fits TokenKind.IsSolid start middle nodes) (hnests : tokens.Nests middle stop)
    {definitions : List (DeclarationKind × Name)}
    (hstarts : ∀ rest, List.Forall₂ Header.Starts (header? (tokens.run start middle ++ rest)).toList
      definitions) :
    tokens.Outlines start stop definitions := by
  refine ⟨Nat.le_trans hfits.le hnests.1, fun depth => ?_⟩
  obtain ⟨rest, lines, hdeeper, hlines⟩ := hnests.2 depth
  refine ⟨⟨depth, tokens.run start middle ++ rest⟩ :: lines, ?_, ?_, ?_⟩
  · intro line hline
    rcases List.mem_cons.mp hline with rfl | hline
    · exact Nat.le_refl _
    · exact Nat.le_of_lt (hdeeper line hline)
  · have hheaders : headersAt depth (⟨depth, tokens.run start middle ++ rest⟩ :: lines) =
        (header? (tokens.run start middle ++ rest)).toList := by
      rw [← List.singleton_append, headersAt_append, headersAt_eq_nil hdeeper, List.append_nil]
      cases hheader : header? (tokens.run start middle ++ rest) <;> simp [headersAt, hheader]
    rw [hheaders]
    exact hstarts rest
  · intro others
    rw [← run_append hfits.le hnests.1, List.append_assoc,
      logicalLinesFrom_solid (run_isSolid hfits), List.nil_append, hlines]

/-- A line whose first token starts no definition, and deeper lines behind it. -/
theorem Nests.outlines_nil {nodes : List Node}
    (hfits : tokens.Fits TokenKind.IsSolid start middle nodes) (hlt : start < middle)
    (hnests : tokens.Nests middle stop) {kind : TokenKind} (hkind : (tokens.get start).kind = kind)
    (hother : startsDefinition kind = false) : tokens.Outlines start stop [] := by
  refine hnests.outlines hfits fun rest => ?_
  rw [run_cons hlt, List.cons_append, header?_eq_none hkind hother]
  exact .nil

end Tokens

end PythonOutline
