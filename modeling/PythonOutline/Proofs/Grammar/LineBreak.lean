import PythonOutline.Proofs.Grammar.Module
import PythonOutline.Proofs.Grammar.ParallelStmt
import PythonOutline.Proofs.Lexer.Respell
import PythonOutline.Proofs.Literal.LineBreak
import PythonOutline.Proofs.Tree.Laminar

/-! # Modules over line breaks

A source without carriage returns is a module of the same shape when it is written anew with other
line breaks. The trees differ in their spans, which are at the same places of the two texts, in the
patterns of cases, which are written anew, and in string literals, where the line feeds of the
source are written anew and those that escapes stand for are not.

With lone carriage returns more sources are modules, and with pairs of a carriage return and a line
feed fewer: a line feed ends a literal in single quotes and a lone carriage return does not, and a
backslash in front of the pair reaches over the carriage return only. Other than that it makes no
difference how lines break.
-/

namespace PythonOutline

open LineBreak

/-- How the tree of a source and that of the source written anew may differ. -/
def LineBreak.likeness (lineBreak : LineBreak) (source : List Char) : Likeness where
  span span span' :=
    lineBreak.Place source span.start span'.start ∧ lineBreak.Place source span.stop span'.stop
  text text text' := lineBreak.Varies text.toList text'.toList
  pattern pattern pattern' := pattern' = lineBreak.write pattern
  join hleft hright := ⟨hleft.1.least hright.1, hleft.2.greatest hright.2⟩
  text_empty := .nil
  text_append hfirst hothers := by simpa using hfirst.append hothers

/-- Whether no string literal of a source is folded over lines. -/
def Unfolded (source : String) : Prop :=
  ∀ token ∈ (Tokens.ofSource source).tokens, ¬token.IsFolded

private theorem unfolded_of_map {source : String} (known : List (TokenKind × String))
    (hmap : (Tokens.ofSource source).tokens.toList.map (fun token => (token.kind, token.text)) = known)
    (hknown : ∀ text, (TokenKind.literalString, text) ∈ known → ¬Folded text.toList) :
    Unfolded source := by
  rintro ⟨kind, span, text⟩ htoken ⟨rfl, hfolded⟩
  refine hknown text ?_ hfolded
  rw [← hmap, List.mem_map]
  exact ⟨_, Array.mem_toList_iff.mpr htoken, rfl⟩

variable {lineBreak : LineBreak}

/-! ## Tokens -/

/-- A token that is spelled with other line breaks is like the one before. -/
theorem Token.Respells.alike {source : List Char} {token token' : Token}
    (htoken : token.Respells lineBreak source token') :
    token.Alike (lineBreak.likeness source) token' where
  kind_eq := htoken.kind_eq
  span := fun _ => ⟨htoken.start, htoken.stop⟩
  text_eq := by
    intro hkind
    rw [← String.toList_inj, htoken.text_eq, respell_eq_self (htoken.inline hkind)]
  string := by
    intro hkind
    obtain ⟨hreturn, letters, quote, triple, body, hwritten⟩ := htoken.written hkind
    rw [htoken.text_eq]
    obtain ⟨htext, hbytes, hformatted⟩ := Literal.decode_varies hwritten hreturn
    exact ⟨htext, hbytes, hformatted⟩

namespace Tokens

section

variable {source : List Char} {tokens tokens' : Tokens}
  (htokens : ∀ index, (tokens.get index).Respells lineBreak source (tokens'.get index))

include htokens

/-- The tokens between two indices are at the same places. -/
theorem spanBetween_respells (start stop : Nat) :
    (lineBreak.likeness source).span (tokens.spanBetween start stop)
      (tokens'.spanBetween start stop) := by
  rcases @spanBetween_cases _ _ start start stop stop rfl fun index _ =>
      (htokens (start + index)).kind_eq with
    ⟨first, last, -, -, -, -, hspan, hspan'⟩ | ⟨hspan, hspan'⟩
  · rw [hspan, hspan']
    exact ⟨(htokens (start + first)).start, (htokens (start + last)).stop⟩
  · rw [hspan, hspan']
    split
    · exact ⟨.start lineBreak source, .start lineBreak source⟩
    · exact ⟨(htokens (stop - 1)).stop, (htokens (stop - 1)).stop⟩

end

variable {source : String}

/-- The tokens of a source stand for those of the source written anew, if at every index one of them
is read such that the other cannot be missed. -/
theorem ofSource_respells (hreturn : '\r' ∉ source.toList)
    (hpreserves : ∀ index, lineBreak.Preserves ((ofSource source).get index)
      ((ofSource (lineBreak.write source)).get index)) (index : Nat) :
    ((ofSource source).get index).Respells lineBreak source.toList
      ((ofSource (lineBreak.write source)).get index) := by
  have hwrite : (lineBreak.write source).toList = lineBreak.respell source.toList := by simp [write]
  have hreading := Lexer.ofSource_reading source
  have hreading' := Lexer.ofSource_reading (lineBreak.write source)
  rw [hwrite] at hreading'
  simp only [get_ofSource_eq_next] at hpreserves ⊢
  exact (Lexer.after_respells (Lexer.ofSource_respells lineBreak source) hreading hreading' hreturn
    hpreserves index).1

/-- Token by token the respelled source has the tokens of the source, respelled. -/
private theorem ofSource_alike
    (htokens : ∀ index, ((ofSource source).get index).Respells lineBreak source.toList
      ((ofSource (lineBreak.write source)).get index)) :
    (ofSource source).Alike (lineBreak.likeness source.toList) (ofSource (lineBreak.write source))
    where
  size_eq := size_ofSource_eq fun index => (htokens index).kind_eq
  token := fun index => (htokens index).alike
  span := spanBetween_respells htokens
  whole := by
    have hstop := Place.stop lineBreak source.toList
    refine ⟨.start lineBreak source.toList, ?_⟩
    simpa [ofSource, write, Text.utf8ByteSize_eq_byteLength] using hstop
  slice := by
    intro span span' hspan
    have hslice := hspan.1.slice hspan.2
    simpa [likeness, ofSource, write] using congrArg String.ofList hslice

private theorem not_isFolded_get (hunfolded : Unfolded source) (index : Nat) :
    ¬((ofSource source).get index).IsFolded := by
  rw [get]
  cases htoken : (ofSource source).tokens[index]? with
  | none =>
    rintro ⟨hkind, -⟩
    cases hkind
  | some token => exact hunfolded token (Array.mem_of_getElem? htoken)

end Tokens

/-! ## Modules -/

/-- Two sources whose tokens mean the same are modules of one shape, or none is a module. -/
theorem parseModule_alike {like : Likeness} {source source' : String}
    (halike : (Tokens.ofSource source).Alike like (Tokens.ofSource source'))
    (hvalid : ∀ index, ((Tokens.ofSource source).get index).kind ≠ .invalid) :
    Agree (Module.Alike like) (parseModule source) (parseModule source') := by
  have hvalid' : ∀ index, ((Tokens.ofSource source').get index).kind ≠ .invalid := by
    intro index
    rw [(halike.token index).kind_eq]
    exact hvalid index
  have hagrees := Parser.module_parallel halike .start
  rw [parseModule, parseModule, Parser.runOn, Parser.runOn]
  cases hresult : Parser.module (.ofSource source) .start <;>
    cases hresult' : Parser.module (.ofSource source') .start <;>
    rw [hresult, hresult'] at hagrees
  · dsimp only
    rw [Tokens.failureWithin_eq_none hvalid, Tokens.failureWithin_eq_none hvalid']
    exact .ok hagrees.1
  · exact hagrees.elim
  · exact hagrees.elim
  · dsimp only
    rw [Tokens.failureWithin_eq_none hvalid, Tokens.failureWithin_eq_none hvalid']
    exact .error

/-- A source and the source written anew are modules of one shape, or none is a module, if at every
index one of them is read such that the other cannot be missed. -/
theorem parseModule_agree {source : String} (hreturn : '\r' ∉ source.toList)
    (hpreserves : ∀ index, lineBreak.Preserves ((Tokens.ofSource source).get index)
      ((Tokens.ofSource (lineBreak.write source)).get index)) :
    Agree (Module.Alike (lineBreak.likeness source.toList)) (parseModule source)
      (parseModule (lineBreak.write source)) := by
  have htokens := Tokens.ofSource_respells hreturn hpreserves
  refine parseModule_alike (Tokens.ofSource_alike htokens) fun index => ?_
  rcases hpreserves index with ⟨hvalid, -⟩ | ⟨hvalid, -⟩
  · exact hvalid
  · rwa [(htokens index).kind_eq] at hvalid

/-- A source without carriage returns that is a module is one with lone carriage returns too, and
with carriage returns and line feeds if none of its literals is folded. The other way round, what is
a module when it is written anew with carriage returns and line feeds is one with line feeds, and
with lone carriage returns so if none of its literals is folded then. The two trees are alike. -/
theorem parseModule_write (lineBreak : LineBreak) (source : String)
    (hreturn : '\r' ∉ source.toList) :
    (∀ module, parseModule source = .ok module → (lineBreak = .returnFeed → Unfolded source) →
        ∃ module', parseModule (lineBreak.write source) = .ok module' ∧
          module.Alike (lineBreak.likeness source.toList) module') ∧
      ∀ module', parseModule (lineBreak.write source) = .ok module' →
        (lineBreak = .carriageReturn → Unfolded (lineBreak.write source)) →
        ∃ module, parseModule source = .ok module ∧
          module.Alike (lineBreak.likeness source.toList) module' := by
  constructor
  · intro module hparse hunfolded
    obtain ⟨_, _, _, _, hordered, _⟩ := reads_of_parseModule hparse
    have hagree := parseModule_agree hreturn fun index =>
      .inl ⟨hordered.ne_invalid index, fun hbreak => Tokens.not_isFolded_get (hunfolded hbreak) index⟩
    rw [hparse] at hagree
    generalize parseModule (lineBreak.write source) = result' at hagree
    cases hagree with
    | ok halike => exact ⟨_, rfl, halike⟩
    | onlyFirst hlost => exact hlost.elim
  · intro module' hparse hunfolded
    obtain ⟨_, _, _, _, hordered, _⟩ := reads_of_parseModule hparse
    have hagree := parseModule_agree hreturn fun index =>
      .inr ⟨hordered.ne_invalid index, fun hbreak => Tokens.not_isFolded_get (hunfolded hbreak) index⟩
    rw [hparse] at hagree
    generalize parseModule source = result at hagree
    cases hagree with
    | ok halike => exact ⟨_, rfl, halike⟩
    | onlySecond hgained => exact hgained.elim

/-- A string over two lines, whose value has a line feed however the lines end. -/
theorem parseModule_write_tripleQuoted :
    ∃ module module', parseModule "x = '''a\nb'''\n" = .ok module ∧
      parseModule (LineBreak.returnFeed.write "x = '''a\nb'''\n") = .ok module' ∧
      module.Alike (LineBreak.returnFeed.likeness "x = '''a\nb'''\n".toList) module' := by
  have hunfolded : Unfolded "x = '''a\nb'''\n" := by
    apply unfolded_of_map [(.identifier, "x"), (.equals, "="), (.literalString, "'''a\nb'''"),
      (.newline, "\n"), (.endOfInput, "")] (by decide +kernel)
    intro text hmem hfolded
    obtain rfl : text = "'''a\nb'''" := by simpa using hmem
    have hwritten : Written "'''a\nb'''".toList [] '\'' true ['a', '\n', 'b'] :=
      ⟨rfl, by simp, rfl, by simp⟩
    exact absurd (hfolded.2 _ _ _ hwritten) (by decide)
  have hparses : (parseModule "x = '''a\nb'''\n").isOk := by decide +kernel
  cases hparse : parseModule "x = '''a\nb'''\n" with
  | error failure =>
    rw [hparse] at hparses
    cases hparses
  | ok module =>
    obtain ⟨module', hparse', halike⟩ :=
      (parseModule_write .returnFeed _ (by decide)).1 module hparse fun _ => hunfolded
    exact ⟨module, module', rfl, hparse', halike⟩

/-- A backslash reaches over a line feed and not over a carriage return and a line feed, and what a
line feed ends a lone carriage return does not. -/
theorem parseModule_write_singleQuoted :
    '\r' ∉ "x = 'a\\\nb'\n".toList ∧ (parseModule "x = 'a\\\nb'\n").isOk = true ∧
      (parseModule (LineBreak.returnFeed.write "x = 'a\\\nb'\n")).isOk = false ∧
    '\r' ∉ "x = 'a\nb'\n".toList ∧ (parseModule "x = 'a\nb'\n").isOk = false ∧
      (parseModule (LineBreak.carriageReturn.write "x = 'a\nb'\n")).isOk = true := by
  decide +kernel

end PythonOutline
