import PythonOutline.Proofs.Grammar.LineBreak
import PythonOutline.Proofs.Lexer.FinalBreak
import PythonOutline.Proofs.Tree.AlikeEqStmt
import PythonOutline.Proofs.Tree.LaminarStmt

/-! # Modules with and without a final line break

A line feed and trailing lines behind a source change nothing of its module but the span of the
module itself. The tokens of the two sources are the same as far as they are made of text, and the
parser does the same on both. The trees may differ only where a span or a pattern is taken from
tokens behind the end of the shorter source, and no node and no pattern is.

The two sources are not compared directly, but each with the tokens of the longer one over the text
of the shorter one. Over that text spans behind its end hold nothing. -/

namespace PythonOutline

namespace Tokens

variable {tokens tokens' : Tokens} {size : Nat} {rest : List Char}

/-- Token sequences that are the same up to a place, and from there on of the same kinds. The first
one has all its later tokens behind the place. -/
def SameUpTo (size : Nat) (tokens tokens' : Tokens) : Prop :=
  ∀ index, tokens'.get index = tokens.get index ∨
    (tokens'.get index).Late size (tokens.get index) ∧
      ∀ later ≥ index, size < (tokens.get later).span.stop

namespace SameUpTo

/-- The final line break changes the kind of no token. -/
theorem kind_eq (hsame : tokens.SameUpTo size tokens') (index : Nat) :
    (tokens'.get index).kind = (tokens.get index).kind := by
  rcases hsame index with heq | ⟨hlate, -⟩
  · rw [heq]
  · exact hlate.kind_eq.symm

/-- A token that ends in front of the place is the same, and so are all tokens in front of it. -/
theorem get_eq (hsame : tokens.SameUpTo size tokens') {index later : Nat} (hle : index ≤ later)
    (hstop : (tokens.get later).span.stop ≤ size) : tokens'.get index = tokens.get index := by
  rcases hsame index with heq | ⟨-, hlater⟩
  · exact heq
  · exact absurd hstop (Nat.not_le_of_lt (hlater later hle))

/-- A solid token is the same. -/
theorem get_eq_of_isSolid (hsame : tokens.SameUpTo size tokens') {index : Nat}
    (hsolid : (tokens.get index).kind.IsSolid) : tokens'.get index = tokens.get index := by
  rcases hsame index with heq | ⟨hlate, -⟩
  · exact heq
  · rw [hlate.kind_eq] at hsolid
    exact absurd hsolid hlate.not_isSolid

/-- Tokens that are in order with the final line break are so without it. -/
theorem inOrder (hsame : tokens.SameUpTo size tokens') (hsource : tokens.source = tokens'.source)
    (hordered : tokens'.InOrder) : tokens.InOrder :=
  hordered.of_get_eq hsource fun _ hsolid => (hsame.get_eq_of_isSolid hsolid).symm

/-- Each token is like the one that it is with the final line break. -/
theorem token (hsame : tokens.SameUpTo size tokens') (index : Nat) :
    (tokens.get index).Alike (.upTo size) (tokens'.get index) := by
  rcases hsame index with heq | ⟨hlate, hlater⟩
  · rw [heq]
    exact ⟨rfl, fun _ _ => rfl, fun _ => rfl, fun _ => ⟨rfl, rfl, rfl⟩⟩
  · have hsolid : ¬(tokens.get index).kind.IsSolid := hlate.kind_eq ▸ hlate.not_isSolid
    have hstop := hlater index (Nat.le_refl _)
    refine ⟨hlate.kind_eq.symm, fun _ hle => absurd hle (Nat.not_le_of_lt hstop), ?_, ?_⟩
    · rintro (hkind | hkind) <;> exact absurd (by rw [hkind]; decide) hsolid
    · intro hkind
      exact absurd (by rw [hkind]; decide) hsolid

/-- Spans within the source are the same with the final line break. -/
theorem spanBetween_eq (hsame : tokens.SameUpTo size tokens') {start stop : Nat}
    (hle : (tokens.spanBetween start stop).stop ≤ size) :
    tokens'.spanBetween start stop = tokens.spanBetween start stop := by
  rcases @spanBetween_cases _ _ start start stop stop rfl fun index _ =>
      hsame.kind_eq (start + index) with
    ⟨first, last, hfirst, -, -, -, hspan, hspan'⟩ | ⟨hspan, hspan'⟩
  · rw [hspan] at hle ⊢
    rw [hspan', hsame.get_eq (Nat.add_le_add_left hfirst start) hle, hsame.get_eq (Nat.le_refl _) hle]
  · rw [hspan] at hle ⊢
    rw [hspan']
    split
    · rfl
    · rename_i hstop
      rw [if_neg hstop] at hle
      rw [hsame.get_eq (Nat.le_refl _) hle]

/-- Over the text up to the place, the first sequence is alike the second one, which may go on over
more text. -/
theorem alike (hsame : tokens.SameUpTo size tokens') (hlength : Text.byteLength tokens.source = size)
    (hsource : tokens'.source = tokens.source ++ rest)
    (hcount : tokens'.tokens.size = tokens.tokens.size) (hsize : size < tokens.size) :
    tokens.Alike (.upTo size) tokens' where
  size_eq := hcount
  token := hsame.token
  span _ _ hle := hsame.spanBetween_eq hle
  whole hle := absurd hle (Nat.not_le_of_lt hsize)
  slice := by
    intro span span' hspan hpattern
    have hne : Text.slice tokens.source span.start span.stop ≠ [] := by
      intro hempty
      rw [hempty] at hpattern
      exact hpattern rfl
    have hstop := Text.stop_le_of_slice_ne_nil hne
    rw [hspan (hlength ▸ hstop), hsource, Text.slice_append rest hne]

end SameUpTo

end Tokens

/-! ## Modules -/

/-- Statements that were read over a text are the same as those that may differ from them behind it
only. -/
theorem Parser.stmts_eq_of_reads {tokens : Tokens} {stop : TokenKind} {before after : Place}
    {stmts stmts' : List Stmt} (hordered : tokens.InOrder)
    (hreads : (Parser.stmts stop).Reads tokens before stmts after)
    (halike : List.Forall₂ (Stmt.Alike (.upTo (Text.byteLength tokens.source))) stmts stmts') :
    stmts' = stmts := by
  have hfits := Parser.stmts_lays hordered stop hreads
  refine stmts_eq hordered halike ?_ (Parser.stmtsOver_readsStmts (stmtLineOver_readsStmts _) hreads)
  rw [stmtNodes_eq]
  intro child hchild
  have hsits := hfits.sits child hchild
  exact hsits.1.endsBy (hsits.isProper hordered).stop_le

/-- The tokens of one source over the text of another one. -/
def Tokens.overText (tokens : Tokens) (source : List Char) : Tokens :=
  { tokens with source }

/-- The tokens of the longer source are those of the shorter one up to its end. -/
theorem Tokens.overText_sameUpTo {source lines : String} (hlines : TrailingLines lines.toList)
    (hclean : (ofSource source).failure = none) :
    ((ofSource (source ++ "\n" ++ lines)).overText source.toList).SameUpTo source.utf8ByteSize
      (ofSource source) :=
  fun index => (ofSource_finalBreak hlines hclean index).imp_left Eq.symm

/-- **A missing final line break.** For every source that is a module, the source with a line feed
and any number of blank lines and comment lines behind it is a module too, and its statements are
the same, with all their spans. The last of these lines may lack a line break. -/
theorem parseModule_finalBreak {source lines : String} {module : Module}
    (hparse : parseModule source = .ok module) (hlines : TrailingLines lines.toList) :
    ∃ module', parseModule (source ++ "\n" ++ lines) = .ok module' ∧ module'.body = module.body := by
  obtain ⟨body, last, hbody, hend, hordered, rfl⟩ := reads_of_parseModule hparse
  have hmodule := Parser.reads_module.mpr ⟨body, last, hbody, hend, rfl, rfl⟩
  have hsame := Tokens.overText_sameUpTo hlines (Tokens.failure_eq_none hordered.ne_invalid)
  have hlength : Text.byteLength source.toList = source.utf8ByteSize :=
    (Text.utf8ByteSize_eq_byteLength source).symm
  have hsize : source.utf8ByteSize < (source ++ "\n" ++ lines).utf8ByteSize := by
    have hfeed : "\n".utf8ByteSize = 1 := rfl
    rw [String.utf8ByteSize_append, String.utf8ByteSize_append, hfeed]
    omega
  -- Both sources are compared with the tokens of the longer one over the text of the shorter one.
  have hrefl : ((Tokens.ofSource (source ++ "\n" ++ lines)).overText source.toList).SameUpTo
      source.utf8ByteSize (.ofSource (source ++ "\n" ++ lines)) := fun _ => .inl rfl
  have hsource : (Tokens.ofSource (source ++ "\n" ++ lines)).source =
      source.toList ++ '\n' :: lines.toList := by simp [Tokens.ofSource]
  have halike := hsame.alike hlength (List.append_nil _).symm
    (Tokens.size_ofSource_eq hsame.kind_eq) hsize
  have halike' := hrefl.alike hlength hsource rfl hsize
  obtain ⟨common, hcommon, hbodyCommon⟩ := (Parser.module_parallel halike).reads_first hmodule
  obtain ⟨module', hmodule', hbody'⟩ := (Parser.module_parallel halike').reads hcommon
  have hinOrder := hsame.inOrder rfl hordered
  obtain ⟨stmts, final, hstmts, -, -, rfl⟩ := Parser.reads_module.mp hcommon
  rw [← hlength] at hbodyCommon hbody'
  have hbodyEq : body = stmts := Parser.stmts_eq_of_reads hinOrder hstmts hbodyCommon.body
  have hbodyEq' : module'.body = stmts := Parser.stmts_eq_of_reads hinOrder hstmts hbody'.body
  refine ⟨module', parseModule_of_reads hmodule' fun index => ?_, hbodyEq'.trans hbodyEq.symm⟩
  have hkind := hsame.kind_eq index
  exact hkind ▸ hordered.ne_invalid index

/-- A source that ends in a comment within a block, and behind it a line with a tabulator and a
comment that ends with the text. -/
theorem parseModule_finalBreak_commented :
    TrailingLines "\t\n# d".toList ∧ ∃ module module',
      parseModule "if x:\n  y # c" = .ok module ∧
      parseModule ("if x:\n  y # c" ++ "\n" ++ "\t\n# d") = .ok module' ∧
      module'.body = module.body := by
  have hlines : TrailingLines "\t\n# d".toList := by
    have hblanks : ∀ c ∈ ['\t'], Text.blanks.contains c := List.all_eq_true.mp (by decide)
    have hbody : ∀ c ∈ [' ', 'd'], ¬EndsLine c := by
      intro c hc
      simp only [List.mem_cons, List.not_mem_nil, or_false] at hc
      rcases hc with rfl | rfl <;> decide
    have htabulator : IsBlankText ['\t'] := ⟨['\t'], [], rfl, hblanks, .inl rfl⟩
    have hcomment : IsBlankText ['#', ' ', 'd'] :=
      ⟨[], ['#', ' ', 'd'], rfl, fun _ hc => (List.not_mem_nil hc).elim, .inr ⟨[' ', 'd'], rfl, hbody⟩⟩
    have hfeed : ['\n'] ∈ lineBreaks := List.mem_cons_self
    exact .cons htabulator hfeed (.last hcomment)
  have hparses : (parseModule "if x:\n  y # c").isOk := by decide +kernel
  cases hparse : parseModule "if x:\n  y # c" with
  | error failure =>
    rw [hparse] at hparses
    cases hparses
  | ok module =>
    obtain ⟨module', hparse', hbody⟩ := parseModule_finalBreak hparse hlines
    exact ⟨hlines, module, module', rfl, hparse', hbody⟩

end PythonOutline
