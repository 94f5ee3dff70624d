import PythonOutline.Proofs.Grammar.FinalBreak
import PythonOutline.Proofs.Grammar.LexicalError
import PythonOutline.Proofs.Grammar.PassageStmt
import PythonOutline.Proofs.Outline.TopLevel
import PythonOutline.Proofs.Tree.Blocks

/-! # Definitions on their own

The text of a definition of a module is a module of its own, with this definition in it and nothing
else (`parseModule_excerpt`). -/

namespace PythonOutline

open PythonOutline.Parser

/-! ## Likenesses -/

/-- The same piece of a text, in the part of the text that starts some bytes further on. -/
def Span.shiftDown (distance : Nat) (span : Span) : Span :=
  ⟨span.start - distance, span.stop - distance⟩

@[simp]
theorem Span.shiftDown_shift (distance : Nat) (span : Span) :
    (span.shift distance).shiftDown distance = span := by
  simp [shift, shiftDown]

private theorem Span.shiftDown_join (distance : Nat) (left right : Span) :
    (left.join right).shiftDown distance =
      (left.shiftDown distance).join (right.shiftDown distance) := by
  simp only [shiftDown, join, Span.mk.injEq]
  omega

/-- Trees that differ in their spans only, which start and end some bytes earlier in the
second one. -/
def Likeness.shiftedDown (distance : Nat) : Likeness where
  span span span' := span' = span.shiftDown distance
  text := Eq
  pattern := Eq
  join := by
    rintro left _ right _ rfl rfl
    exact (Span.shiftDown_join distance left right).symm
  text_empty := rfl
  text_append := moved.text_append

private theorem Likeness.shiftedDown_total (distance : Nat) : (shiftedDown distance).Total where
  span _ := ⟨_, rfl⟩
  text _ := rfl
  pattern _ := rfl

private theorem Likeness.upTo_total (size : Nat) : (upTo size).Total where
  span _ := ⟨_, fun _ => rfl⟩
  text _ := rfl
  pattern _ _ := rfl

/-! ## Runs of tokens that end with line structure -/

private theorem closingKind_not_isSolid (depth index : Nat) :
    ¬(closingKind depth index).IsSolid ∧ closingKind depth index ≠ .indent := by
  cases index with
  | zero => exact (by decide : ¬TokenKind.newline.IsSolid ∧ TokenKind.newline ≠ .indent)
  | succ index =>
    rw [closingKind]
    split <;> decide

private theorem closingKind_ne_invalid (depth index : Nat) :
    closingKind depth index ≠ .invalid := by
  cases index with
  | zero => exact (by decide : TokenKind.newline ≠ .invalid)
  | succ index =>
    rw [closingKind]
    split <;> decide

private theorem closingKind_not_isSignificant {depth index : Nat} (hle : index ≤ depth) :
    ¬(closingKind depth index).isSignificant := by
  cases index with
  | zero => exact Bool.false_ne_true
  | succ index =>
    rw [closingKind, if_pos (Nat.lt_of_succ_le hle)]
    exact Bool.false_ne_true

/-- Line structure means the same wherever it stands. -/
theorem Token.alike_of_not_isSignificant {like : Likeness} {token token' : Token}
    (hkind : token'.kind = token.kind) (hstructure : ¬token.kind.isSignificant) :
    token.Alike like token' where
  kind_eq := hkind
  span hsignificant := absurd hsignificant hstructure
  text_eq := by
    rintro (hkind | hkind) <;> exact absurd (by rw [hkind]; rfl) hstructure
  string hkind := absurd (by rw [hkind]; rfl) hstructure

private theorem Token.alike_of_text_eq {like : Likeness} (htotal : like.Total)
    {token token' : Token} (hkind : token'.kind = token.kind) (htext : token'.text = token.text)
    (hspan : like.span token.span token'.span) : token.Alike like token' where
  kind_eq := hkind
  span _ := hspan
  text_eq _ := htext
  string _ := by
    rw [htext]
    exact ⟨htotal.text _, rfl, rfl⟩

namespace Tokens

variable {tokens tokens' : Tokens} {like : Likeness} {start start' count depth : Nat}

/-- Where the token in front of an index ends. -/
def stopBefore (tokens : Tokens) (index : Nat) : Nat :=
  if index = 0 then 0 else (tokens.get (index - 1)).span.stop

private theorem stopBefore_succ (tokens : Tokens) (index : Nat) :
    tokens.stopBefore (index + 1) = (tokens.get index).span.stop :=
  rfl

/-- Two token sequences hold the same run of tokens. Behind it a line ends in both of them, and a
number of levels do; the second sequence ends there. -/
structure Excerpts (like : Likeness) (tokens tokens' : Tokens) (start start' count depth : Nat) :
    Prop where
  total : like.Total
  ordered : tokens.InOrder
  ordered' : tokens'.InOrder
  isReadable : ∀ index < count, (tokens.get (start + index)).kind.IsReadable
  kind_eq : ∀ index < count,
    (tokens'.get (start' + index)).kind = (tokens.get (start + index)).kind
  text_eq : ∀ index < count,
    (tokens'.get (start' + index)).text = (tokens.get (start + index)).text
  span : ∀ index < count,
    like.span (tokens.get (start + index)).span (tokens'.get (start' + index)).span
  closing : ∀ index ≤ depth,
    (tokens.get (start + count + index)).kind = closingKind depth index
  closing' : ∀ index, (tokens'.get (start' + count + index)).kind = closingKind depth index
  point : ∀ index ≤ count + depth + 1, like.span (.point (tokens.stopBefore (start + index)))
    (.point (tokens'.stopBefore (start' + index)))
  pattern : ∀ first last, first ≤ last → last < count →
    (tokens.get (start + first)).kind.IsSolid → (tokens.get (start + last)).kind.IsSolid →
    like.pattern
      (String.ofList (Text.slice tokens.source (tokens.get (start + first)).span.start
        (tokens.get (start + last)).span.stop))
      (String.ofList (Text.slice tokens'.source (tokens'.get (start' + first)).span.start
        (tokens'.get (start' + last)).span.stop))

private theorem lt_size_of_ne_endOfInput {index : Nat}
    (hkind : (tokens.get index).kind ≠ .endOfInput) :
    index < tokens.tokens.size := by
  by_contra hle
  rw [get, Array.getElem?_eq_none (Nat.le_of_not_lt hle)] at hkind
  exact hkind rfl

/-- Tokens in order span the text from the first of them to the last one. -/
theorem InOrder.join_eq (hordered : tokens.InOrder) {first last : Nat} (hle : first ≤ last)
    (hfirst : (tokens.get first).kind.IsSolid) (hlast : (tokens.get last).kind.IsSolid) :
    (tokens.get first).span.join (tokens.get last).span =
      ⟨(tokens.get first).span.start, (tokens.get last).span.stop⟩ := by
  rw [Span.join, Nat.min_eq_left (hordered.start_le_start hle hfirst hlast),
    Nat.max_eq_right (hordered.stop_le_stop hle hfirst hlast)]

namespace Excerpts

variable (hexcerpts : tokens.Excerpts like tokens' start start' count depth)

include hexcerpts

private theorem closing_of_le {index : Nat} (hge : count ≤ index) (hle : index ≤ count + depth) :
    (tokens'.get (start' + index)).kind = (tokens.get (start + index)).kind ∧
      ¬(tokens.get (start + index)).kind.isSignificant := by
  obtain ⟨index, rfl⟩ := Nat.exists_eq_add_of_le hge
  have hindex := Nat.le_of_add_le_add_left hle
  rw [← Nat.add_assoc, ← Nat.add_assoc, hexcerpts.closing' index, hexcerpts.closing index hindex]
  exact ⟨rfl, closingKind_not_isSignificant hindex⟩

private theorem kind_eq_of_le {index : Nat} (hle : index ≤ count + depth) :
    (tokens'.get (start' + index)).kind = (tokens.get (start + index)).kind := by
  rcases Nat.lt_or_ge index count with hlt | hge
  · exact hexcerpts.kind_eq index hlt
  · exact (hexcerpts.closing_of_le hge hle).1

/-- The tokens of an excerpt are like those of the source, one by one. -/
theorem alike {index : Nat} (hle : index ≤ count + depth) :
    (tokens.get (start + index)).Alike like (tokens'.get (start' + index)) := by
  rcases Nat.lt_or_ge index count with hlt | hge
  · exact Token.alike_of_text_eq hexcerpts.total (hexcerpts.kind_eq index hlt)
      (hexcerpts.text_eq index hlt) (hexcerpts.span index hlt)
  · obtain ⟨hkind, hstructure⟩ := hexcerpts.closing_of_le hge hle
    exact Token.alike_of_not_isSignificant hkind hstructure

/-- The tokens of the source are those of the excerpt, moved to where it was cut out. -/
theorem alike_moved {index : Nat} (hle : index ≤ count + depth) :
    (tokens'.get (start' + index)).Alike .moved (tokens.get (start + index)) := by
  rcases Nat.lt_or_ge index count with hlt | hge
  · exact Token.alike_moved (hexcerpts.kind_eq index hlt).symm (hexcerpts.text_eq index hlt).symm
  · obtain ⟨hkind, hstructure⟩ := hexcerpts.closing_of_le hge hle
    exact Token.alike_of_not_isSignificant hkind.symm (hkind ▸ hstructure)

/-- Text stands in front of the line structure that the run ends with. -/
theorem isSolid_of_isSignificant {index : Nat} (hle : index ≤ count + depth)
    (hkind : (tokens.get (start + index)).kind.isSignificant) :
    index < count ∧ (tokens.get (start + index)).kind.IsSolid := by
  rcases Nat.lt_or_ge index count with hlt | hge
  · have hreadable := hexcerpts.isReadable index hlt
    exact ⟨hlt, hkind, hreadable.2, hreadable.1⟩
  · exact absurd hkind (hexcerpts.closing_of_le hge hle).2

/-- Spans between tokens of the excerpt are like those between the tokens of the source. -/
theorem spanBetween (first : Nat) {last : Nat} (hlast : last ≤ count + depth + 1) :
    like.span (tokens.spanBetween (start + first) (start + last))
      (tokens'.spanBetween (start' + first) (start' + last)) := by
  have hcount : start' + last - (start' + first) = start + last - (start + first) := by omega
  have hkinds : ∀ index < start + last - (start + first),
      (tokens'.get (start' + first + index)).kind = (tokens.get (start + first + index)).kind := by
    intro index hlt
    rw [Nat.add_assoc, Nat.add_assoc]
    exact hexcerpts.kind_eq_of_le (by omega)
  rcases Tokens.spanBetween_cases hcount hkinds with
    ⟨left, right, hle, hlt, hleft, hright, hspan, hspan'⟩ | ⟨hspan, hspan'⟩
  · rw [Nat.add_assoc] at hleft hright
    obtain ⟨hleftLt, hleft⟩ := hexcerpts.isSolid_of_isSignificant (by omega) hleft
    obtain ⟨hrightLt, hright⟩ := hexcerpts.isSolid_of_isSignificant (by omega) hright
    have hleft' := hexcerpts.kind_eq _ hleftLt ▸ hleft
    have hright' := hexcerpts.kind_eq _ hrightLt ▸ hright
    simp only [Nat.add_assoc] at hspan hspan'
    rw [hspan, hspan', ← hexcerpts.ordered.join_eq (by omega) hleft hright,
      ← hexcerpts.ordered'.join_eq (by omega) hleft' hright']
    exact like.join (hexcerpts.span _ hleftLt) (hexcerpts.span _ hrightLt)
  · rw [hspan, hspan']
    exact hexcerpts.point last hlast

/-- Text within the run is the same pattern. -/
theorem pattern_spanBetween {first last : Nat} (hlt : first < last) (hle : last ≤ count + depth)
    (hsolid : ∀ index, start + first ≤ index → index < start + last →
      (tokens.get index).kind.IsSolid) :
    like.pattern
      (String.ofList (Text.slice tokens.source
        (tokens.spanBetween (start + first) (start + last)).start
        (tokens.spanBetween (start + first) (start + last)).stop))
      (String.ofList (Text.slice tokens'.source
        (tokens'.spanBetween (start' + first) (start' + last)).start
        (tokens'.spanBetween (start' + first) (start' + last)).stop)) := by
  have hplace : ∀ index, first ≤ index → index < last →
      index < count ∧ (tokens.get (start + index)).kind.IsSolid := fun index hge hindex =>
    hexcerpts.isSolid_of_isSignificant (Nat.le_trans (Nat.le_of_lt hindex) hle)
      (hsolid (start + index) (Nat.add_le_add_left hge start) (Nat.add_lt_add_left hindex start)).1
  have hsolid' : ∀ index, start' + first ≤ index → index < start' + last →
      (tokens'.get index).kind.IsSolid := by
    intro index hge hindex
    obtain ⟨index, rfl⟩ := Nat.exists_eq_add_of_le (Nat.le_of_add_right_le hge)
    obtain ⟨hcount, hkind⟩ := hplace index (by omega) (by omega)
    exact hexcerpts.kind_eq index hcount ▸ hkind
  obtain ⟨last, rfl⟩ := Nat.exists_eq_add_one_of_ne_zero (Nat.ne_zero_of_lt hlt)
  have hlast := hplace last (Nat.le_of_lt_succ hlt) (Nat.lt_succ_self last)
  rw [spanBetween_of_isSolid (Nat.add_lt_add_left hlt start) hsolid,
    spanBetween_of_isSolid (Nat.add_lt_add_left hlt start') hsolid']
  exact hexcerpts.pattern first last (Nat.le_of_lt_succ hlt) hlast.1
    (hplace first (Nat.le_refl _) hlt).2 hlast.2

/-- The run with the line structure behind it, up to its last token, is a passage. -/
def passage : Passage where
  like := like
  tokens := tokens
  tokens' := tokens'
  start := start
  start' := start'
  length := count + depth
  total := hexcerpts.total
  ordered := hexcerpts.ordered
  alike index hlt := hexcerpts.alike (Nat.le_of_lt hlt)
  closing := .inl ⟨hexcerpts.alike (Nat.le_refl _),
    (hexcerpts.closing_of_le (Nat.le_add_right count depth) (Nat.le_refl _)).2⟩
  spans first _ hlast := hexcerpts.spanBetween first hlast
  lt_size := by
    obtain ⟨hkind, hstructure⟩ :=
      hexcerpts.closing_of_le (Nat.le_add_right count depth) (Nat.le_refl _)
    exact lt_size_of_ne_endOfInput (ne_endOfInput_of_not_isSignificant (hkind ▸ hstructure))

/-- The closing tokens behind an excerpt mean the same as in the source, and hold no text. -/
theorem closed : hexcerpts.passage.Closed :=
  ⟨hexcerpts.alike (Nat.le_refl _),
    (hexcerpts.closing_of_le (Nat.le_add_right count depth) (Nat.le_refl _)).2⟩

/-- An excerpt stands word for word in the source. -/
theorem verbatim : hexcerpts.passage.Verbatim where
  closed := hexcerpts.closed
  ordered' := hexcerpts.ordered'
  lt_size' := lt_size_of_ne_endOfInput (ne_endOfInput_of_not_isSignificant hexcerpts.closed.2)
  alike' index hle := hexcerpts.alike_moved hle
  behind index hge := by
    obtain ⟨index, rfl⟩ : ∃ other, index = start' + count + other := by
      refine Nat.exists_eq_add_of_le (Nat.le_trans ?_ hge)
      exact Nat.add_le_add_left (Nat.le_add_right count depth) start'
    change ¬(tokens'.get _).kind.IsSolid ∧ (tokens'.get _).kind ≠ .indent
    rw [hexcerpts.closing' index]
    exact closingKind_not_isSolid depth index
  pattern := hexcerpts.pattern_spanBetween

/-- A definition that takes the run in the first sequence is read in the second one too. -/
theorem definition_reads {before after before' : Place} {stmt : Stmt}
    (hreads : (definition block).Reads tokens before stmt after) (hbefore : before.next = start)
    (hafter : after.next = start + (count + depth + 1)) (hbefore' : before'.next = start') :
    ∃ stmt' after', after'.next = start' + (count + depth + 1) ∧ stmt.Alike like stmt' ∧
      (definition block).Reads tokens' before' stmt' after' := by
  have hcarries := definition_carries (blockWithin_carries hexcerpts.verbatim maxIndentLevels)
    hexcerpts.closed
  have hat : hexcerpts.passage.At 0 before before' := ⟨hbefore, hbefore'⟩
  obtain ⟨stop, stmt', after', -, hstop, hstmt, hreads'⟩ := hcarries hat hreads
  obtain rfl : stop = count + depth + 1 := Nat.add_left_cancel (hstop.next_eq.symm.trans hafter)
  exact ⟨stmt', after', hstop.next_eq', hstmt, hreads' (Nat.le_refl _)⟩

end Excerpts

/-! ## The tokens of an excerpt in their place -/

/-- The first tokens of a sequence, and behind them those of another one, some bytes further on. -/
def splice (tokens tokens' : Tokens) (first distance : Nat) : Tokens :=
  { tokens with
    size := tokens'.size + distance
    tokens := tokens.tokens.extract 0 first ++ tokens'.tokens.map (Token.shift distance) }

private theorem splice_get_of_lt {first distance index : Nat} (hfirst : first ≤ tokens.tokens.size)
    (hlt : index < first) : (tokens.splice tokens' first distance).get index = tokens.get index := by
  have hsize : (tokens.tokens.extract 0 first).size = first := by simp [hfirst]
  have hmin : index < min first tokens.tokens.size - 0 := by omega
  simp only [get, splice]
  rw [Array.getElem?_append_left (by omega), Array.getElem?_extract, if_pos hmin, Nat.zero_add,
    Array.getElem?_eq_getElem (by omega)]
  rfl

private theorem splice_get_add {first distance : Nat} (hfirst : first ≤ tokens.tokens.size)
    (index : Nat) : (tokens.splice tokens' first distance).get (first + index) =
      (tokens'.get index).shift distance := by
  have hsize : (tokens.tokens.extract 0 first).size = first := by simp [hfirst]
  simp only [get, splice]
  rw [Array.getElem?_append_right (by omega), hsize, Nat.add_sub_cancel_left, Array.getElem?_map]
  cases tokens'.tokens[index]? <;> rfl

end Tokens

/-- The text of a run of tokens is a source of its own, in which the line and the levels end that
are open behind the run. -/
structure Tokens.StandsAlone (source excerpt : String) (start count depth : Nat) : Prop where
  ordered : (ofSource source).Ordered
  excerpt_eq : excerpt.toList = Text.slice source.toList ((ofSource source).get start).span.start
    ((ofSource source).get (start + count)).span.stop
  isReadable : ∀ index ≤ count, ((ofSource source).get (start + index)).kind.IsReadable
  isSolid : ((ofSource source).get start).kind.IsSolid
  isSolid_last : ((ofSource source).get (start + count)).kind.IsSolid
  closing : ∀ index ≤ depth,
    ((ofSource source).get (start + count + 1 + index)).kind = closingKind depth index
  get_shift : ∀ index ≤ count,
    ((ofSource excerpt).get index).shift ((ofSource source).get start).span.start =
      (ofSource source).get (start + index)
  get_closing : ∀ index,
    ((ofSource excerpt).get (count + 1 + index)).shift ((ofSource source).get start).span.start =
      .empty (closingKind depth index) ((ofSource source).get (start + count)).span.stop

/-- The tokens of an excerpt in the place that it has in a source. -/
def Tokens.inPlace (source excerpt : String) (start : Nat) : Tokens :=
  (ofSource source).splice (ofSource excerpt) start ((ofSource source).get start).span.start

namespace Tokens.StandsAlone

variable {source excerpt : String} {start count depth : Nat}
  (halone : StandsAlone source excerpt start count depth)

include halone

private theorem inPlace_get_add (index : Nat) :
    (inPlace source excerpt start).get (start + index) =
      ((ofSource excerpt).get index).shift ((ofSource source).get start).span.start :=
  splice_get_add (Nat.le_of_lt (lt_size_of_ne_endOfInput halone.isSolid.2.1)) index

private theorem inPlace_span (index : Nat) :
    ((inPlace source excerpt start).get (start + index)).span =
      ((ofSource excerpt).get index).span.shift ((ofSource source).get start).span.start :=
  congrArg Token.span (halone.inPlace_get_add index)

private theorem inPlace_get_of_le {index : Nat} (hle : index ≤ start + count) :
    (inPlace source excerpt start).get index = (ofSource source).get index := by
  rcases Nat.lt_or_ge index start with hlt | hge
  · exact splice_get_of_lt (Nat.le_of_lt (lt_size_of_ne_endOfInput halone.isSolid.2.1)) hlt
  · obtain ⟨index, rfl⟩ := Nat.exists_eq_add_of_le hge
    rw [halone.inPlace_get_add, halone.get_shift index (Nat.le_of_add_le_add_left hle)]

private theorem inPlace_get_closing (index : Nat) :
    (inPlace source excerpt start).get (start + count + 1 + index) =
      .empty (closingKind depth index) ((ofSource source).get (start + count)).span.stop := by
  rw [Nat.add_assoc, Nat.add_assoc, ← Nat.add_assoc count, halone.inPlace_get_add,
    halone.get_closing]

private theorem inPlace_inOrder : (inPlace source excerpt start).InOrder := by
  refine halone.ordered.toInOrder.of_get_eq rfl fun index hsolid => ?_
  rcases Nat.lt_or_ge (start + count) index with hlt | hle
  · obtain ⟨other, rfl⟩ := Nat.exists_eq_add_of_le hlt
    rw [halone.inPlace_get_closing] at hsolid
    exact absurd hsolid (closingKind_not_isSolid depth other).1
  · exact halone.inPlace_get_of_le hle

/-- Nothing behind the run ends in front of its end. -/
theorem le_stop_closing {index : Nat} (hle : index ≤ depth) :
    ((ofSource source).get (start + count)).span.stop ≤
      ((ofSource source).get (start + count + 1 + index)).span.stop := by
  have hkind : ((ofSource source).get (start + count + 1 + index)).kind ≠ .endOfInput := by
    rw [halone.closing index hle]
    exact ne_endOfInput_of_not_isSignificant (closingKind_not_isSignificant hle)
  have hvalid := halone.ordered.ne_invalid
  obtain ⟨step, hstep, hplaced⟩ := placed_of_ne_endOfInput hvalid hkind
  refine Nat.le_trans (stop_le_start_of_lt hvalid (by omega) halone.isSolid_last.2.1 hkind) ?_
  exact hstep ▸ hplaced.start_le

/-- What stands in front of the run ends there. -/
theorem stopBefore_start_le :
    (inPlace source excerpt start).stopBefore start ≤ ((ofSource source).get start).span.start := by
  cases start with
  | zero => exact Nat.zero_le _
  | succ index =>
    rw [stopBefore_succ, halone.inPlace_get_of_le (by omega)]
    refine stop_le_start_of_lt halone.ordered.ne_invalid (Nat.lt_succ_self index) (fun hend => ?_)
      halone.isSolid.2.1
    have hsize := (kind_ofSource_eq_endOfInput_iff source index).mp hend
    exact halone.isSolid.2.1 ((kind_ofSource_eq_endOfInput_iff source (index + 1)).mpr (by omega))

/-- In its place the excerpt has the tokens of the source up to the line structure behind them. -/
theorem source_excerpts : (ofSource source).Excerpts
    (.upTo ((ofSource source).get (start + count)).span.stop) (inPlace source excerpt start) start
    start (count + 1) depth := by
  have hget : ∀ index < count + 1, (inPlace source excerpt start).get (start + index) =
      (ofSource source).get (start + index) := fun index hlt =>
    halone.inPlace_get_of_le (Nat.add_le_add_left (Nat.le_of_lt_succ hlt) start)
  have hsource : (inPlace source excerpt start).source = (ofSource source).source := rfl
  refine ⟨Likeness.upTo_total _, halone.ordered, halone.inPlace_inOrder,
    fun index hlt => halone.isReadable index (Nat.le_of_lt_succ hlt),
    fun index hlt => congrArg Token.kind (hget index hlt),
    fun index hlt => congrArg Token.text (hget index hlt),
    fun index hlt _ => congrArg Token.span (hget index hlt), halone.closing,
    fun index => congrArg Token.kind (halone.inPlace_get_closing index), fun index hle hstop => ?_,
    fun first last hle hlt _ _ _ => ?_⟩
  · refine congrArg Span.point ?_
    cases hindex : start + index with
    | zero => simp only [stopBefore, if_pos]
    | succ place =>
      rw [hindex, stopBefore_succ] at hstop
      rw [stopBefore_succ, stopBefore_succ]
      rcases Nat.lt_or_ge (start + count) place with hlt | hge
      · obtain ⟨other, rfl⟩ : ∃ other, place = start + count + 1 + other :=
          Nat.exists_eq_add_of_le hlt
        have hle := halone.le_stop_closing (show other ≤ depth by omega)
        rw [halone.inPlace_get_closing]
        dsimp only [Span.point] at hstop
        dsimp only [Token.empty, Span.point]
        exact Nat.le_antisymm hle hstop
      · rw [halone.inPlace_get_of_le hge]
  · rw [hget first (Nat.lt_of_le_of_lt hle hlt), hget last hlt, hsource]

/-- From its place the excerpt is moved to the start. -/
theorem inPlace_excerpts : (inPlace source excerpt start).Excerpts
    (.shiftedDown ((ofSource source).get start).span.start) (ofSource excerpt) start 0
    (count + 1) depth := by
  have hkind : ∀ index, ((ofSource excerpt).get (0 + index)).kind =
      ((inPlace source excerpt start).get (start + index)).kind := fun index => by
    rw [halone.inPlace_get_add, Nat.zero_add, Token.shift]
  have htext : ∀ index, ((ofSource excerpt).get (0 + index)).text =
      ((inPlace source excerpt start).get (start + index)).text := fun index => by
    rw [halone.inPlace_get_add, Nat.zero_add, Token.shift]
  have hspan : ∀ index, ((ofSource excerpt).get (0 + index)).span =
      ((inPlace source excerpt start).get (start + index)).span.shiftDown
        ((ofSource source).get start).span.start := fun index => by
    rw [halone.inPlace_span, Nat.zero_add, Span.shiftDown_shift]
  have hpoint : ∀ index, (ofSource excerpt).stopBefore (0 + index) =
      (inPlace source excerpt start).stopBefore (start + index) -
        ((ofSource source).get start).span.start := by
    rintro (_ | index)
    · rw [Nat.add_zero, Nat.add_zero, Nat.sub_eq_zero_of_le halone.stopBefore_start_le, stopBefore,
        if_pos rfl]
    · rw [← Nat.add_assoc, ← Nat.add_assoc, stopBefore_succ, stopBefore_succ, hspan, Span.shiftDown]
  refine ⟨Likeness.shiftedDown_total _, halone.inPlace_inOrder, inOrder_ofSource excerpt,
    fun index hlt => ?_, fun index _ => hkind index, fun index _ => htext index,
    fun index _ => hspan index,
    fun index _ => congrArg Token.kind (halone.inPlace_get_closing index), fun index => ?_,
    fun index _ => congrArg Span.point (hpoint index), fun first last hle _ hfirst hlast => ?_⟩
  · rw [halone.inPlace_get_of_le (Nat.add_le_add_left (Nat.le_of_lt_succ hlt) start)]
    exact halone.isReadable index (Nat.le_of_lt_succ hlt)
  · rw [Nat.add_assoc, hkind, ← Nat.add_assoc, ← Nat.add_assoc, halone.inPlace_get_closing,
      Token.empty]
  · rw [← hkind, Nat.zero_add] at hfirst hlast
    rw [halone.inPlace_span, halone.inPlace_span, Nat.zero_add, Nat.zero_add]
    have hordered := inOrder_ofSource excerpt
    have hlt := Nat.lt_of_le_of_lt (hordered.start_le_start hle hfirst hlast)
      (hordered.start_lt last hlast)
    have hne := Text.slice_ne_nil (hordered.start_isBoundary first hfirst)
      (hordered.stop_isBoundary last hlast) hlt
    have hexcerpt : (ofSource excerpt).source = Text.slice (inPlace source excerpt start).source
        ((ofSource source).get start).span.start ((ofSource source).get (start + count)).span.stop :=
      halone.excerpt_eq
    rw [hexcerpt] at hne ⊢
    exact congrArg String.ofList (Text.slice_slice hne)

/-- The tokens of an excerpt have the kinds that they have in the source. -/
theorem get_kind {index : Nat} (hle : index ≤ count) :
    ((ofSource excerpt).get index).kind = ((ofSource source).get (start + index)).kind := by
  rw [← halone.get_shift index hle, Token.shift]

private theorem get_closing_kind (index : Nat) :
    ((ofSource excerpt).get (count + 1 + index)).kind = closingKind depth index := by
  have hkind := congrArg Token.kind (halone.get_closing index)
  rwa [Token.shift, Token.empty] at hkind

/-- The excerpt has no lexical errors. -/
theorem ne_invalid (index : Nat) : ((ofSource excerpt).get index).kind ≠ .invalid := by
  rcases Nat.lt_or_ge count index with hlt | hge
  · obtain ⟨other, rfl⟩ : ∃ other, index = count + 1 + other := Nat.exists_eq_add_of_le hlt
    exact (halone.get_closing_kind other).trans_ne (closingKind_ne_invalid depth other)
  · rw [halone.get_kind hge]
    exact halone.ordered.ne_invalid _

end Tokens.StandsAlone

/-! ## Definitions -/

namespace Parser

variable {tokens : Tokens} {before after : Place} {stmt : Stmt} {source excerpt : String}
  {last depth : Nat}

/-- A line that starts a definition is read as that definition alone. -/
private theorem stmtLineOver_reads_definition {block : Parser (List Stmt)}
    (hstarts : tokens.StartsDefinition before.next)
    (hreads : (definition block).Reads tokens (before.look 1) stmt after) :
    (stmtLineOver block).Reads tokens before [stmt] after := by
  have hone : (definition block >>= fun stmt => pure [stmt]).Reads tokens (before.look 1) [stmt]
      after :=
    reads_bind.mpr ⟨stmt, after, hreads, reads_pure.mpr ⟨rfl, rfl⟩⟩
  refine reads_bind.mpr ⟨_, _, reads_peekTwo.mpr ⟨rfl, rfl⟩, ?_⟩
  dsimp only
  rcases hstarts with hkind | hkind | hkind | ⟨hkind, hnext⟩
  · rw [hkind]
    exact hone
  · rw [hkind]
    exact hone
  · rw [hkind]
    exact hone
  · rw [hkind, hnext]
    exact hone

/-- The text of a definition of a module stands alone. -/
theorem ReadsTopLevel.standsAlone (htop : ReadsTopLevel source before stmt last depth after)
    (hordered : (Tokens.ofSource source).Ordered)
    (hexcerpt : excerpt.toList = Text.slice source.toList stmt.span.start stmt.span.stop) :
    ∃ count, last = before.next + count ∧
      Tokens.StandsAlone source excerpt before.next count depth := by
  obtain ⟨count, rfl⟩ := Nat.exists_eq_add_of_le (Nat.le_of_lt htop.lt)
  have hkinds := (definition_lays hordered (blockWithin_lays hordered _) htop.reads).kinds
  have hline : ((Tokens.ofSource source).get (before.next + count + 1)).kind = .newline :=
    htop.closing 0 (Nat.zero_le depth)
  rw [htop.span_eq] at hexcerpt
  obtain ⟨hsame, depth', hdepth, hend⟩ := Tokens.ofSource_excerpt hordered htop.lt htop.starts.isPlain
    htop.levelAt_eq htop.openers_eq htop.isSolid (by rw [hline]; decide) hexcerpt
  obtain rfl : depth' = depth := Int.ofNat.inj (hdepth.symm.trans htop.depth_eq)
  rw [Nat.add_sub_cancel_left] at hsame hend
  exact ⟨count, rfl, hordered, hexcerpt,
    fun index hle => hkinds _ (Nat.le_add_right ..) (by rw [htop.next_eq]; omega),
    htop.starts.isPlain.1, htop.isSolid, htop.closing, hsame, hend⟩

/-- A definition whose text stands alone is read from this text too, with all spans moved. -/
theorem ReadsTopLevel.reads_excerpt {count : Nat}
    (htop : ReadsTopLevel source before stmt (before.next + count) depth after)
    (halone : Tokens.StandsAlone source excerpt before.next count depth) {before' : Place}
    (hbefore' : before'.next = 0) :
    ∃ stmt' after', after'.next = count + 1 + (depth + 1) ∧
      stmt.Alike (.shiftedDown stmt.span.start) stmt' ∧
      (definition block).Reads (.ofSource excerpt) before' stmt' after' := by
  have hordered := halone.ordered
  have hafter : after.next = before.next + (count + 1 + depth + 1) := by
    rw [htop.next_eq]
    omega
  obtain ⟨common, middle, hmiddle, hcommon, hreads⟩ :=
    halone.source_excerpts.definition_reads htop.reads rfl hafter rfl
  have hsits := (definition_lays hordered (blockWithin_lays hordered _) htop.reads).sits stmt.node
    (List.mem_singleton_self _)
  -- No span of the definition ends behind its own, so in its place it is the same.
  have hends : stmt.node.EndsBy ((Tokens.ofSource source).get (before.next + count)).span.stop := by
    refine hsits.1.endsBy (Nat.le_of_eq ?_)
    rw [Stmt.node_span, htop.span_eq]
  obtain rfl := hcommon.eq hordered.toInOrder hends htop.wasRead
  obtain ⟨stmt', after', hafter', hstmt', hreads'⟩ :=
    halone.inPlace_excerpts.definition_reads hreads rfl hmiddle hbefore'
  rw [htop.span_eq]
  exact ⟨stmt', after', by omega, hstmt', hreads'⟩

end Parser

/-- **The text of a definition.** In a source in which no level of indentation ends right behind its
start, the text of every definition of the module is a module of its own. It has one statement,
which is that definition with all spans moved to the start of the text. (No span of the definition
starts in front of its own, see `parseModule_laminar`.) -/
theorem parseModule_excerpt {source : String} {module : Module} {stmt : Stmt}
    (hparse : parseModule source = .ok module)
    (hlevels : ∀ index, ((Tokens.ofSource source).get index).kind = .indent →
      ((Tokens.ofSource source).get (index + 1)).kind ≠ .dedent)
    (hstmt : stmt ∈ module.body) (hdefinition : stmt.definition?.isSome) :
    ∃ module' stmt',
      parseModule (String.ofList (Text.slice source.toList stmt.span.start stmt.span.stop)) =
        .ok module' ∧
      module'.body = [stmt'] ∧ stmt.Alike (.shiftedDown stmt.span.start) stmt' := by
  obtain ⟨before, last, depth, after, htop⟩ :=
    exists_readsTopLevel hparse hstmt hdefinition hlevels
  obtain ⟨_, _, -, -, hordered, -⟩ := reads_of_parseModule hparse
  obtain ⟨count, rfl, halone⟩ := htop.standsAlone hordered (String.toList_ofList)
  generalize String.ofList (Text.slice source.toList stmt.span.start stmt.span.stop) = excerpt
    at halone ⊢
  have hstart : ((Place.start.look 0).look 1).next = 0 := rfl
  obtain ⟨stmt', after', hafter', hstmt', hreads⟩ := htop.reads_excerpt halone hstart
  have hfirst := halone.get_kind (Nat.zero_le count)
  rw [Nat.add_zero] at hfirst
  have hsecond := halone.get_kind (show 1 ≤ count by have hlt := htop.lt; omega)
  have hstarts : (Tokens.ofSource excerpt).StartsDefinition (Place.start.look 0).next := by
    change (Tokens.ofSource excerpt).StartsDefinition 0
    rw [Tokens.StartsDefinition, hfirst, hsecond]
    exact htop.starts
  have hline := Parser.stmtLineOver_reads_definition hstarts hreads
  have hsolid : ((Tokens.ofSource excerpt).kindAt .start).IsSolid := by
    change ((Tokens.ofSource excerpt).get 0).kind.IsSolid
    rw [hfirst]
    exact htop.starts.isPlain.1
  have hend : (Tokens.ofSource excerpt).kindAt after' = .endOfInput := by
    rw [Tokens.kindAt, hafter', halone.get_closing_kind, closingKind, if_neg (Nat.lt_irrefl _)]
  have hmodule := Parser.module_reads_line hline ⟨hsolid.2.1, hsolid.ne (by decide)⟩ hend
    (Tokens.size_ofSource_pos excerpt)
  exact ⟨_, stmt', parseModule_of_reads hmodule halone.ne_invalid, rfl, hstmt'⟩

/-- A class behind another statement, with a decorator, two levels, a match statement and a
character of more than one byte, and with a comment and another statement behind it. -/
theorem parseModule_excerpt_decorated :
    ∃ module stmt module' stmt',
      parseModule "x = 1\n@d\nclass A:\n  def f(self):\n    match s:\n      case [é]: y\n\n# c\nz\n" =
        .ok module ∧
      stmt ∈ module.body ∧ stmt.definition?.isSome ∧ stmt.span = ⟨6, 64⟩ ∧
      parseModule "@d\nclass A:\n  def f(self):\n    match s:\n      case [é]: y" = .ok module' ∧
      module'.body = [stmt'] ∧ stmt.Alike (.shiftedDown 6) stmt' := by
  have hread : (parseModule
      "x = 1\n@d\nclass A:\n  def f(self):\n    match s:\n      case [é]: y\n\n# c\nz\n").toOption.any
      fun module => module.body.any fun stmt => stmt.definition?.isSome && stmt.span = ⟨6, 64⟩ := by
    decide +kernel
  have hjoin : ∀ step ∈ Lexer.run
      "x = 1\n@d\nclass A:\n  def f(self):\n    match s:\n      case [é]: y\n\n# c\nz\n",
      step.1.kind = .indent → step.2.cursor.peek? ≠ some '\\' := by
    decide +kernel
  have htext : String.ofList (Text.slice
      "x = 1\n@d\nclass A:\n  def f(self):\n    match s:\n      case [é]: y\n\n# c\nz\n".toList 6 64) =
      "@d\nclass A:\n  def f(self):\n    match s:\n      case [é]: y" := by
    decide +kernel
  cases hparse : parseModule
      "x = 1\n@d\nclass A:\n  def f(self):\n    match s:\n      case [é]: y\n\n# c\nz\n" with
  | error failure =>
    rw [hparse] at hread
    cases hread
  | ok module =>
    rw [hparse] at hread
    obtain ⟨stmt, hstmt, hplace⟩ := List.any_eq_true.mp hread
    obtain ⟨hdefinition, hspan⟩ := Bool.and_eq_true_iff.mp hplace
    have hspan := of_decide_eq_true hspan
    obtain ⟨module', stmt', hparse', hbody, halike⟩ := parseModule_excerpt hparse
      (fun _ hindent => Tokens.ne_dedent_of_indent hjoin hindent) hstmt hdefinition
    rw [hspan] at hparse' halike
    rw [htext] at hparse'
    exact ⟨module, stmt, module', stmt', rfl, hstmt, hdefinition, hspan, hparse', hbody, halike⟩

/-- In a source with a level that ends right behind its start, a block may be empty that leaves no
trace in the tree. The text of the definition then ends in front of it, where a block is missing. -/
theorem parseModule_excerpt_joined :
    ∃ module stmt, parseModule "def f():\n if x: y\n else:\n  \\\n" = .ok module ∧
      (∀ block ∈ blocksOf module.body, block ≠ []) ∧
      stmt ∈ module.body ∧ stmt.definition?.isSome ∧
      ∀ module', parseModule (String.ofList (Text.slice
        "def f():\n if x: y\n else:\n  \\\n".toList stmt.span.start stmt.span.stop)) ≠ .ok module' := by
  have hread : (parseModule "def f():\n if x: y\n else:\n  \\\n").toOption.any fun module =>
      (blocksOf module.body).all (fun block => !block.isEmpty) &&
        module.body.any fun stmt => stmt.definition?.isSome &&
          !(parseModule (String.ofList (Text.slice
            "def f():\n if x: y\n else:\n  \\\n".toList stmt.span.start stmt.span.stop))).isOk := by
    decide +kernel
  cases hparse : parseModule "def f():\n if x: y\n else:\n  \\\n" with
  | error failure =>
    rw [hparse] at hread
    cases hread
  | ok module =>
    rw [hparse] at hread
    obtain ⟨hblocks, hbody⟩ := Bool.and_eq_true_iff.mp hread
    obtain ⟨stmt, hstmt, hfails⟩ := List.any_eq_true.mp hbody
    obtain ⟨hdefinition, hfails⟩ := Bool.and_eq_true_iff.mp hfails
    refine ⟨module, stmt, rfl, fun block hblock hempty => ?_, hstmt, hdefinition,
      fun module' hparse' => ?_⟩
    · have hfilled := List.all_eq_true.mp hblocks block hblock
      rw [hempty] at hfilled
      cases hfilled
    · rw [hparse'] at hfails
      cases hfails

end PythonOutline
