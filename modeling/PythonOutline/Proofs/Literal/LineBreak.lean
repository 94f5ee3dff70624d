import Mathlib.Data.List.TakeWhile
import PythonOutline.Literal.Basic
import PythonOutline.Proofs.Lexer.StringBreak

/-! # The values of string literals over line breaks

The value of a string literal that is written anew with other line breaks is the value that it had,
with some of its line feeds written anew. Those that escapes stand for stay, and those behind a
backslash are in neither value.
-/

namespace PythonOutline

namespace LineBreak

/-- Two texts that are the same but for line feeds of the first one, in place of which the second
one has another line break. -/
inductive Varies (lineBreak : LineBreak) : List Char → List Char → Prop where
  | nil : Varies lineBreak [] []
  | cons {text text' : List Char} (c : Char) (htext : Varies lineBreak text text') :
      Varies lineBreak (c :: text) (c :: text')
  | feed {text text' : List Char} (htext : Varies lineBreak text text') :
      Varies lineBreak ('\n' :: text) ('\r' :: (lineBreak.behindReturn ++ text'))

namespace Varies

variable {lineBreak : LineBreak} {first first' others others' : List Char}

/-- A text varies from itself by no line break. -/
theorem refl (text : List Char) : lineBreak.Varies text text := by
  induction text with
  | nil => exact .nil
  | cons c text ih => exact .cons c ih

/-- Texts that vary may follow each other. -/
theorem append (hfirst : lineBreak.Varies first first') (hothers : lineBreak.Varies others others') :
    lineBreak.Varies (first ++ others) (first' ++ others') := by
  induction hfirst with
  | nil => exact hothers
  | cons c _ ih => exact .cons c ih
  | feed _ ih =>
    rw [List.cons_append, List.cons_append, List.append_assoc]
    exact .feed ih

/-- A text that is spelled with other line breaks varies from it. -/
theorem respell (text : List Char) : lineBreak.Varies text (lineBreak.respell text) := by
  induction text with
  | nil => exact .nil
  | cons c text ih =>
    by_cases hc : c = '\n'
    · subst hc
      rw [respell_feed]
      exact .feed ih
    · rw [respell_cons hc]
      exact .cons c ih

end Varies

/-- The start of a run is the same in either spelling. -/
theorem takeWhile_take_respell {lineBreak : LineBreak} {inClass : Char → Bool}
    (hclass : Inline inClass) (count : Nat) (text : List Char) :
    ((lineBreak.respell text).take count).takeWhile inClass =
      (text.take count).takeWhile inClass := by
  induction text generalizing count with
  | nil => rfl
  | cons c text ih =>
    cases count with
    | zero => rfl
    | succ count =>
      by_cases hc : c = '\n'
      · subst hc
        simp [hclass.1, hclass.2]
      · rw [respell_cons hc, List.take_succ_cons, List.take_succ_cons, List.takeWhile_cons,
          List.takeWhile_cons, ih]

end LineBreak

open LineBreak

namespace Literal

variable {lineBreak : LineBreak} {bytes : Bool} {text : List Char}

/-! ## Escapes -/

/-- The digits of an escape are the start of a run of digits that is long enough. -/
theorem leadingHex?_eq (count : Nat) (text : List Char) :
    leadingHex? count text =
      if ((text.take count).takeWhile Text.hexDigits.contains).length = count then
        some (((text.take count).takeWhile Text.hexDigits.contains).foldl
          (fun value c => value * 16 + hexValue c) 0)
      else none := by
  rw [leadingHex?]
  by_cases hall : (text.take count).all Text.hexDigits.contains
  · have hrun := List.takeWhile_eq_self_iff.mpr (List.all_eq_true.mp hall)
    rw [hrun]
    simp only [hall, and_true]
  · have hshort : ((text.take count).takeWhile Text.hexDigits.contains).length ≠ count := by
      intro hlength
      have hstarts : (text.take count).takeWhile Text.hexDigits.contains <+: text.take count :=
        List.takeWhile_prefix _
      have hle : (text.take count).length ≤ count := List.length_take_le ..
      have hrun := hstarts.eq_of_length_le (by omega)
      exact hall (List.all_eq_true.mpr (List.takeWhile_eq_self_iff.mp hrun))
    rw [if_neg (fun hdigits => hall hdigits.2), if_neg hshort]

private theorem leadingHex?_respell (count : Nat) (text : List Char) :
    leadingHex? count (lineBreak.respell text) = leadingHex? count text := by
  have hdigits : Inline Text.hexDigits.contains := ⟨rfl, rfl⟩
  rw [leadingHex?_eq, leadingHex?_eq, takeWhile_take_respell hdigits]

private theorem leadingOctal_respell (count : Nat) (text : List Char) :
    leadingOctal count (lineBreak.respell text) = leadingOctal count text :=
  takeWhile_take_respell ⟨rfl, rfl⟩ count text

/-- What stands behind an escaped character that is no line end matters for its digits only. -/
theorem escape_respell {c : Char} (hfeed : c ≠ '\n') (hreturn : c ≠ '\r') :
    escape bytes c (lineBreak.respell text) = escape bytes c text := by
  simp only [escape, if_neg hfeed, if_neg hreturn, leadingHex?_respell, leadingOctal_respell]

/-- An escape takes no line feed along. -/
theorem feed_notMem_escape {c : Char} (hfeed : c ≠ '\n') (hreturn : c ≠ '\r') :
    '\n' ∉ text.take (escape bytes c text).2 := by
  rw [escape, if_neg hfeed, if_neg hreturn]
  split
  · simp
  split
  · have hdigits : leadingOctal 2 text <+: text :=
      (List.takeWhile_prefix _).trans (List.take_prefix _ _)
    dsimp only
    rw [← List.prefix_iff_eq_take.mp hdigits]
    intro hmem
    have hdigit : Text.octalDigits.contains '\n' := List.mem_takeWhile_imp hmem
    cases hdigit
  split
  · simp
  split
  · rename_i width _ _ code hcode
    dsimp only
    intro hmem
    unfold leadingHex? at hcode
    dsimp only at hcode
    split at hcode
    · rename_i hdigits
      have hdigit : Text.hexDigits.contains '\n' := List.all_eq_true.mp hdigits.2 _ hmem
      cases hdigit
    · cases hcode
  · simp

/-- Behind a backslash a line break is dropped in either spelling. -/
theorem unescapeFrom_join (text : List Char) :
    unescapeFrom bytes 0 ('\\' :: lineBreak.respell ('\n' :: text)) =
      unescapeFrom bytes 0 (lineBreak.respell text) := by
  rw [respell_feed]
  cases lineBreak with
  | carriageReturn =>
    have hcarriage : ∀ cs, unescapeFrom bytes 0 ('\\' :: '\r' :: cs) =
        unescapeFrom bytes (if cs.head? = some '\n' then 1 else 0) cs := fun _ => rfl
    rw [behindReturn, List.nil_append, hcarriage, if_neg (head?_respell_carriageReturn text)]
  | returnFeed => rfl

/-- A character that is no backslash stands for itself. -/
theorem unescapeFrom_plain {c : Char} (text : List Char) (hc : c ≠ '\\') :
    unescapeFrom bytes 0 (c :: text) = c :: unescapeFrom bytes 0 text := by
  conv_lhs => unfold unescapeFrom
  exact if_neg hc

/-- An escape gives its own characters, and what it has not used is read behind it. -/
theorem unescapeFrom_escape (e : Char) (text : List Char) :
    unescapeFrom bytes 0 ('\\' :: e :: text) =
      (escape bytes e text).1 ++ unescapeFrom bytes (escape bytes e text).2 text :=
  rfl

/-- The value of a body varies with its line breaks as the body does; an escaped break is dropped
from both. -/
private theorem unescapeFrom_varies {skip : Nat} (hreturn : '\r' ∉ text)
    (hskip : '\n' ∉ text.take skip) :
    lineBreak.Varies (unescapeFrom bytes skip text)
      (unescapeFrom bytes skip (lineBreak.respell text)) := by
  fun_induction unescapeFrom bytes skip text with
  | case1 => exact .nil
  | case2 skip c cs ih =>
    rw [List.take_succ_cons, List.mem_cons, not_or] at hskip
    rw [List.mem_cons, not_or] at hreturn
    rw [respell_cons (Ne.symm hskip.1)]
    exact ih hreturn.2 hskip.2
  | case3 => exact .refl _
  | case4 e following meaning taken hescape ih =>
    have hfollowing : '\r' ∉ following := fun hmem => hreturn (by simp [hmem])
    rw [respell_cons (by decide)]
    by_cases he : e = '\n'
    · subst he
      obtain ⟨rfl, rfl⟩ := Prod.mk.inj (hescape : ([], 0) = _)
      rw [unescapeFrom_join]
      exact ih hfollowing (by simp)
    · have he' : e ≠ '\r' := by
        rintro rfl
        exact hreturn (by simp)
      have htaken : '\n' ∉ following.take taken := by
        have hescaped : '\n' ∉ following.take (escape bytes e following).2 :=
          feed_notMem_escape he he'
        rwa [hescape] at hescaped
      rw [respell_cons he, unescapeFrom_escape, escape_respell he he', hescape]
      exact (Varies.refl meaning).append (ih hfollowing htaken)
  | case5 c cs hc ih =>
    have hcs : '\r' ∉ cs := fun hmem => hreturn (List.mem_cons_of_mem _ hmem)
    by_cases hfeed : c = '\n'
    · subst hfeed
      rw [respell_feed, unescapeFrom_plain _ (by decide)]
      cases lineBreak with
      | carriageReturn => exact .feed (ih hcs (by simp))
      | returnFeed =>
        rw [behindReturn, List.cons_append, List.nil_append, unescapeFrom_plain _ (by decide)]
        exact .feed (ih hcs (by simp))
    · rw [respell_cons hfeed, unescapeFrom_plain _ hc]
      exact .cons c (ih hcs (by simp))

/-! ## Literals -/

variable {raw letters body : List Char} {quote : Char} {triple : Bool}

private theorem byteLength_quotes {quote : Char} (triple : Bool) (hquote : isQuote quote) :
    Text.byteLength (quotes quote triple) = (quotes quote triple).length := by
  rcases isQuote_iff.mp hquote with rfl | rfl <;> cases triple <;> rfl

/-- The width of the quotes of a literal is found again. -/
theorem quoteWidth_written (hwritten : Written raw letters quote triple body) :
    quoteWidth (quotes quote triple ++ (body ++ quotes quote triple)) =
      (quotes quote triple).length := by
  have hquote := isQuote_iff.mp hwritten.isQuote_quote
  have hwidth := byteLength_quotes triple hwritten.isQuote_quote
  rw [quoteWidth]
  cases triple with
  | true =>
    have hthree : 6 ≤ Text.byteLength (quotes quote true ++ (body ++ quotes quote true)) := by
      have hlength : (quotes quote true).length = 3 := rfl
      rw [Text.byteLength_append, Text.byteLength_append, hwidth]
      omega
    have hstarts : ['\'', '\'', '\''].isPrefixOf (quotes quote true ++ (body ++ quotes quote true)) ∨
        ['"', '"', '"'].isPrefixOf (quotes quote true ++ (body ++ quotes quote true)) := by
      rcases hquote with rfl | rfl <;> simp [quotes]
    rw [if_pos ⟨hthree, hstarts⟩]
    rfl
  | false =>
    rw [if_neg]
    · rfl
    · rintro ⟨-, hstarts⟩
      apply hwritten.single (by simp)
      rcases hquote with rfl | rfl <;> simpa [quotes, List.isPrefixOf] using hstarts

/-- The text between the quotes of a literal lies between two characters of it. -/
theorem slice?_written (hwritten : Written raw letters quote triple body) :
    Text.slice? (quotes quote triple ++ (body ++ quotes quote triple)) (quotes quote triple).length
      (Text.byteLength (quotes quote triple ++ (body ++ quotes quote triple)) -
        (quotes quote triple).length) = some body := by
  have hlength : Text.byteLength (quotes quote triple ++ (body ++ quotes quote triple)) -
      Text.byteLength (quotes quote triple) =
        Text.byteLength (quotes quote triple) + Text.byteLength body := by
    rw [Text.byteLength_append, Text.byteLength_append]
    omega
  rw [← byteLength_quotes triple hwritten.isQuote_quote, hlength]
  simp [Text.slice?, Text.dropBytes?_append, Text.takeBytes?_append]

/-- Between its quotes a literal holds its text. -/
theorem inner_written (hwritten : Written raw letters quote triple body) :
    inner (quotes quote triple ++ (body ++ quotes quote triple)) = body := by
  rw [inner, quoteWidth_written hwritten, Text.slice, slice?_written hwritten, Option.getD_some]

/-- The value of a literal that is written with a prefix and quotes. -/
theorem decode_written (hwritten : Written raw letters quote triple body) :
    decode raw =
      let lowered := letters.map Char.toLower
      ⟨String.ofList (if lowered.contains 'r' || lowered.contains 'f' then body
        else unescape (lowered.contains 'b') body), lowered.contains 'b', lowered.contains 'f'⟩ := by
  rw [decode, hwritten.span_eq]
  dsimp only
  rw [inner_written hwritten]

/-- The value of a literal that is written anew is the value that it had, with some of its line
feeds written anew. -/
theorem decode_varies (hwritten : Written raw letters quote triple body) (hreturn : '\r' ∉ raw) :
    lineBreak.Varies (decode raw).text.toList (decode (lineBreak.respell raw)).text.toList ∧
      (decode (lineBreak.respell raw)).bytes = (decode raw).bytes ∧
      (decode (lineBreak.respell raw)).formatted = (decode raw).formatted := by
  have hbody : '\r' ∉ body := by
    rw [hwritten.raw_eq] at hreturn
    exact fun hmem => hreturn (by simp [hmem])
  have hlowered : ∀ c : Char, c ≠ '\n' → c ≠ '\r' →
      ((lineBreak.respell letters).map Char.toLower).contains c =
        (letters.map Char.toLower).contains c := by
    intro c hfeed hcarriage
    have hfeed : (c == '\n'.toLower) = false := beq_eq_false_iff_ne.mpr hfeed
    have hcarriage : (c == '\r'.toLower) = false := beq_eq_false_iff_ne.mpr hcarriage
    rw [List.contains_eq_any_beq, List.contains_eq_any_beq, List.any_map, List.any_map]
    exact any_respell (hfeed.trans hcarriage.symm)
  rw [decode_written hwritten, decode_written hwritten.respell]
  dsimp only
  rw [hlowered 'b' (by decide) (by decide), hlowered 'f' (by decide) (by decide),
    hlowered 'r' (by decide) (by decide)]
  refine ⟨?_, rfl, rfl⟩
  rw [String.toList_ofList, String.toList_ofList]
  split
  · exact Varies.respell body
  · exact unescapeFrom_varies hbody (by simp)

end Literal

end PythonOutline
