import PythonOutline.Proofs.Lexer.Brackets
import PythonOutline.Proofs.Tree.Balanced

/-! # The brackets that are open in front of a token

`openers` are the brackets that are open in front of a token, innermost first, as the tokens in front of
it tell. In every source, with lexical errors or without, each token that can be read takes a
`BracketStep` from them. So a closing bracket stands only where one of its own kind is the innermost,
line structure only where none is open, and a run of text from one place outside of brackets to another
is balanced.
-/

namespace PythonOutline

namespace TokenKind

variable {kind : TokenKind}

/-- Line structure can be read and is no bracket. -/
theorem isReadable_of_structural (hkind : ¬kind.isSignificant) :
    kind.IsReadable ∧ ¬kind.isOpenBracket ∧ ¬kind.isCloseBracket := by
  revert hkind
  cases kind <;> decide

private theorem isSolid_of_isCloseBracket (hclose : kind.isCloseBracket) : kind.IsSolid := by
  revert hclose
  cases kind <;> decide

end TokenKind

/-- What a token leaves of the brackets that are open in front of it. -/
def Token.openersBehind (token : Token) (opened : List Token) : List Token :=
  if token.kind.isOpenBracket then token :: opened
  else if token.kind.isCloseBracket then opened.tail
  else opened

/-- A token that is no bracket leaves the open ones as they are. -/
theorem Token.openersBehind_of_plain {token : Token} (hopen : ¬token.kind.isOpenBracket)
    (hclose : ¬token.kind.isCloseBracket) (opened : List Token) :
    token.openersBehind opened = opened := by
  rw [openersBehind, if_neg hopen, if_neg hclose]

/-- A step leaves what its token says. -/
theorem BracketStep.eq_openersBehind {token : Token} {opened opened' : List Token}
    (hstep : BracketStep opened token opened') : opened' = token.openersBehind opened := by
  cases hstep with
  | opening hkind => rw [Token.openersBehind, if_pos hkind]
  | closing hmatch =>
    obtain ⟨-, -, hclose, -⟩ := TokenKind.isBracket_of_closingBracket? hmatch
    rw [Token.openersBehind, TokenKind.isOpenBracket_eq_false hclose, if_pos hclose]
    rfl
  | text _ hopen hclose => exact (Token.openersBehind_of_plain hopen hclose opened).symm
  | structural hkind =>
    obtain ⟨-, hopen, hclose⟩ := TokenKind.isReadable_of_structural hkind
    exact (Token.openersBehind_of_plain hopen hclose []).symm

namespace Tokens

/-- The brackets that are open in front of the token at an index, innermost first. -/
def openers (tokens : Tokens) : (index : Nat) → List Token
  | 0 => []
  | index + 1 => (tokens.get index).openersBehind (tokens.openers index)

/-- Every token that can be read takes a step from the brackets that are open in front of it. -/
def Matched (tokens : Tokens) : Prop :=
  ∀ index, (tokens.get index).kind.IsReadable →
    BracketStep (tokens.openers index) (tokens.get index) (tokens.openers (index + 1))

variable {tokens : Tokens} {start middle stop index : Nat}

namespace Matched

variable (hmatched : tokens.Matched)

include hmatched

/-- Line structure stands outside of all brackets. -/
theorem openers_structural (hkind : ¬(tokens.get index).kind.isSignificant) :
    tokens.openers index = [] ∧ tokens.openers (index + 1) = [] := by
  obtain ⟨hreadable, hplain, -⟩ := TokenKind.isReadable_of_structural hkind
  have hstep := hmatched index hreadable
  generalize tokens.openers index = opened, tokens.openers (index + 1) = opened' at hstep ⊢
  cases hstep with
  | structural => exact ⟨rfl, rfl⟩
  | opening hopen => exact absurd hopen hplain
  | closing hmatch => exact absurd (TokenKind.isBracket_of_closingBracket? hmatch).2.2.2.1 hkind
  | text hsolid => exact absurd hsolid.1 hkind

/-- A closing bracket stands only where one is open. -/
theorem length_close (hclose : (tokens.get index).kind.isCloseBracket) :
    (tokens.openers index).length = (tokens.openers (index + 1)).length + 1 := by
  have hsolid := TokenKind.isSolid_of_isCloseBracket hclose
  have hstep := hmatched index ⟨hsolid.2.2, hsolid.2.1⟩
  generalize tokens.openers index = opened, tokens.openers (index + 1) = opened' at hstep ⊢
  cases hstep with
  | closing => rfl
  | opening hopen =>
    rw [TokenKind.isOpenBracket_eq_false hclose] at hopen
    cases hopen
  | text _ _ hother => exact absurd hclose hother
  | structural hkind => exact absurd hsolid.1 hkind

/-- As many brackets are open as were opened and not closed. -/
theorem openBrackets_eq (index : Nat) :
    tokens.openBrackets index = (tokens.openers index).length := by
  induction index with
  | zero => rfl
  | succ index ih =>
    by_cases hopen : (tokens.get index).kind.isOpenBracket
    · rw [openBrackets_open hopen, openers, Token.openersBehind, if_pos hopen, ih]
      rfl
    · by_cases hclose : (tokens.get index).kind.isCloseBracket
      · have hlength := hmatched.length_close hclose
        rw [openBrackets_close hclose]
        omega
      · rw [openBrackets, bracketStep, if_neg hopen, if_neg hclose, openers,
          Token.openersBehind_of_plain hopen hclose, ih, Int.add_zero]

end Matched

/-- The brackets that are open behind a run, where behind each of them the run is balanced up to the
next. -/
inductive LeavesOpen (tokens : Tokens) (start : Nat) : List Token → (stop : Nat) → Prop where
  | closed {stop : Nat} (hrun : tokens.Balanced start stop) : LeavesOpen tokens start [] stop
  | opened {outer : List Token} {middle stop : Nat} (houter : LeavesOpen tokens start outer middle)
      (hrun : tokens.Balanced (middle + 1) stop) :
      LeavesOpen tokens start (tokens.get middle :: outer) stop

/-- A balanced run behind it opens no bracket. -/
theorem LeavesOpen.append {opened : List Token} (hleaves : tokens.LeavesOpen start opened middle)
    (hrun : tokens.Balanced middle stop) : tokens.LeavesOpen start opened stop := by
  cases hleaves with
  | closed hfirst => exact .closed (hfirst.append hrun)
  | opened houter hfirst => exact .opened houter (hfirst.append hrun)

/-- One more token that is text. -/
theorem LeavesOpen.step {opened opened' : List Token} (hleaves : tokens.LeavesOpen start opened index)
    (hstep : BracketStep opened (tokens.get index) opened') (hsolid : (tokens.get index).kind.IsSolid) :
    tokens.LeavesOpen start opened' (index + 1) := by
  cases hstep with
  | opening => exact .opened hleaves (.nil _)
  | closing hmatch =>
    cases hleaves with
    | opened houter hrun => exact houter.append (.enclosed hmatch hrun)
  | text _ hopen hclose => exact hleaves.append (.single ⟨hsolid, hopen, hclose⟩)
  | structural hkind => exact absurd hsolid.1 hkind

/-- A run of text that starts and ends outside of brackets is balanced. -/
theorem Matched.balanced (hmatched : tokens.Matched) (hle : start ≤ stop)
    (hsolid : ∀ index, start ≤ index → index < stop → (tokens.get index).kind.IsSolid)
    (hstart : tokens.openers start = []) (hstop : tokens.openers stop = []) :
    tokens.Balanced start stop := by
  have hleaves : tokens.LeavesOpen start (tokens.openers stop) stop := by
    obtain ⟨count, rfl⟩ := Nat.exists_eq_add_of_le hle
    clear hle hstop
    induction count with
    | zero => exact hstart ▸ .closed (.nil _)
    | succ count ih =>
      have hlast := hsolid (start + count) (Nat.le_add_right _ _) (Nat.lt_succ_self _)
      have hfront := ih fun index hge hlt => hsolid index hge (Nat.lt_succ_of_lt hlt)
      exact hfront.step (hmatched _ ⟨hlast.2.2, hlast.2.1⟩) hlast
  rw [hstop] at hleaves
  cases hleaves with
  | closed hrun => exact hrun

end Tokens

/-! ## Sources -/

namespace Lexer

variable {source : List Char} {lexer : Lexer} {opened : List Token}

/-- A lexer keeps the brackets that are open, or only ends of input are to come. -/
def KeepsBrackets (lexer : Lexer) (source : List Char) (opened : List Token) : Prop :=
  lexer.Tracks opened ∧ lexer.Reading source ∨ lexer.Ended

/-- The next token opens or closes a bracket, as its kind says. -/
theorem KeepsBrackets.next (hkeeps : lexer.KeepsBrackets source opened) :
    lexer.next.2.KeepsBrackets source (lexer.next.1.openersBehind opened) ∧
      (lexer.next.1.kind.IsReadable →
        BracketStep opened lexer.next.1 (lexer.next.1.openersBehind opened)) := by
  rcases hkeeps with ⟨htracks, hreading⟩ | hended
  · rcases hreading.next_ended with ⟨hreadable, hbehind, -⟩ | ⟨htoken, -, hended⟩ |
      ⟨hinvalid, -, hended⟩
    · obtain ⟨opened', hstep, htracked⟩ := htracks.next hreading hreadable
      obtain rfl := hstep.eq_openersBehind
      exact ⟨.inl ⟨htracked, hbehind⟩, fun _ => hstep⟩
    · refine ⟨.inr hended, fun hreadable => ?_⟩
      rw [htoken] at hreadable
      exact absurd rfl hreadable.2
    · exact ⟨.inr hended, fun hreadable => absurd hinvalid hreadable.1⟩
  · have hnext : lexer.next = (.endOfInput lexer.size, lexer) := hended
    rw [hnext]
    exact ⟨.inr hended, fun hreadable => absurd rfl hreadable.2⟩

end Lexer

/-- The lexer of a source keeps the brackets that its tokens have left open. -/
theorem Tokens.keepsBrackets_ofSource (source : String) (index : Nat) :
    ((Lexer.ofSource source).after index).KeepsBrackets source.toList
      ((ofSource source).openers index) := by
  induction index with
  | zero => exact .inl ⟨Lexer.ofSource_tracks source, (Lexer.ofSource_reading source)⟩
  | succ index ih =>
    rw [Lexer.after_succ, openers, get_ofSource_eq_next]
    exact ih.next.1

/-- The brackets of a source are matched in front of the first token that cannot be read. -/
theorem Tokens.matched_ofSource (source : String) : (ofSource source).Matched := by
  intro index hreadable
  have hkeeps := keepsBrackets_ofSource source index
  rw [openers, get_ofSource_eq_next] at *
  exact hkeeps.next.2 hreadable

end PythonOutline
