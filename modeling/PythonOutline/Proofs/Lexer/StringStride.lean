import PythonOutline.Lexer.Basic
import PythonOutline.Proofs.Text.Boundary

/-! # Strides through string literals

The lexer passes a literal that is not formatted in strides: it searches the bytes for the next one
that may mean something. The bytes searched for are those of ASCII characters, and no other
character has one of them in its encoding, so that a stride ends in front of a character and passes
the same text as the steps do one by one. Hence `scanLiteral_eq`: strides and steps end in the same
way at the same place. -/

namespace PythonOutline

/-! ## Searching bytes -/

namespace Text

variable {inClass : UInt8 → Bool}

/-- A class of bytes that are ASCII characters. -/
def IsAsciiClass (inClass : UInt8 → Bool) : Prop :=
  ∀ byte, inClass byte → byte.toNat < 0x80

/-- A character is found by its first byte, and only if it is an ASCII character. -/
theorem findIdx?_utf8EncodeChar (hclass : IsAsciiClass inClass) (c : Char) :
    (String.utf8EncodeChar c).findIdx? inClass =
      if isAscii c ∧ inClass c.toUInt8 then some 0 else none := by
  have hhigh : ∀ n : Nat, 0x80 ≤ n → n < 0x100 → inClass (UInt8.ofNat n) = false := by
    intro n hle hlt
    refine Bool.eq_false_iff.mpr fun hin => ?_
    have hbyte := hclass _ hin
    rw [UInt8.toNat_ofNat', Nat.mod_eq_of_lt hlt] at hbyte
    omega
  by_cases hascii : c.val.toNat ≤ 127
  · have hisAscii : isAscii c = true := decide_eq_true (Nat.lt_succ_of_le hascii)
    have hencode : String.utf8EncodeChar c = [c.toUInt8] :=
      String.utf8EncodeChar_eq_singleton (Char.utf8Size_eq_one_iff.mpr hascii)
    rw [hencode]
    by_cases hin : inClass c.toUInt8 <;> simp [hisAscii, hin]
  · have hisAscii : isAscii c = false := decide_eq_false fun hlt => hascii (Nat.le_of_lt_succ hlt)
    have hnone : ∀ byte ∈ String.utf8EncodeChar c, inClass byte = false := by
      unfold String.utf8EncodeChar
      simp only [if_neg hascii]
      have hall : ∀ {n : Nat} {bytes : List UInt8}, 0x80 ≤ n ∧ n < 0x100 →
          (∀ byte ∈ bytes, inClass byte = false) →
          ∀ byte ∈ UInt8.ofNat n :: bytes, inClass byte = false :=
        fun hn hbytes => List.forall_mem_cons.mpr ⟨hhigh _ hn.1 hn.2, hbytes⟩
      split
      · exact hall (by omega) (hall (by omega) nofun)
      · split
        · exact hall (by omega) (hall (by omega) (hall (by omega) nofun))
        · exact hall (by omega) (hall (by omega) (hall (by omega) (hall (by omega) nofun)))
    rw [List.findIdx?_eq_none_iff.mpr hnone]
    simp [hisAscii]

/-- ASCII bytes are searched for by character. -/
theorem bytesBefore_eq_byteLength (hclass : IsAsciiClass inClass) (text : List Char) :
    bytesBefore inClass text =
      byteLength (text.takeWhile fun c => !(isAscii c && inClass c.toUInt8)) := by
  induction text with
  | nil => rfl
  | cons c cs ih =>
    rw [bytesBefore, findIdx?_utf8EncodeChar hclass]
    by_cases hc : isAscii c ∧ inClass c.toUInt8
    · simp [hc]
    · rw [if_neg hc, List.takeWhile_cons_of_pos (by simpa [← Bool.not_and] using hc),
        byteLength_cons, ih]

end Text

/-! ## One stride -/

variable {mode : StringMode} {outer modes : List StringMode} {c quote : Char}
  {cs following : List Char} {further : Nat}

namespace StringMode

/-- A character that means nothing between quotes. -/
def IsRun (quote c : Char) : Prop :=
  c ≠ '\\' ∧ c ≠ '\n' ∧ c ≠ quote

instance (quote c : Char) : Decidable (IsRun quote c) :=
  inferInstanceAs (Decidable (_ ∧ _))

private theorem toUInt8_inj {c d : Char} (hc : Text.isAscii c) (hd : Text.isAscii d) :
    c.toUInt8 = d.toUInt8 ↔ c = d := by
  have hval : ∀ {c : Char}, Text.isAscii c → c.toUInt8.toNat = c.toNat := by
    intro c hc
    have hlt : c.toNat < 0x80 := of_decide_eq_true hc
    exact Nat.mod_eq_of_lt (Nat.lt_trans hlt (by decide))
  refine ⟨fun hbytes => ?_, congrArg _⟩
  have hbytes := congrArg UInt8.toNat hbytes
  rw [hval hc, hval hd] at hbytes
  exact Char.toNat_inj.mp hbytes

private theorem isAsciiClass_endsRun (hquote : Text.isAscii quote) :
    Text.IsAsciiClass (endsRun quote) := by
  intro byte hbyte
  have hlt : quote.toNat < 0x80 := of_decide_eq_true hquote
  simp only [endsRun, Bool.or_eq_true, decide_eq_true_eq] at hbyte
  rcases hbyte with (rfl | rfl) | rfl
  · decide
  · decide
  · exact Nat.lt_of_le_of_lt (Nat.mod_le _ _) hlt

/-- The search for bytes passes the characters of a run. -/
theorem endsRun_eq (hquote : Text.isAscii quote) :
    (!(Text.isAscii c && endsRun quote c.toUInt8)) = decide (IsRun quote c) := by
  have hbackslash : Text.isAscii '\\' := rfl
  have hfeed : Text.isAscii '\n' := rfl
  rw [Bool.eq_iff_iff, decide_eq_true_iff]
  by_cases hc : Text.isAscii c = true
  · simp [hc, endsRun, IsRun, toUInt8_inj, hbackslash, hfeed, hquote, and_assoc]
  · have hne : ∀ {d : Char}, Text.isAscii d → c ≠ d := by
      rintro d hd rfl
      exact hc hd
    simp [hc, IsRun, hne, hbackslash, hfeed, hquote]

private theorem runQuote?_eq_some (hrun : mode.runQuote? c = some quote) :
    ∃ triple, mode = .text quote triple false ∧ Text.isAscii quote ∧ IsRun quote c := by
  cases mode with
  | text quote' triple formatted =>
    cases formatted with
    | true => cases hrun
    | false =>
      simp only [runQuote?, Option.ite_none_right_eq_some, Option.some.injEq] at hrun
      obtain ⟨hchar, rfl⟩ := hrun
      exact ⟨triple, rfl, hchar⟩
  | field => cases hrun
  | formatSpec => cases hrun

/-- A step passes a character of a run and changes nothing. -/
theorem step_isRun {triple : Bool} (hc : IsRun quote c) :
    (text quote triple false).step outer c following =
      some (0, text quote triple false :: outer) := by
  obtain ⟨hbackslash, hfeed, hquote⟩ := hc
  simp [step, hbackslash, hfeed, hquote]

/-- The quotes that belong to an opening one are there. -/
theorem openText_further (quote : Char) (formatted : Bool) (following : List Char) :
    (openText quote formatted following).2 ≤ following.length := by
  unfold openText
  split
  · rename_i hstarts
    exact (List.isPrefixOf_iff_prefix.mp hstarts).length_le
  · exact Nat.zero_le _

/-- What a step takes along is there, unless the text ends behind a backslash. -/
theorem step_further (hstep : mode.step outer c following = some (further, modes)) :
    further ≤ following.length ∨ following = [] ∧ modes ≠ [] := by
  have hescape : ∀ mode outer, some (1, mode :: outer) = some (further, modes) →
      further ≤ following.length ∨ following = [] ∧ modes ≠ [] := by
    rintro mode outer ⟨⟩
    cases following with
    | nil => exact .inr ⟨rfl, List.cons_ne_nil _ _⟩
    | cons d following => exact .inl (Nat.succ_le_succ (Nat.zero_le _))
  have hnone : ∀ modes', some (0, modes') = some (further, modes) →
      further ≤ following.length ∨ following = [] ∧ modes ≠ [] := by
    rintro modes' ⟨⟩
    exact .inl (Nat.zero_le _)
  have hquotes : ∀ quote : Char, [quote, quote].isPrefixOf following → 2 ≤ following.length :=
    fun quote hstarts => (List.isPrefixOf_iff_prefix.mp hstarts).length_le
  cases mode with
  | text quote triple formatted =>
    simp only [step] at hstep
    split at hstep
    · exact hescape _ _ hstep
    split at hstep
    · cases hstep
    split at hstep
    · split at hstep
      · rename_i hhead
        cases hstep
        obtain ⟨cs, rfl⟩ := List.head?_eq_some_iff.mp hhead
        exact .inl (Nat.succ_le_succ (Nat.zero_le _))
      · split at hstep
        · exact hnone _ hstep
        · exact hnone _ hstep
    split at hstep
    · split at hstep
      · exact hnone _ hstep
      · split at hstep
        · rename_i hstarts
          cases hstep
          exact .inl (hquotes quote hstarts)
        · exact hnone _ hstep
    · exact hnone _ hstep
  | field brackets word =>
    simp only [step] at hstep
    split at hstep
    · exact hnone _ hstep
    split at hstep
    · cases hstep
      exact .inl (openText_further _ _ _)
    repeat' split at hstep
    all_goals first
      | exact hnone _ hstep
      | exact hescape _ _ hstep
  | formatSpec =>
    simp only [step] at hstep
    repeat' split at hstep
    all_goals first
      | exact hnone _ hstep
      | exact hescape _ _ hstep

/-- A stride through a run passes its characters and changes nothing. -/
theorem stride_run (hrun : mode.runQuote? c = some quote) (outer : List StringMode)
    (cs : List Char) :
    ∃ run rest, cs = run ++ rest ∧ (∀ c ∈ run, IsRun quote c) ∧
      mode.stride outer c cs = some (Text.byteLength (c :: run), mode :: outer) := by
  obtain ⟨triple, -, hquote, hc⟩ := runQuote?_eq_some hrun
  refine ⟨cs.takeWhile (IsRun quote ·), cs.dropWhile (IsRun quote ·),
    List.takeWhile_append_dropWhile.symm,
    fun c hc => of_decide_eq_true (List.all_eq_true.mp List.all_takeWhile c hc), ?_⟩
  rw [stride, hrun]
  simp [Text.bytesBefore_eq_byteLength (isAsciiClass_endsRun hquote), endsRun_eq hquote, hc]

/-- Elsewhere a stride passes what one step does. -/
theorem stride_step (hrun : mode.runQuote? c = none)
    (hstep : mode.step outer c cs = some (further, modes)) :
    mode.stride outer c cs = some (Text.byteLength (c :: cs.take further), modes) := by
  rw [stride, hrun]
  simp [hstep]

/-- A stride ends behind a character: it passes the one in front of it, and possibly some of those
that follow. -/
theorem stride_passes {due : Nat} (hstride : mode.stride outer c cs = some (due, modes)) :
    ∃ taken rest, cs = taken ++ rest ∧ due = Text.byteLength (c :: taken) := by
  cases hrun : mode.runQuote? c with
  | some quote =>
    obtain ⟨run, rest, hcs, -, hrunning⟩ := stride_run hrun outer cs
    cases hrunning.symm.trans hstride
    exact ⟨run, rest, hcs, rfl⟩
  | none =>
    cases hstep : mode.step outer c cs with
    | none => simp [stride, hrun, hstep] at hstride
    | some result =>
      cases (stride_step hrun hstep).symm.trans hstride
      exact ⟨_, _, (List.take_append_drop result.1 cs).symm, rfl⟩

end StringMode

/-! ## All strides -/

/-- Bytes that are due are passed up to the end of the text that they belong to. -/
theorem scanLiteralFrom_bytes (modes : List StringMode) (taken rest : List Char) (offset : Nat) :
    scanLiteralFrom (Text.byteLength taken) modes (taken ++ rest) offset =
      scanLiteralFrom 0 modes rest (offset + Text.byteLength taken) := by
  induction taken generalizing offset with
  | nil => rfl
  | cons c taken ih =>
    have hc : 0 < c.utf8Size := c.utf8Size_pos
    obtain ⟨due, hdue⟩ : ∃ due, c.utf8Size + Text.byteLength taken = due + 1 :=
      Nat.exists_eq_add_one.mpr (by omega)
    have hle : c.utf8Size ≤ due + 1 := by omega
    have hrest : due + 1 - c.utf8Size = Text.byteLength taken := by omega
    rw [Text.byteLength_cons, hdue, List.cons_append, scanLiteralFrom, if_pos hle, hrest, ih,
      Nat.add_assoc, hdue]

/-- Characters that are to be skipped are passed without a look at them. -/
theorem scanStringFrom_append (modes : List StringMode) (taken rest : List Char) (offset : Nat) :
    scanStringFrom taken.length modes (taken ++ rest) offset =
      scanStringFrom 0 modes rest (offset + Text.byteLength taken) := by
  induction taken generalizing offset with
  | nil => rfl
  | cons c taken ih =>
    rw [List.length_cons, List.cons_append, scanStringFrom, ih, Text.byteLength_cons, Nat.add_assoc]

/-- The steps pass a run in the same mode. -/
theorem scanStringFrom_run {triple : Bool} {run : List Char}
    (hrun : ∀ c ∈ run, StringMode.IsRun quote c) (rest : List Char) (offset : Nat) :
    scanStringFrom 0 (.text quote triple false :: outer) (run ++ rest) offset =
      scanStringFrom 0 (.text quote triple false :: outer) rest
        (offset + Text.byteLength run) := by
  induction run generalizing offset with
  | nil => rfl
  | cons c run ih =>
    obtain ⟨hc, hrun⟩ := List.forall_mem_cons.mp hrun
    rw [List.cons_append, scanStringFrom, StringMode.step_isRun hc]
    dsimp only
    rw [ih hrun, Text.byteLength_cons, Nat.add_assoc]

/-- What is left behind a stride is passed in the modes that it leads to. -/
theorem scanLiteralFrom_stride {taken rest : List Char} (hcs : cs = taken ++ rest)
    (hstride : mode.stride outer c cs = some (Text.byteLength (c :: taken), modes)) (offset : Nat) :
    scanLiteralFrom 0 (mode :: outer) (c :: cs) offset =
      scanLiteralFrom 0 modes rest (offset + Text.byteLength (c :: taken)) := by
  subst hcs
  rw [scanLiteralFrom, hstride, Text.byteLength_cons]
  dsimp only
  rw [if_pos (Nat.le_add_right _ _), Nat.add_sub_cancel_left, scanLiteralFrom_bytes, Nat.add_assoc]

/-- What a step takes along is passed, or the text ends there. -/
theorem scanStringFrom_further (hstep : mode.step outer c cs = some (further, modes))
    (offset : Nat) :
    scanStringFrom further modes cs offset =
      scanStringFrom 0 modes (cs.drop further) (offset + Text.byteLength (cs.take further)) := by
  rcases StringMode.step_further hstep with hle | ⟨rfl, hne⟩
  · have happend := scanStringFrom_append modes (cs.take further) (cs.drop further) offset
    rwa [List.take_append_drop, List.length_take_of_le hle] at happend
  · obtain ⟨mode, outer, rfl⟩ := List.exists_cons_of_ne_nil hne
    cases further <;> simp [scanStringFrom]

/-- Strides pass the text of a literal as the steps do. -/
theorem scanLiteralFrom_eq (modes : List StringMode) (cs : List Char) (offset : Nat) :
    scanLiteralFrom 0 modes cs offset = some (scanStringFrom 0 modes cs offset) := by
  -- A stride passes several characters, so the induction is on the length of the text.
  induction hlength : cs.length using Nat.strongRecOn generalizing modes cs offset with
  | _ length ih =>
    subst hlength
    match modes, cs with
    | [], cs => rw [scanLiteralFrom, scanStringFrom]
    | mode :: outer, [] => simp [scanLiteralFrom, scanStringFrom]
    | mode :: outer, c :: cs =>
      cases hrun : mode.runQuote? c with
      | some quote =>
        obtain ⟨run, rest, rfl, hrunning, hstride⟩ := StringMode.stride_run hrun outer cs
        obtain ⟨triple, rfl, -, hc⟩ := StringMode.runQuote?_eq_some hrun
        have hshorter : rest.length < (c :: (run ++ rest)).length := by
          rw [List.length_cons, List.length_append]
          omega
        rw [scanLiteralFrom_stride rfl hstride, ih rest.length hshorter _ rest _ rfl, scanStringFrom,
          StringMode.step_isRun hc]
        dsimp only
        rw [scanStringFrom_run hrunning, Text.byteLength_cons, Nat.add_assoc]
      | none =>
        cases hstep : mode.step outer c cs with
        | none =>
          have hstride : mode.stride outer c cs = none := by
            rw [StringMode.stride, hrun]
            simp [hstep]
          rw [scanLiteralFrom, hstride, scanStringFrom, hstep]
        | some result =>
          obtain ⟨further, modes⟩ := result
          have hshorter : (cs.drop further).length < (c :: cs).length := by
            rw [List.length_cons, List.length_drop]
            omega
          rw [scanLiteralFrom_stride (List.take_append_drop further cs).symm
            (StringMode.stride_step hrun hstep), ih (cs.drop further).length hshorter _ _ _ rfl,
            scanStringFrom, hstep]
          dsimp only
          rw [scanStringFrom_further hstep, Text.byteLength_cons, Nat.add_assoc]

/-- **Strides and steps agree on every string literal.** -/
theorem scanLiteral_eq (formatted : Bool) (cursor : Cursor) :
    scanLiteral formatted cursor = some (scanString formatted cursor) := by
  obtain ⟨rest, offset⟩ := cursor
  cases rest with
  | nil => rfl
  | cons quote cs =>
    have hle := StringMode.openText_further quote formatted cs
    simp only [scanLiteral, scanString]
    generalize StringMode.openText quote formatted cs = opened at hle
    obtain ⟨mode, further⟩ := opened
    have hbytes := scanLiteralFrom_bytes [mode] (cs.take further) (cs.drop further)
      (offset + quote.utf8Size)
    have hsteps := scanStringFrom_append [mode] (cs.take further) (cs.drop further)
      (offset + quote.utf8Size)
    rw [List.take_append_drop] at hbytes hsteps
    rw [List.length_take_of_le hle] at hsteps
    rw [hbytes, hsteps, scanLiteralFrom_eq]

/-- The lexer reads a string literal as it is scanned step by step. -/
theorem Lexer.string_eq (start : Nat) (formatted : Bool) (quote : Cursor) :
    string start formatted quote =
      match scanString formatted quote with
      | .closed stop => .ok (.literalString, stop)
      | .unterminated stop =>
        .error ⟨Span.error ⟨start, stop.offset⟩ .unterminatedString, stop⟩ := by
  cases hscan : scanString formatted quote <;>
    simp only [string, scanLiteral_eq, Option.getD_some, hscan]

end PythonOutline
