import Mathlib.Data.List.Infix
import Mathlib.Data.Nat.Find
import PythonOutline.Proofs.Text.Boundary

/-! # Cutting a text

A text is cut at the last boundary at or before an offset. So a cut at a boundary stays where it is,
a cut behind the end takes the whole text, and every cut is at a boundary. -/

namespace PythonOutline

namespace Text

variable {text before after : List Char}

private theorem cutFrom_append (passed before after : List Char) :
    cutFrom passed (before ++ after) (byteLength before) = (passed.reverse ++ before, after) := by
  induction before generalizing passed with
  | nil =>
    cases after with
    | nil => simp [cutFrom]
    | cons c cs => simp [cutFrom, Nat.not_le_of_lt c.utf8Size_pos]
  | cons c before ih =>
    rw [List.cons_append, byteLength_cons, cutFrom, if_pos (Nat.le_add_right _ _),
      Nat.add_sub_cancel_left, ih]
    simp

/-- A text is cut behind a piece that is as long as the offset. -/
theorem cut_append (before after : List Char) :
    cut (before ++ after) (byteLength before) = (before, after) :=
  cutFrom_append [] before after

/-- A cut at a boundary stays there. -/
theorem IsBoundary.byteLength_cut {offset : Nat} (hboundary : IsBoundary text offset) :
    byteLength (cut text offset).1 = offset := by
  obtain ⟨before, after, rfl, rfl⟩ := hboundary
  rw [cut_append]

/-- A text that is not longer than the offset is not cut. -/
theorem cut_of_le {count : Nat} (hle : byteLength text ≤ count) : cut text count = (text, []) := by
  have hfrom : ∀ (passed text : List Char) (count : Nat), byteLength text ≤ count →
      cutFrom passed text count = (passed.reverse ++ text, []) := by
    intro passed text
    induction text generalizing passed with
    | nil => intros; simp [cutFrom]
    | cons c cs ih =>
      intro count hle
      rw [byteLength_cons] at hle
      rw [cutFrom, if_pos (by omega), ih _ _ (by omega)]
      simp
  exact hfrom [] text count hle

/-- A cut at a boundary stays there within any first part of the text, or takes all of it. -/
theorem IsBoundary.byteLength_cut_prefix {first : List Char} {offset : Nat}
    (hboundary : IsBoundary text offset) (hfirst : first <+: text) :
    byteLength (cut first offset).1 = min offset (byteLength first) := by
  obtain ⟨before, after, rfl, rfl⟩ := hboundary
  rcases List.prefix_or_prefix_of_prefix hfirst (List.prefix_append before after) with
    ⟨others, rfl⟩ | ⟨others, rfl⟩
  · rw [cut_of_le (by simp), byteLength_append, Nat.min_eq_right (Nat.le_add_right _ _)]
  · rw [cut_append, byteLength_append, Nat.min_eq_left (Nat.le_add_right _ _)]

/-! ## Where a cut is -/

/-- The cut is made in front of the first character that goes beyond the count. -/
private theorem cutFrom_spec (passed text : List Char) (count : Nat) :
    ∃ before after, text = before ++ after ∧
      cutFrom passed text count = (passed.reverse ++ before, after) ∧ byteLength before ≤ count ∧
      ∀ c others, after = c :: others → count < byteLength before + c.utf8Size := by
  induction text generalizing passed count with
  | nil => exact ⟨[], [], rfl, by simp [cutFrom], Nat.zero_le _, by simp⟩
  | cons c cs ih =>
    by_cases hle : c.utf8Size ≤ count
    · obtain ⟨before, after, rfl, hcut, hbefore, hnext⟩ := ih (c :: passed) (count - c.utf8Size)
      refine ⟨c :: before, after, rfl, by simp [cutFrom, hle, hcut], ?_, fun d others hafter => ?_⟩
      · rw [byteLength_cons]
        omega
      · have hlt := hnext d others hafter
        rw [byteLength_cons]
        omega
    · refine ⟨[], c :: cs, rfl, by simp [cutFrom, hle], Nat.zero_le _, fun d others hafter => ?_⟩
      cases hafter
      simpa using hle

/-- A cut leaves as many characters in front as the bytes up to the offset hold. -/
theorem exists_cut (text : List Char) (offset : Nat) :
    ∃ before after, text = before ++ after ∧ cut text offset = (before, after) ∧
      byteLength before ≤ offset ∧
      ∀ c others, after = c :: others → offset < byteLength before + c.utf8Size :=
  cutFrom_spec [] text offset

/-- The two sides of a cut are the text. -/
theorem cut_fst_append_snd (text : List Char) (offset : Nat) :
    (cut text offset).1 ++ (cut text offset).2 = text := by
  obtain ⟨before, after, rfl, hcut, -⟩ := exists_cut text offset
  rw [hcut]

/-- The last boundary at or before an offset. -/
def lastBoundary (text : List Char) (offset : Nat) : Nat :=
  Nat.findGreatest (IsBoundary text) offset

/-- A text is cut at the last boundary. -/
theorem byteLength_cut (text : List Char) (offset : Nat) :
    byteLength (cut text offset).1 = lastBoundary text offset := by
  obtain ⟨before, after, rfl, hcut, hle, hnext⟩ := exists_cut text offset
  rw [hcut]
  refine (Nat.findGreatest_eq_iff.mpr
    ⟨hle, fun _ => ⟨before, after, rfl, rfl⟩, fun index hlt hindex hboundary => ?_⟩).symm
  obtain ⟨upTo, behind, hsplit, rfl⟩ := hboundary
  rcases List.append_eq_append_iff.mp hsplit with ⟨piece, rfl, rfl⟩ | ⟨piece, rfl, -⟩
  · cases piece with
    | nil => simp at hlt
    | cons c others =>
      have hbehind := hnext c (others ++ behind) rfl
      rw [byteLength_append, byteLength_cons] at hindex
      omega
  · rw [byteLength_append] at hlt
    omega

private theorem cut_lastBoundary (text : List Char) (offset : Nat) :
    cut text (lastBoundary text offset) = cut text offset := by
  obtain ⟨before, after, rfl, hcut, -⟩ := exists_cut text offset
  rw [← byteLength_cut, hcut, cut_append]

/-- A split after which the next character reaches behind the offset is where the text is cut. -/
theorem cut_eq {offset : Nat} (hle : byteLength before ≤ offset)
    (hnext : ∀ c others, after = c :: others → offset < byteLength before + c.utf8Size) :
    cut (before ++ after) offset = (before, after) := by
  have hlast : byteLength before = lastBoundary (before ++ after) offset := by
    obtain ⟨upTo, behind, hsplit, hcut, hupTo, hbehind⟩ := exists_cut (before ++ after) offset
    rw [← byteLength_cut, hcut]
    rcases List.append_eq_append_iff.mp hsplit with ⟨piece, rfl, rfl⟩ | ⟨piece, rfl, rfl⟩
    · cases piece with
      | nil => simp
      | cons c others =>
        have hlt := hnext c (others ++ behind) rfl
        simp only [byteLength_append, byteLength_cons] at hupTo
        omega
    · cases piece with
      | nil => simp
      | cons c others =>
        have hlt := hbehind c (others ++ after) rfl
        simp only [byteLength_append, byteLength_cons] at hle
        omega
  rw [← cut_lastBoundary, ← hlast, cut_append]

/-- A cut behind a piece in front is a cut of the rest. -/
theorem cut_append_add (before after : List Char) (count : Nat) :
    cut (before ++ after) (byteLength before + count) =
      (before ++ (cut after count).1, (cut after count).2) := by
  obtain ⟨first, others, rfl, hcut, hle, hnext⟩ := exists_cut after count
  rw [hcut, ← List.append_assoc]
  refine cut_eq ?_ fun c rest hrest => ?_
  · rw [byteLength_append]
    omega
  · have hlt := hnext c rest hrest
    rw [byteLength_append]
    omega

/-- The last boundary behind a piece in front is that of the rest. -/
theorem max_lastBoundary_append (before after : List Char) (offset : Nat) :
    max (byteLength before) (lastBoundary (before ++ after) offset) =
      byteLength before + lastBoundary after (offset - byteLength before) := by
  rcases Nat.le_total (byteLength before) offset with hle | hle
  · obtain ⟨count, rfl⟩ := Nat.exists_eq_add_of_le hle
    rw [← byteLength_cut, cut_append_add, Nat.add_sub_cancel_left, ← byteLength_cut,
      byteLength_append]
    omega
  · have hlast := Nat.findGreatest_le (P := IsBoundary (before ++ after)) offset
    rw [Nat.sub_eq_zero_of_le hle, lastBoundary, lastBoundary, Nat.findGreatest_zero]
    omega

/-- The cut of a first part of a text is where the text is cut, or at the end of the part. -/
theorem min_lastBoundary_append (before after : List Char) (offset : Nat) :
    min (byteLength before) (lastBoundary (before ++ after) offset) =
      lastBoundary before offset := by
  obtain ⟨first, others, rfl, hcut, hle, hnext⟩ := exists_cut before offset
  cases others with
  | nil =>
    have hlast : byteLength first ≤ lastBoundary (first ++ after) offset :=
      Nat.le_findGreatest hle ⟨first, after, rfl, rfl⟩
    rw [List.append_nil] at hcut ⊢
    rw [← byteLength_cut first, hcut]
    exact Nat.min_eq_left hlast
  | cons c others =>
    have hcut' : cut (first ++ ((c :: others) ++ after)) offset = (first, (c :: others) ++ after) :=
      cut_eq hle fun d rest hrest => by
        cases hrest
        exact hnext c others rfl
    rw [← byteLength_cut (first ++ c :: others), hcut, List.append_assoc, ← byteLength_cut, hcut',
      byteLength_append]
    exact Nat.min_eq_right (Nat.le_add_right _ _)

end Text

end PythonOutline
