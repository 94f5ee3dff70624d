import PythonOutline.Proofs.Text.Boundary

/-! # Pieces of a text

A slice that is not empty is a piece of the text: it stands between two of its boundaries, and more
text behind the text does not change it. -/

namespace PythonOutline.Text

variable {text piece : List Char} {start stop : Nat}

/-- Bytes can be taken exactly if they are those of a piece in front. -/
theorem takeBytes?_eq_some_iff {count : Nat} :
    takeBytes? count text = some piece ↔ ∃ after, text = piece ++ after ∧ byteLength piece = count := by
  constructor
  · intro htake
    fun_induction takeBytes? count text generalizing piece with
    | case1 text =>
      cases htake
      exact ⟨text, rfl, rfl⟩
    | case2 count => cases htake
    | case3 count c cs hle ih =>
      obtain ⟨taken, htaken, rfl⟩ := Option.map_eq_some_iff.mp htake
      obtain ⟨after, rfl, hlength⟩ := ih htaken
      exact ⟨after, rfl, by rw [byteLength_cons, hlength]; omega⟩
    | case4 count c cs hle => cases htake
  · rintro ⟨after, rfl, rfl⟩
    exact takeBytes?_append piece after

/-- A slice is a piece of the text between two boundaries. -/
theorem slice?_eq_some_iff :
    slice? text start stop = some piece ↔
      ∃ before after, text = before ++ (piece ++ after) ∧ byteLength before = start ∧
        stop = start + byteLength piece := by
  unfold slice?
  split
  · rename_i hle
    simp only [Option.bind_eq_some_iff, dropBytes?_eq_some_iff, takeBytes?_eq_some_iff]
    constructor
    · rintro ⟨_, ⟨before, rfl, hstart⟩, after, rfl, hlength⟩
      exact ⟨before, after, rfl, hstart, by omega⟩
    · rintro ⟨before, after, rfl, hstart, hstop⟩
      exact ⟨_, ⟨before, rfl, hstart⟩, after, rfl, by omega⟩
  · rename_i hlt
    simp only [reduceCtorEq, false_iff]
    rintro ⟨before, after, -, -, hstop⟩
    omega

/-- A slice between boundaries is the same whether it may fail or not. -/
theorem slice_of_slice? (hslice : slice? text start stop = some piece) :
    slice text start stop = piece := by
  rw [slice, hslice, Option.getD_some]

/-- A slice that is not empty has boundaries. -/
theorem exists_slice?_of_ne_nil (hne : slice text start stop ≠ []) :
    ∃ piece, slice? text start stop = some piece := by
  refine Option.ne_none_iff_exists'.mp fun hnone => hne ?_
  rw [slice, hnone, Option.getD_none]

/-- A piece of a text ends within it. -/
theorem stop_le_of_slice_ne_nil (hne : slice text start stop ≠ []) : stop ≤ byteLength text := by
  obtain ⟨piece, hslice⟩ := exists_slice?_of_ne_nil hne
  obtain ⟨before, after, rfl, rfl, rfl⟩ := slice?_eq_some_iff.mp hslice
  rw [byteLength_append, byteLength_append]
  omega

/-- More text behind a text does not change its pieces. -/
theorem slice_append (rest : List Char) (hne : slice text start stop ≠ []) :
    slice (text ++ rest) start stop = slice text start stop := by
  obtain ⟨piece, hslice⟩ := exists_slice?_of_ne_nil hne
  obtain ⟨before, after, rfl, hstart, hstop⟩ := slice?_eq_some_iff.mp hslice
  rw [slice_of_slice? hslice]
  refine slice_of_slice? (slice?_eq_some_iff.mpr ⟨before, after ++ rest, ?_, hstart, hstop⟩)
  rw [List.append_assoc, List.append_assoc]

/-- Between two boundaries of a text stands a piece of it. -/
theorem slice_ne_nil (hstart : IsBoundary text start) (hstop : IsBoundary text stop)
    (hlt : start < stop) : slice text start stop ≠ [] := by
  obtain ⟨before, after, rfl, rfl⟩ := hstart
  obtain ⟨before', after', htext, rfl⟩ := hstop
  obtain ⟨piece, rfl, rfl⟩ : ∃ piece, before' = before ++ piece ∧ after = piece ++ after' := by
    rcases List.append_eq_append_iff.mp htext with ⟨piece, hbefore, hafter⟩ | ⟨piece, hbefore, -⟩
    · exact ⟨piece, hbefore, hafter⟩
    · rw [hbefore, byteLength_append] at hlt
      omega
  have hslice : slice? (before ++ (piece ++ after')) (byteLength before)
      (byteLength (before ++ piece)) = some piece :=
    slice?_eq_some_iff.mpr ⟨before, after', rfl, rfl, byteLength_append _ _⟩
  rw [slice_of_slice? hslice]
  rintro rfl
  rw [List.append_nil] at hlt
  exact Nat.lt_irrefl _ hlt

/-- A piece of a piece of a text is a piece of the text. -/
theorem slice_slice {first last : Nat} (hne : slice (slice text start stop) first last ≠ []) :
    slice text (first + start) (last + start) = slice (slice text start stop) first last := by
  obtain ⟨piece, hinner⟩ := exists_slice?_of_ne_nil hne
  rw [slice_of_slice? hinner] at hne ⊢
  obtain ⟨before, after, hbetween, rfl, rfl⟩ := slice?_eq_some_iff.mp hinner
  have houter : slice text start stop ≠ [] := by
    rw [hbetween]
    simp [hne]
  obtain ⟨_, houter⟩ := exists_slice?_of_ne_nil houter
  obtain ⟨before', after', rfl, rfl, -⟩ := slice?_eq_some_iff.mp houter
  obtain rfl := (slice_of_slice? houter).symm.trans hbetween
  refine slice_of_slice? (slice?_eq_some_iff.mpr ⟨before' ++ before, after ++ after', ?_, ?_, ?_⟩)
  · simp only [List.append_assoc]
  · rw [byteLength_append, Nat.add_comm]
  · omega

end PythonOutline.Text
