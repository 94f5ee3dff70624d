import PythonOutline.Proofs.Grammar.Argument

/-! # The order of arguments

Which arguments may stand behind which: no positional argument behind a keyword or `**` argument, and no
`*` argument behind a `**` argument. The pass over a list of arguments keeps two flags instead of the
arguments it has met. What the flags tell is all that the rules ask of those arguments, so the pass
refuses a list at the first argument that a rule forbids, and only then.
-/

namespace PythonOutline

/-- The shapes of arguments that the rules about their order tell apart. -/
inductive ArgumentShape where
  | positional
  /-- `name=value` -/
  | keyword
  /-- `*value` -/
  | iterable
  /-- `**value` -/
  | mapping
  deriving DecidableEq

namespace ArgumentShape

variable {earlier : ArgumentShape}

/-- What is wrong with an argument of a shape that stands behind one of another. -/
def conflict? : (earlier later : ArgumentShape) → Option SyntaxCause
  | .keyword, .positional | .mapping, .positional => some .positionalAfterKeyword
  | .mapping, .iterable => some .unpackingAfterKeywordUnpacking
  | _, _ => none

@[simp]
theorem conflict?_keyword : earlier.conflict? .keyword = none := by
  cases earlier <;> rfl

@[simp]
theorem conflict?_mapping : earlier.conflict? .mapping = none := by
  cases earlier <;> rfl

private theorem conflict?_iterable : earlier.conflict? .iterable =
    if earlier = .mapping then some .unpackingAfterKeywordUnpacking else none := by
  cases earlier <;> rfl

private theorem conflict?_positional : earlier.conflict? .positional =
    if earlier = .keyword ∨ earlier = .mapping then some .positionalAfterKeyword else none := by
  cases earlier <;> rfl

end ArgumentShape

namespace Argument

/-- The shape of an argument. -/
def shape (argument : Argument) : ArgumentShape :=
  match argument.keyword, argument.unpack with
  | some _, _ => .keyword
  | none, .mapping => .mapping
  | none, .iterable => .iterable
  | none, .none => .positional

/-- No argument stands behind one that it may not follow. -/
def Placed (arguments : List Argument) : Prop :=
  arguments.Pairwise fun earlier later => earlier.shape.conflict? later.shape = none

/-- An argument may not follow one of those in front of it. -/
def Conflicts (front : List Argument) (argument : Argument) (cause : SyntaxCause) : Prop :=
  ∃ earlier ∈ front, earlier.shape.conflict? argument.shape = some cause

/-- The error is about the first argument that may not follow one of those in front of it. -/
def Refused (arguments : List Argument) (error : SyntaxError) : Prop :=
  ∃ front argument others cause, arguments = front ++ argument :: others ∧ Placed front ∧
    Conflicts front argument cause ∧ error = argument.span.error cause

variable {front others : List Argument} {argument : Argument} {error : SyntaxError}
  {seenKeyword seenMapping : Bool}

private theorem placed_append_singleton (hplaced : Placed front)
    (hfree : ∀ earlier ∈ front, earlier.shape.conflict? argument.shape = none) :
    Placed (front ++ [argument]) := by
  refine List.pairwise_append.mpr ⟨hplaced, List.pairwise_singleton _ _, fun earlier hearlier => ?_⟩
  exact List.forall_mem_singleton.mpr (hfree earlier hearlier)

private theorem Refused.not_placed (hrefused : Refused front error) : ¬Placed front := by
  obtain ⟨before, argument, after, cause, rfl, -, ⟨earlier, hearlier, hconflict⟩, -⟩ := hrefused
  intro hplaced
  have hfree := (List.pairwise_append.mp hplaced).2.2 earlier hearlier argument List.mem_cons_self
  rw [hconflict] at hfree
  cases hfree

/-- What the flags of the pass tell about the arguments that it has met. -/
structure Seen (front : List Argument) (seenKeyword seenMapping : Bool) : Prop where
  keyword : seenKeyword = true ↔
    ∃ earlier ∈ front, earlier.shape = .keyword ∨ earlier.shape = .mapping
  mapping : seenMapping = true ↔ ∃ earlier ∈ front, earlier.shape = .mapping

private theorem seen_nil : Seen [] false false :=
  ⟨by simp, by simp⟩

/-- The flags behind an argument are those in front of it, or raised by it. -/
theorem Seen.append_singleton (hseen : Seen front seenKeyword seenMapping) :
    Seen (front ++ [argument])
      (seenKeyword || argument.shape = .keyword || argument.shape = .mapping)
      (seenMapping || argument.shape = .mapping) := by
  refine ⟨?_, ?_⟩
  · simp [hseen.keyword, or_and_right, exists_or, or_assoc]
  · simp [hseen.mapping, or_and_right, exists_or]

/-- The pass goes on behind an argument that may follow all of those in front of it, and refuses any
other. -/
theorem misplaced?_cons (hseen : Seen front seenKeyword seenMapping) (argument : Argument)
    (others : List Argument) :
    ((∀ earlier ∈ front, earlier.shape.conflict? argument.shape = none) ∧
      misplaced? seenKeyword seenMapping (argument :: others) =
        misplaced? (seenKeyword || argument.shape = .keyword || argument.shape = .mapping)
          (seenMapping || argument.shape = .mapping) others) ∨
    ∃ cause, Conflicts front argument cause ∧
      misplaced? seenKeyword seenMapping (argument :: others) = some (argument.span.error cause) := by
  obtain ⟨span, keyword, unpack, value⟩ := argument
  cases keyword with
  | some name => exact .inl (by simp [shape, misplaced?])
  | none =>
    cases unpack with
    | mapping => exact .inl (by simp [shape, misplaced?])
    | iterable =>
      cases hmapping : seenMapping with
      | true =>
        obtain ⟨earlier, hearlier, hshape⟩ := hseen.mapping.mp hmapping
        exact .inr ⟨_, ⟨earlier, hearlier, by rw [hshape]; rfl⟩, by simp [misplaced?]⟩
      | false =>
        have hfree : ∀ earlier ∈ front, earlier.shape ≠ .mapping := fun earlier hearlier hshape =>
          Bool.false_ne_true (hmapping.symm.trans (hseen.mapping.mpr ⟨earlier, hearlier, hshape⟩))
        refine .inl ⟨fun earlier hearlier => ?_, by simp [shape, misplaced?]⟩
        exact ArgumentShape.conflict?_iterable.trans (if_neg (hfree earlier hearlier))
    | none =>
      cases hkeyword : seenKeyword with
      | true =>
        obtain ⟨earlier, hearlier, hshape⟩ := hseen.keyword.mp hkeyword
        have hconflict := ArgumentShape.conflict?_positional.trans (if_pos hshape)
        exact .inr ⟨_, ⟨earlier, hearlier, hconflict⟩, by simp [misplaced?]⟩
      | false =>
        have hfree : ∀ earlier ∈ front, ¬(earlier.shape = .keyword ∨ earlier.shape = .mapping) :=
          fun earlier hearlier hshape => Bool.false_ne_true
            (hkeyword.symm.trans (hseen.keyword.mpr ⟨earlier, hearlier, hshape⟩))
        refine .inl ⟨fun earlier hearlier => ?_, by simp [shape, misplaced?]⟩
        exact ArgumentShape.conflict?_positional.trans (if_neg (hfree earlier hearlier))

/-- The pass over the arguments behind some that are in place: it accepts them if all are in place,
and otherwise refuses the first that is not. -/
theorem misplaced?_append (hseen : Seen front seenKeyword seenMapping) (hplaced : Placed front)
    (others : List Argument) :
    (misplaced? seenKeyword seenMapping others = none ∧ Placed (front ++ others)) ∨
      ∃ error, misplaced? seenKeyword seenMapping others = some error ∧
        Refused (front ++ others) error := by
  -- Each argument that is in place moves to the front, with what the flags then tell.
  induction others generalizing front seenKeyword seenMapping with
  | nil => exact .inl ⟨rfl, by rwa [List.append_nil]⟩
  | cons argument others ih =>
    rcases misplaced?_cons hseen argument others with
      ⟨hfree, hnext⟩ | ⟨cause, hconflicts, herror⟩
    · have hothers := ih hseen.append_singleton (placed_append_singleton hplaced hfree)
      rwa [List.append_assoc, List.singleton_append, ← hnext] at hothers
    · exact .inr ⟨_, herror, front, argument, others, cause, rfl, hplaced, hconflicts, rfl⟩

private theorem misplaced?_eq_none {arguments : List Argument} :
    misplaced? false false arguments = none ↔ Placed arguments := by
  rcases misplaced?_append seen_nil List.Pairwise.nil arguments with
    ⟨hnone, hplaced⟩ | ⟨error, herror, hrefused⟩
  · exact iff_of_true hnone hplaced
  · exact iff_of_false (by simp [herror]) hrefused.not_placed

/-- What the pass refuses is the first argument that is out of place. -/
theorem refused_of_misplaced? {arguments : List Argument}
    (hmisplaced : misplaced? false false arguments = some error) : Refused arguments error := by
  rcases misplaced?_append seen_nil List.Pairwise.nil arguments with ⟨hnone, -⟩ | ⟨_, hfirst, hrefused⟩
  · rw [hmisplaced] at hnone
    cases hnone
  · rw [hmisplaced] at hfirst
    cases hfirst
    exact hrefused

private theorem misplaced?_of_not_placed {arguments : List Argument} (hplaced : ¬Placed arguments) :
    ∃ error, misplaced? false false arguments = some error ∧ Refused arguments error := by
  cases hpass : misplaced? false false arguments with
  | none => exact absurd (misplaced?_eq_none.mp hpass) hplaced
  | some error => exact ⟨error, rfl, refused_of_misplaced? hpass⟩

end Argument

namespace Level

open PythonOutline.Parser PythonOutline.Argument

variable {level : Level} {tokens : Tokens} {before after : Place} {arguments : List Argument}

/-- The pass over a list of arguments comes once all of the list has been read. -/
theorem arguments_of_reads
    (hreads : (listUntil .parenthesisClose level.argument).Reads tokens before arguments after) :
    level.arguments tokens before = match misplaced? false false arguments with
      | some error => .error error after
      | none => .ok arguments after := by
  simp only [Level.arguments, bind, ReaderT.bind, EStateM.bind]
  rw [hreads]
  dsimp only
  cases misplaced? false false arguments <;> rfl

/-- Arguments in order are accepted as they were read. -/
theorem arguments_of_placed
    (hreads : (listUntil .parenthesisClose level.argument).Reads tokens before arguments after)
    (hplaced : Placed arguments) : level.arguments.Reads tokens before arguments after := by
  rw [Reads, arguments_of_reads hreads, misplaced?_eq_none.mpr hplaced]

/-- Arguments out of order are refused, and the error is about the first one that is misplaced. -/
theorem arguments_of_not_placed
    (hreads : (listUntil .parenthesisClose level.argument).Reads tokens before arguments after)
    (hplaced : ¬Placed arguments) :
    ∃ error, level.arguments tokens before = .error error after ∧ Refused arguments error := by
  obtain ⟨error, herror, hrefused⟩ := misplaced?_of_not_placed hplaced
  exact ⟨error, by rw [arguments_of_reads hreads, herror], hrefused⟩

/-- The arguments of a call that is accepted are in order. -/
theorem arguments_placed (hreads : level.arguments.Reads tokens before arguments after) :
    Placed arguments :=
  misplaced?_eq_none.mp (reads_arguments hreads).2

end Level

end PythonOutline
