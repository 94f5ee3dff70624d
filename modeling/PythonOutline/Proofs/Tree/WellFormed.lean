import PythonOutline.Proofs.Grammar.ArgumentOrder
import PythonOutline.Proofs.Tree.Written

/-! # Well-formed expressions

What holds of the expressions of a source beyond their being trees of their type: operators and
operands match in number, what a clause assigns to can be assigned to, arguments are in order, and
slices stand only where a subscript takes them. Whether a slice may stand somewhere depends on where
that is, so the way down an expression remembers the role of the place that it has reached. -/

namespace PythonOutline

namespace Expr

/-- A name, an attribute or a subscript. -/
inductive IsReference : Expr → Prop where
  | name (span : Span) (text : String) : IsReference ⟨span, .name text⟩
  | attribute (span : Span) (value : Expr) (name : String) : IsReference ⟨span, .attribute value name⟩
  | subscript (span : Span) (value index : Expr) : IsReference ⟨span, .subscript value index⟩

/-- An expression that is made of references by stars, lists and tuples only. -/
inductive IsAssignable : Expr → Prop where
  | reference {expr : Expr} (hreference : expr.IsReference) : IsAssignable expr
  | starred {span : Span} {value : Expr} (hvalue : IsAssignable value) :
      IsAssignable ⟨span, .starred value⟩
  | list {span : Span} {elements : List Expr} (helements : ∀ element ∈ elements, IsAssignable element) :
      IsAssignable ⟨span, .list elements⟩
  | tuple {span : Span} {elements : List Expr}
    (helements : ∀ element ∈ elements, IsAssignable element) :
      IsAssignable ⟨span, .tuple elements⟩

private theorem isReference_of_isSingleTarget :
    (expr : Expr) → expr.isSingleTarget → expr.IsReference
  | ⟨_, .attribute ..⟩, _ => .attribute ..
  | ⟨_, .name ..⟩, _ => .name ..
  | ⟨_, .subscript ..⟩, _ => .subscript ..

/-- A single target is a name, an attribute or a subscript. -/
theorem isSingleTarget_iff {expr : Expr} : expr.isSingleTarget ↔ expr.IsReference := by
  refine ⟨expr.isReference_of_isSingleTarget, fun hreference => ?_⟩
  cases hreference <;> rfl

private theorem areTargets_iff {elements : List Expr} :
    areTargets elements ↔ ∀ element ∈ elements, element.isTarget := by
  induction elements with
  | nil => simp [areTargets]
  | cons element elements ih => simp [areTargets, ih]

/-- What is assignable is accepted as a target. -/
theorem IsAssignable.isTarget {expr : Expr} (hassignable : expr.IsAssignable) : expr.isTarget := by
  induction hassignable with
  | reference hreference => cases hreference <;> rfl
  | starred _ ih => exact ih
  | list _ ih | tuple _ ih => exact areTargets_iff.mpr ih

mutual

private theorem isAssignable_of_isTarget : (expr : Expr) → expr.isTarget → expr.IsAssignable
  | ⟨_, .attribute ..⟩, _ => .reference (.attribute ..)
  | ⟨_, .name ..⟩, _ => .reference (.name ..)
  | ⟨_, .subscript ..⟩, _ => .reference (.subscript ..)
  | ⟨_, .starred value⟩, htarget => .starred (isAssignable_of_isTarget value htarget)
  | ⟨_, .list elements⟩, htarget => .list (isAssignable_of_areTargets elements htarget)
  | ⟨_, .tuple elements⟩, htarget => .tuple (isAssignable_of_areTargets elements htarget)

private theorem isAssignable_of_areTargets :
    (elements : List Expr) → areTargets elements → ∀ element ∈ elements, element.IsAssignable
  | [], _ => List.forall_mem_nil _
  | element :: elements, htargets =>
    have hboth := Bool.and_eq_true_iff.mp htargets
    List.forall_mem_cons.mpr
      ⟨isAssignable_of_isTarget element hboth.1, isAssignable_of_areTargets elements hboth.2⟩

end

/-- What is accepted as a target is what is assignable. -/
theorem isTarget_iff {expr : Expr} : expr.isTarget ↔ expr.IsAssignable :=
  ⟨expr.isAssignable_of_isTarget, IsAssignable.isTarget⟩

/-- Where an expression stands, as far as slices are concerned. -/
inductive Role where
  /-- The index of a subscript. -/
  | index
  /-- An element of a tuple that is the index of a subscript. -/
  | element
  /-- Any other place. -/
  | plain
  deriving DecidableEq

end Expr

namespace ExprForm

open PythonOutline.Expr

/-- The parts of an expression that has a role, with the roles that they have in it. -/
def partsAt (role : Role) : ExprForm → List (Role × Expr)
  | .subscript value index => [(.plain, value), (.index, index)]
  | .tuple elements => elements.map (Prod.mk (if role = .index then .element else .plain))
  | form => form.parts.map (Prod.mk .plain)

/-- Whether an expression is a slice. -/
def isSlice : ExprForm → Bool
  | .slice .. => true
  | _ => false

/-- Whether an expression is no slice and all its parts are plain in a plain place. -/
def isPlain : ExprForm → Bool
  | .slice .. | .subscript .. => false
  | _ => true

private theorem partsAt_plain {form : ExprForm} (hplain : form.isPlain) :
    form.partsAt .plain = form.parts.map (Prod.mk .plain) := by
  cases form with
  | slice | subscript => cases hplain
  | tuple elements => exact congrArg (List.map _) (List.append_nil elements).symm
  | _ => rfl

private theorem isSlice_of_isPlain {form : ExprForm} (hplain : form.isPlain) :
    form.isSlice = false := by
  cases form <;> first | rfl | cases hplain

/-- Each part of an expression has a role in it. -/
theorem exists_mem_partsAt {form : ExprForm} {role : Role} {part : Expr} (hpart : part ∈ form.parts) :
    ∃ partRole, (partRole, part) ∈ form.partsAt role := by
  cases form with
  | subscript value index =>
    rcases List.mem_cons.mp hpart with rfl | hindex
    · exact ⟨.plain, List.mem_cons_self⟩
    · obtain rfl := List.mem_singleton.mp hindex
      exact ⟨.index, List.mem_cons_of_mem _ List.mem_cons_self⟩
  | tuple elements => exact ⟨_, List.mem_map_of_mem (List.append_nil elements ▸ hpart)⟩
  | _ => exact ⟨.plain, List.mem_map_of_mem hpart⟩

/-- What the parts of an expression are to each other. -/
def WellFormed : ExprForm → Prop
  | .boolean _ values => 2 ≤ values.length
  | .call _ arguments => Argument.Placed arguments
  | .compare _ operators comparators => operators ≠ [] ∧ comparators.length = operators.length
  | .comprehension kind _ value clauses =>
    clauses ≠ [] ∧ (value.isSome ↔ kind = .dict) ∧ ∀ clause ∈ clauses, clause.target.IsAssignable
  | _ => True

end ExprForm

namespace Expr

/-- A way down from an expression that has a role to one inside it, with the role it has there. -/
inductive Occurs : Role → Expr → Role → Expr → Prop where
  | here (role : Role) (expr : Expr) : Occurs role expr role expr
  | inside {role partRole belowRole : Role} {expr part below : Expr}
      (hpart : (partRole, part) ∈ expr.form.partsAt role)
      (hrest : Occurs partRole part belowRole below) : Occurs role expr belowRole below

/-- An expression that has a role and all expressions in it are well-formed, and none of them is a
slice in a plain place. -/
def Proper (role : Role) (expr : Expr) : Prop :=
  ∀ ⦃belowRole below⦄, Occurs role expr belowRole below →
    below.form.WellFormed ∧ (below.form.isSlice → belowRole ≠ .plain)

variable {role : Role} {expr : Expr} {span : Span} {form : ExprForm}

/-- An expression is proper if its form is and each of its parts is in its role. -/
theorem proper_of_parts (hform : form.WellFormed) (hslice : form.isSlice → role ≠ .plain)
    (hparts : ∀ part ∈ form.partsAt role, part.2.Proper part.1) : Proper role ⟨span, form⟩ := by
  intro belowRole below hoccurs
  cases hoccurs with
  | here => exact ⟨hform, hslice⟩
  | inside hpart hrest => exact hparts _ hpart hrest

/-- Only the elements of a tuple owe their role to that of the tuple. -/
theorem mem_partsAt {part : Role × Expr} (hpart : part ∈ form.partsAt role) :
    part ∈ form.partsAt .plain ∨ (.plain, part.2) ∈ form.partsAt .plain := by
  cases form with
  | tuple elements =>
    obtain ⟨element, helement, rfl⟩ := List.mem_map.mp hpart
    exact .inr (List.mem_map_of_mem helement)
  | _ => exact .inl hpart

/-- An expression that may stand anywhere may have any role. -/
theorem Proper.withRole (hproper : expr.Proper .plain) : expr.Proper role := by
  intro belowRole below hoccurs
  -- Only the elements of a tuple owe their role to that of the tuple, and in a plain one they are
  -- plain.
  induction hoccurs with
  | here role expr =>
    obtain ⟨hform, hslice⟩ := hproper (.here _ _)
    exact ⟨hform, fun hisSlice => absurd rfl (hslice hisSlice)⟩
  | inside hpart hrest ih =>
    rcases mem_partsAt hpart with hpart | hpart
    · exact hproper (.inside hpart hrest)
    · exact ih fun _ _ hoccurs => hproper (.inside hpart hoccurs)

/-- An expression whose parts are all plain is proper if they are. -/
theorem proper_of_plain (hform : form.WellFormed) (hplain : form.isPlain)
    (hparts : AllHave (Proper .plain) form.parts) : Proper .plain ⟨span, form⟩ := by
  refine proper_of_parts hform (by simp [ExprForm.isSlice_of_isPlain hplain]) ?_
  rw [ExprForm.partsAt_plain hplain]
  exact List.forall_mem_map.mpr hparts

/-- Any way down an expression is one that remembers roles. -/
theorem Descends.occurs {below : Expr} {count : Nat} (hdescends : expr.Descends count below) :
    ∃ belowRole, Occurs role expr belowRole below := by
  induction hdescends generalizing role with
  | here => exact ⟨role, .here _ _⟩
  | beside hpart _ ih =>
    obtain ⟨partRole, hmem⟩ := ExprForm.exists_mem_partsAt (List.mem_append_left _ hpart)
    exact ih.imp fun _ hoccurs => .inside hmem hoccurs
  | nested hpart _ ih =>
    obtain ⟨partRole, hmem⟩ := ExprForm.exists_mem_partsAt (List.mem_append_right _ hpart)
    exact ih.imp fun _ hoccurs => .inside hmem hoccurs

/-- All expressions below a proper one are well formed. -/
theorem Proper.wellFormed {below : Expr} {count : Nat} (hproper : expr.Proper role)
    (hdescends : expr.Descends count below) : below.form.WellFormed := by
  obtain ⟨belowRole, hoccurs⟩ := hdescends.occurs
  exact (hproper hoccurs).1

end Expr

end PythonOutline
