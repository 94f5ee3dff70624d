import PythonOutline.Proofs.Parser.Loop

/-! # What holds of everything a parser reads

A parser ensures a property if all values that it reads have it. The loops that read a number of
items ensure it of each of them. -/

namespace PythonOutline.Parser

variable {α β : Type} {tokens : Tokens} {parser : Parser α} {property : α → Prop}
  {before after : Place}

/-- All values that a parser reads have a property. -/
def Ensures (parser : Parser α) (tokens : Tokens) (property : α → Prop) : Prop :=
  ∀ ⦃before value after⦄, parser.Reads tokens before value after → property value

/-- A parser that fails ensures anything. -/
theorem ensures_failNext {cause : SyntaxCause} :
    (failNext cause : Parser α).Ensures tokens property :=
  fun _ _ _ hreads => (reads_failNext.mp hreads).elim

/-- What is read behind a token that may be there has the property, if anything is. -/
theorem Ensures.ifAccepted {kind : TokenKind} {value? : Option α}
    (hensures : parser.Ensures tokens property)
    (hreads : (Parser.ifAccepted kind parser).Reads tokens before value? after) :
    ∀ value ∈ value?, property value := by
  rw [reads_ifAccepted] at hreads
  split at hreads
  · obtain ⟨value, hvalue, rfl⟩ := hreads
    simpa using hensures hvalue
  · rw [hreads.1]
    simp

/-- All values of a repetition have the property. -/
theorem Ensures.repeats {condition : Parser Bool} {values : List α}
    (hensures : parser.Ensures tokens property)
    (hrepeats : Repeats condition parser tokens before values after) :
    ∀ value ∈ values, property value := by
  induction hrepeats with
  | stop => exact List.forall_mem_nil _
  | item _ hitem _ ih => exact List.forall_mem_cons.mpr ⟨hensures hitem, ih⟩

/-- All values of a list in brackets have the property. -/
theorem Ensures.lists {close : TokenKind} {values : List α}
    (hensures : parser.Ensures tokens property)
    (hlists : Lists close parser tokens before values after) :
    ∀ value ∈ values, property value := by
  induction hlists with
  | close => exact List.forall_mem_nil _
  | last _ hitem => simpa using hensures hitem
  | item _ hitem _ _ ih => exact List.forall_mem_cons.mpr ⟨hensures hitem, ih⟩

/-- All further values behind separators have the property. -/
theorem Ensures.continues {separator : TokenKind} {starts : TokenKind → Bool} {values : List α}
    (hensures : parser.Ensures tokens property)
    (hcontinues : Continues separator starts parser tokens before values after) :
    ∀ value ∈ values, property value := by
  induction hcontinues with
  | stop | trailing => exact List.forall_mem_nil _
  | item _ _ hitem _ ih => exact List.forall_mem_cons.mpr ⟨hensures hitem, ih⟩

/-- All values between commas have the property. -/
theorem Ensures.commaSeparated {values : List α} (hensures : parser.Ensures tokens property)
    (hreads : (Parser.commaSeparated parser).Reads tokens before values after) :
    ∀ value ∈ values, property value := by
  obtain ⟨first, others, _, rfl, hfirst, -, hothers⟩ := reads_commaSeparated.mp hreads
  exact List.forall_mem_cons.mpr ⟨hensures hfirst, hensures.repeats hothers⟩

end PythonOutline.Parser
