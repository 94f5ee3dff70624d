import PythonOutline.Proofs.Lexer.Tokens
import PythonOutline.Parser.Basic
import PythonOutline.Tree.Node

/-! # Laminar trees

A tree of nodes is laminar if the span of every node but the root holds text, lies within the span
of its parent, and overlaps that of no sibling. Nodes are made from runs of tokens: `Tokens.Fits`
says that some nodes lie within a run and do not overlap each other, and the lemmas behind it build
larger runs and nodes from smaller ones. -/

namespace PythonOutline

namespace Span

/-- A span that holds text of a source, between two of its character boundaries. -/
structure IsProper (source : List Char) (span : Span) : Prop where
  start_lt : span.start < span.stop
  stop_le : span.stop ≤ Text.byteLength source
  start_isBoundary : Text.IsBoundary source span.start
  stop_isBoundary : Text.IsBoundary source span.stop

/-- A span that is contained in another one. -/
def Within (inner outer : Span) : Prop :=
  outer.start ≤ inner.start ∧ inner.stop ≤ outer.stop

/-- Two spans without a byte in common. -/
def Apart (left right : Span) : Prop :=
  left.stop ≤ right.start ∨ right.stop ≤ left.start

/-- Spans are apart from each other. -/
theorem Apart.symm {left right : Span} (hapart : left.Apart right) : right.Apart left :=
  Or.symm hapart

end Span

/-- The spans of a tree are laminar. Nothing is said of the span of the root itself. -/
inductive Node.Laminar (source : List Char) : Node → Prop where
  | mk {kind : String} {span : Span} {children : List Node}
      (hproper : ∀ child ∈ children, child.span.IsProper source)
      (hwithin : ∀ child ∈ children, child.span.Within span)
      (hapart : children.Pairwise fun left right => left.span.Apart right.span)
      (hbelow : ∀ child ∈ children, child.Laminar source) :
      Laminar source (.mk kind span children)

namespace Tokens

variable {tokens : Tokens}

/-- Later tokens start later. -/
theorem InOrder.start_le_start (hordered : tokens.InOrder) {earlier later : Nat}
    (hle : earlier ≤ later) (hearlier : (tokens.get earlier).kind.IsSolid)
    (hlater : (tokens.get later).kind.IsSolid) :
    (tokens.get earlier).span.start ≤ (tokens.get later).span.start := by
  rcases Nat.eq_or_lt_of_le hle with rfl | hlt
  · exact Nat.le_refl _
  · exact Nat.le_trans (Nat.le_of_lt (hordered.start_lt earlier hearlier))
      (hordered.stop_le earlier later hlt hearlier hlater)

/-- Later tokens end later. -/
theorem InOrder.stop_le_stop (hordered : tokens.InOrder) {earlier later : Nat}
    (hle : earlier ≤ later) (hearlier : (tokens.get earlier).kind.IsSolid)
    (hlater : (tokens.get later).kind.IsSolid) :
    (tokens.get earlier).span.stop ≤ (tokens.get later).span.stop := by
  rcases Nat.eq_or_lt_of_le hle with rfl | hlt
  · exact Nat.le_refl _
  · exact Nat.le_trans (hordered.stop_le earlier later hlt hearlier hlater)
      (Nat.le_of_lt (hordered.start_lt later hlater))

/-! ## The span of a run of tokens -/

/-- If a range has a significant token, its first one is found, and none stands in front of it. -/
private theorem firstSignificant?_eq_some {start count index : Nat} (hstart : start ≤ index)
    (hstop : index < start + count) (hkind : (tokens.get index).kind.isSignificant) :
    ∃ first, start ≤ first ∧ first ≤ index ∧ (tokens.get first).kind.isSignificant ∧
      (∀ other, start ≤ other → (tokens.get other).kind.isSignificant → first ≤ other) ∧
      tokens.firstSignificant? start count = some (tokens.get first) := by
  induction count generalizing start with
  | zero => omega
  | succ count ih =>
    rw [firstSignificant?]
    by_cases hfirst : (tokens.get start).kind.isSignificant
    · exact ⟨start, Nat.le_refl _, hstart, hfirst, fun _ hother _ => hother, by simp [hfirst]⟩
    · have hskip : ∀ other, start ≤ other → (tokens.get other).kind.isSignificant →
          start + 1 ≤ other := by
        intro other hle hother
        have hne : start ≠ other := by
          rintro rfl
          exact hfirst hother
        omega
      obtain ⟨first, hle, hlast, hsignificant, hleast, heq⟩ := ih (hskip index hstart hkind)
        (by omega)
      exact ⟨first, by omega, hlast, hsignificant,
        fun other hother hkind => hleast other (hskip other hother hkind) hkind,
        by simp [hfirst, heq]⟩

/-- If a range has a significant token, its last one is found, and none stands behind it. -/
private theorem lastSignificant?_eq_some {start count index : Nat} (hstart : start ≤ index)
    (hstop : index < start + count) (hkind : (tokens.get index).kind.isSignificant) :
    ∃ last, index ≤ last ∧ last < start + count ∧ (tokens.get last).kind.isSignificant ∧
      (∀ other, other < start + count → (tokens.get other).kind.isSignificant → other ≤ last) ∧
      tokens.lastSignificant? start count = some (tokens.get last) := by
  induction count with
  | zero => omega
  | succ count ih =>
    rw [lastSignificant?]
    by_cases hlast : (tokens.get (start + count)).kind.isSignificant
    · exact ⟨start + count, by omega, by omega, hlast, fun _ hother _ => by omega,
        by simp [hlast]⟩
    · have hskip : ∀ other, other < start + (count + 1) →
          (tokens.get other).kind.isSignificant → other < start + count := by
        intro other hlt hother
        have hne : start + count ≠ other := by
          rintro rfl
          exact hlast hother
        omega
      obtain ⟨last, hle, hlt, hsignificant, hgreatest, heq⟩ := ih (hskip index hstop hkind)
      exact ⟨last, hle, by omega, hsignificant,
        fun other hother hkind => hgreatest other (hskip other hother hkind) hkind,
        by simp [hlast, heq]⟩

private theorem firstSignificant?_eq_none {start count : Nat}
    (hnone : ∀ index, start ≤ index → index < start + count →
      ¬(tokens.get index).kind.isSignificant) : tokens.firstSignificant? start count = none := by
  induction count generalizing start with
  | zero => rfl
  | succ count ih =>
    rw [firstSignificant?, if_neg (hnone start (Nat.le_refl _) (by omega))]
    exact ih fun index hstart hstop => hnone index (by omega) (by omega)

/-- Runs of tokens of the same kinds take their spans from the tokens at the same two places, or
from the token in front of their ends. -/
theorem spanBetween_cases {tokens' : Tokens} {start start' stop stop' : Nat}
    (hcount : stop' - start' = stop - start)
    (hkinds : ∀ index < stop - start,
      (tokens'.get (start' + index)).kind = (tokens.get (start + index)).kind) :
    (∃ first last, first ≤ last ∧ last < stop - start ∧
      (tokens.get (start + first)).kind.isSignificant ∧
      (tokens.get (start + last)).kind.isSignificant ∧
      tokens.spanBetween start stop =
        ⟨(tokens.get (start + first)).span.start, (tokens.get (start + last)).span.stop⟩ ∧
      tokens'.spanBetween start' stop' =
        ⟨(tokens'.get (start' + first)).span.start, (tokens'.get (start' + last)).span.stop⟩) ∨
    tokens.spanBetween start stop =
      .point (if stop = 0 then 0 else (tokens.get (stop - 1)).span.stop) ∧
    tokens'.spanBetween start' stop' =
      .point (if stop' = 0 then 0 else (tokens'.get (stop' - 1)).span.stop) := by
  rw [spanBetween, spanBetween, hcount]
  by_cases hsome : ∃ index < stop - start, (tokens.get (start + index)).kind.isSignificant
  · obtain ⟨index, hlt, hkind⟩ := hsome
    have hkind' : (tokens'.get (start' + index)).kind.isSignificant := by rwa [hkinds index hlt]
    have hstop : start + index < start + (stop - start) := Nat.add_lt_add_left hlt start
    have hstop' : start' + index < start' + (stop - start) := Nat.add_lt_add_left hlt start'
    have hstart := Nat.le_add_right start index
    have hstart' := Nat.le_add_right start' index
    obtain ⟨first, hfirst, hle, hfirstKind, hleast, hfirstEq⟩ :=
      firstSignificant?_eq_some hstart hstop hkind
    obtain ⟨first', hfirst', hle', hfirstKind', hleast', hfirstEq'⟩ :=
      firstSignificant?_eq_some hstart' hstop' hkind'
    obtain ⟨last, hge, hlast, hlastKind, hgreatest, hlastEq⟩ :=
      lastSignificant?_eq_some hstart hstop hkind
    obtain ⟨last', hge', hlast', hlastKind', hgreatest', hlastEq'⟩ :=
      lastSignificant?_eq_some hstart' hstop' hkind'
    obtain ⟨first, rfl⟩ := Nat.exists_eq_add_of_le hfirst
    obtain ⟨first', rfl⟩ := Nat.exists_eq_add_of_le hfirst'
    obtain ⟨last, rfl⟩ := Nat.exists_eq_add_of_le (Nat.le_trans hstart hge)
    obtain ⟨last', rfl⟩ := Nat.exists_eq_add_of_le (Nat.le_trans hstart' hge')
    rw [hkinds _ (by omega)] at hfirstKind' hlastKind'
    have hfirstLe := hleast (start + first') (Nat.le_add_right ..) hfirstKind'
    have hfirstGe := hleast' (start' + first) (Nat.le_add_right ..)
      (by rwa [hkinds first (by omega)])
    have hlastLe := hgreatest (start + last') (by omega) hlastKind'
    have hlastGe := hgreatest' (start' + last) (by omega) (by rwa [hkinds last (by omega)])
    obtain rfl : first' = first := by omega
    obtain rfl : last' = last := by omega
    refine .inl ⟨first', last', by omega, by omega, hfirstKind', hlastKind', ?_, ?_⟩
    · rw [hfirstEq, hlastEq]
    · rw [hfirstEq', hlastEq']
  · have hnone : ∀ index < stop - start, ¬(tokens.get (start + index)).kind.isSignificant :=
      fun index hlt hkind => hsome ⟨index, hlt, hkind⟩
    refine .inr ⟨?_, ?_⟩
    · rw [firstSignificant?_eq_none fun index hge hlt => ?_]
      obtain ⟨index, rfl⟩ := Nat.exists_eq_add_of_le hge
      exact hnone index (by omega)
    · rw [firstSignificant?_eq_none fun index hge hlt => ?_]
      obtain ⟨index, rfl⟩ := Nat.exists_eq_add_of_le hge
      rw [hkinds index (by omega)]
      exact hnone index (by omega)

/-- A run of readable tokens of which one is solid has the span from its first to its last solid
token. -/
theorem spanBetween_eq {start stop index : Nat}
    (hreadable : ∀ index, start ≤ index → index < stop → (tokens.get index).kind.IsReadable)
    (hstart : start ≤ index) (hstop : index < stop) (hsolid : (tokens.get index).kind.IsSolid) :
    ∃ first last, start ≤ first ∧ first ≤ last ∧ last < stop ∧
      (tokens.get first).kind.IsSolid ∧ (tokens.get last).kind.IsSolid ∧
      (∀ other, start ≤ other → other < stop → (tokens.get other).kind.IsSolid →
        first ≤ other ∧ other ≤ last) ∧
      tokens.spanBetween start stop = ⟨(tokens.get first).span.start, (tokens.get last).span.stop⟩ := by
  have hcount : start + (stop - start) = stop := by omega
  obtain ⟨first, hfirst, hle, hfirstKind, hleast, hfirstEq⟩ :=
    firstSignificant?_eq_some hstart (hcount ▸ hstop) hsolid.1
  obtain ⟨last, hge, hlast, hlastKind, hgreatest, hlastEq⟩ :=
    lastSignificant?_eq_some hstart (hcount ▸ hstop) hsolid.1
  have hfirstReadable := hreadable first hfirst (by omega)
  have hlastReadable := hreadable last (by omega) (by omega)
  refine ⟨first, last, hfirst, by omega, by omega,
    ⟨hfirstKind, hfirstReadable.2, hfirstReadable.1⟩,
    ⟨hlastKind, hlastReadable.2, hlastReadable.1⟩, ?_, ?_⟩
  · intro other hother hlt hkind
    exact ⟨hleast other hother hkind.1, hgreatest other (by omega) hkind.1⟩
  · rw [spanBetween, hfirstEq, hlastEq]

/-- The span of a single token. -/
theorem spanBetween_succ {index : Nat} (hkind : (tokens.get index).kind.isSignificant) :
    tokens.spanBetween index (index + 1) = (tokens.get index).span := by
  simp [spanBetween, firstSignificant?, lastSignificant?, hkind]

/-- The span of a run of tokens starts where its first token does. -/
theorem spanBetween_start {start stop : Nat}
    (hkind : (tokens.get start).kind.isSignificant) (hlt : start < stop) :
    (tokens.spanBetween start stop).start = (tokens.get start).span.start := by
  obtain ⟨first, hge, hle, -, -, hfirst⟩ :=
    firstSignificant?_eq_some (Nat.le_refl start) (show start < start + (stop - start) by omega) hkind
  obtain ⟨last, -, -, -, -, hlast⟩ :=
    lastSignificant?_eq_some (Nat.le_refl start) (show start < start + (stop - start) by omega) hkind
  obtain rfl := Nat.le_antisymm hle hge
  rw [spanBetween, hfirst, hlast]

/-- A run of text has the span from its first token to its last one. -/
theorem spanBetween_of_isSolid {start stop : Nat} (hlt : start < stop)
    (hsolid : ∀ index, start ≤ index → index < stop → (tokens.get index).kind.IsSolid) :
    tokens.spanBetween start stop =
      ⟨(tokens.get start).span.start, (tokens.get (stop - 1)).span.stop⟩ := by
  obtain ⟨first, last, hge, -, hlast, -, -, hextreme, hspan⟩ :=
    spanBetween_eq (fun index hge hlt => ⟨(hsolid index hge hlt).2.2, (hsolid index hge hlt).2.1⟩)
      (Nat.le_refl _) hlt (hsolid start (Nat.le_refl _) hlt)
  have hfinal := hsolid (stop - 1) (by omega) (by omega)
  obtain rfl : first = start :=
    Nat.le_antisymm (hextreme start (Nat.le_refl _) hlt (hsolid start (Nat.le_refl _) hlt)).1 hge
  obtain rfl : last = stop - 1 :=
    Nat.le_antisymm (by omega) (hextreme (stop - 1) (by omega) (by omega) hfinal).2
  exact hspan

/-! ## Nodes within runs of tokens -/

/-- A laminar node that covers the text from one solid token to another, both within a run. -/
def Sits (tokens : Tokens) (start stop : Nat) (node : Node) : Prop :=
  node.Laminar tokens.source ∧ ∃ first last, start ≤ first ∧ first ≤ last ∧ last < stop ∧
    (tokens.get first).kind.IsSolid ∧ (tokens.get last).kind.IsSolid ∧
    node.span = ⟨(tokens.get first).span.start, (tokens.get last).span.stop⟩

/-- A run of tokens, all of allowed kinds, that holds some nodes, none of which overlaps another. -/
structure Fits (tokens : Tokens) (allowed : TokenKind → Prop) (start stop : Nat)
    (nodes : List Node) : Prop where
  le : start ≤ stop
  kinds : ∀ index, start ≤ index → index < stop → allowed (tokens.get index).kind
  sits : ∀ node ∈ nodes, tokens.Sits start stop node
  apart : nodes.Pairwise fun left right => left.span.Apart right.span

variable {allowed : TokenKind → Prop} {start middle stop : Nat} {nodes others : List Node}

/-- A node within a run sits within a wider one. -/
theorem Sits.widen {node : Node} (hsits : tokens.Sits middle stop node) (hstart : start ≤ middle)
    {last : Nat} (hstop : stop ≤ last) : tokens.Sits start last node := by
  obtain ⟨hlaminar, first, final, hfirst, hle, hfinal, hspan⟩ := hsits
  exact ⟨hlaminar, first, final, by omega, hle, by omega, hspan⟩

/-- The span of a node within a run of tokens holds text. -/
theorem Sits.isProper (hordered : tokens.InOrder) {node : Node}
    (hsits : tokens.Sits start stop node) : node.span.IsProper tokens.source := by
  obtain ⟨-, first, last, -, hle, -, hfirst, hlast, hspan⟩ := hsits
  have hstop := hordered.stop_isBoundary last hlast
  rw [hspan]
  refine ⟨?_, hstop.le_byteLength, hordered.start_isBoundary first hfirst, hstop⟩
  rcases Nat.eq_or_lt_of_le hle with rfl | hlt
  · exact hordered.start_lt first hfirst
  · have hfirstLt := hordered.start_lt first hfirst
    have hlastLt := hordered.start_lt last hlast
    have hbetween := hordered.stop_le first last hlt hfirst hlast
    dsimp only
    omega

namespace Fits

/-- No tokens hold no nodes. -/
theorem nil (tokens : Tokens) (allowed : TokenKind → Prop) (index : Nat) :
    tokens.Fits allowed index index [] :=
  ⟨Nat.le_refl _, fun _ _ _ => by omega, by simp, .nil⟩

/-- A single token that makes no node. -/
theorem token {index : Nat} {kind : TokenKind} (hkind : (tokens.get index).kind = kind)
    (hallowed : allowed kind) : tokens.Fits allowed index (index + 1) [] := by
  refine ⟨Nat.le_succ _, fun other hstart hstop => ?_, by simp, .nil⟩
  obtain rfl : other = index := by omega
  rw [hkind]
  exact hallowed

/-- More kinds of tokens may be allowed. -/
theorem weaken {wider : TokenKind → Prop} (hfits : tokens.Fits allowed start stop nodes)
    (hwider : ∀ kind, allowed kind → wider kind) : tokens.Fits wider start stop nodes :=
  { hfits with kinds := fun index hstart hstop => hwider _ (hfits.kinds index hstart hstop) }

/-- The order of the nodes does not matter. -/
theorem perm (hfits : tokens.Fits allowed start stop nodes) (hperm : nodes.Perm others) :
    tokens.Fits allowed start stop others :=
  { hfits with
    sits := fun node hnode => hfits.sits node (hperm.mem_iff.mpr hnode)
    apart := hperm.pairwise hfits.apart (fun hapart => hapart.symm) }

/-- Nodes of adjacent runs do not overlap. -/
theorem append (hordered : tokens.InOrder) (hfirst : tokens.Fits allowed start middle nodes)
    (hsecond : tokens.Fits allowed middle stop others) :
    tokens.Fits allowed start stop (nodes ++ others) := by
  refine ⟨Nat.le_trans hfirst.le hsecond.le, ?_, ?_, ?_⟩
  · intro index hstart hstop
    by_cases hmiddle : index < middle
    · exact hfirst.kinds index hstart hmiddle
    · exact hsecond.kinds index (Nat.le_of_not_lt hmiddle) hstop
  · intro node hnode
    rcases List.mem_append.mp hnode with hnode | hnode
    · exact (hfirst.sits node hnode).widen (Nat.le_refl _) hsecond.le
    · exact (hsecond.sits node hnode).widen hfirst.le (Nat.le_refl _)
  · refine List.pairwise_append.mpr ⟨hfirst.apart, hsecond.apart, ?_⟩
    intro left hleft right hright
    obtain ⟨-, _, leftLast, -, -, hleftLast, -, hleftSolid, hleftSpan⟩ := hfirst.sits left hleft
    obtain ⟨-, rightFirst, _, hrightFirst, -, -, hrightSolid, -, hrightSpan⟩ :=
      hsecond.sits right hright
    refine .inl ?_
    rw [hleftSpan, hrightSpan]
    exact hordered.stop_le leftLast rightFirst (by omega) hleftSolid hrightSolid

/-- A run that holds a node holds a token. -/
theorem lt {node : Node} (hfits : tokens.Fits allowed start stop nodes) (hnode : node ∈ nodes) :
    start < stop := by
  obtain ⟨-, first, last, hfirst, hle, hlast, -⟩ := hfits.sits node hnode
  omega

/-- Nodes within a run become the children of a node with the span of the run. -/
theorem node (hordered : tokens.InOrder) (hfits : tokens.Fits allowed start stop nodes)
    (hreadable : ∀ kind, allowed kind → kind.IsReadable) (kind : String) {index : Nat}
    (hstart : start ≤ index) (hstop : index < stop) (hsolid : (tokens.get index).kind.IsSolid) :
    tokens.Fits allowed start stop [.mk kind (tokens.spanBetween start stop) nodes] := by
  obtain ⟨first, last, hfirst, hle, hlast, hfirstSolid, hlastSolid, hextreme, hspan⟩ :=
    spanBetween_eq (fun index hstart hstop => hreadable _ (hfits.kinds index hstart hstop)) hstart
      hstop hsolid
  refine ⟨hfits.le, hfits.kinds, ?_, List.pairwise_singleton _ _⟩
  intro node hnode
  obtain rfl := List.mem_singleton.mp hnode
  refine ⟨.mk ?_ ?_ hfits.apart ?_, first, last, hfirst, hle, hlast, hfirstSolid, hlastSolid, hspan⟩
  · intro child hchild
    exact (hfits.sits child hchild).isProper hordered
  · intro child hchild
    obtain ⟨-, childFirst, childLast, hchildFirst, hchildLe, hchildLast, hchildFirstSolid,
      hchildLastSolid, hchildSpan⟩ := hfits.sits child hchild
    have hstartLe := (hextreme childFirst hchildFirst (by omega) hchildFirstSolid).1
    have hstopLe := (hextreme childLast (by omega) hchildLast hchildLastSolid).2
    rw [hspan, hchildSpan]
    exact ⟨hordered.start_le_start hstartLe hfirstSolid hchildFirstSolid,
      hordered.stop_le_stop hstopLe hchildLastSolid hlastSolid⟩
  · intro child hchild
    exact (hfits.sits child hchild).1

end Fits

end Tokens

end PythonOutline
