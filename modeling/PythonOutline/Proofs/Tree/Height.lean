import PythonOutline.Proofs.Parser.Ensures
import PythonOutline.Proofs.Tree.Lays

/-! # The height of trees

The height of a tree is the number of nodes on its longest way down. Trees may be as high as a chain
is long: a chain of attributes, calls and subscripts leads from each of them to what it is taken of,
a chain of binary operators from each of them to its left operand, and a chain of `elif`s from each
conditional statement to the one that ends it. The rank of a tree is its height if these edges, the
links of chains, count for nothing. -/

namespace PythonOutline

namespace Node

mutual

/-- The number of nodes on the longest way down from a node, itself included. -/
def height : Node → Nat
  | mk _ _ children => heightAll children + 1

/-- The greatest height of some nodes. -/
def heightAll : List Node → Nat
  | [] => 0
  | node :: nodes => max node.height (heightAll nodes)

end

/-- Whether nodes of a kind are chained by their first child. -/
def isChained (kind : String) : Bool :=
  kind == "Attribute" || kind == "Binary" || kind == "Call" || kind == "Subscript"

/-- Whether an edge is a link of a chain: from a node of a kind to a child that others follow, and
that may be the first one. -/
def isLink (kind : String) (isFirst : Bool) (child : Node) (others : List Node) : Bool :=
  if isFirst then isChained kind else kind == "If" && child.kind == "If" && others.isEmpty

mutual

/-- The number of nodes on the longest way down from a node, where following a link of a chain
counts for nothing. -/
def rank : Node → Nat
  | mk kind _ children => max 1 (rankBelow kind true children)

/-- The rank that a node of a kind has by some of its children. -/
def rankBelow (kind : String) : (isFirst : Bool) → List Node → Nat
  | _, [] => 0
  | isFirst, child :: others =>
    max (child.rank + if isLink kind isFirst child others then 0 else 1)
      (rankBelow kind false others)

end

/-- Whether some nodes all have at most a rank. -/
def RankAtMost (bound : Nat) (nodes : List Node) : Prop :=
  ∀ node ∈ nodes, node.rank ≤ bound

variable {bound : Nat} {kind : String} {span : Span} {children first others : List Node}
  {node : Node}

@[simp]
theorem rankAtMost_nil : RankAtMost bound [] :=
  List.forall_mem_nil _

@[simp]
theorem rankAtMost_cons :
    RankAtMost bound (node :: others) ↔ node.rank ≤ bound ∧ RankAtMost bound others :=
  List.forall_mem_cons

@[simp]
theorem rankAtMost_append :
    RankAtMost bound (first ++ others) ↔ RankAtMost bound first ∧ RankAtMost bound others :=
  List.forall_mem_append

/-- A bound on ranks may be greater. -/
theorem RankAtMost.mono {greater : Nat} (hranks : RankAtMost bound children)
    (hle : bound ≤ greater) : RankAtMost greater children :=
  fun node hnode => Nat.le_trans (hranks node hnode) hle

private theorem rankBelow_le {isFirst : Bool} (hranks : RankAtMost bound children) :
    rankBelow kind isFirst children ≤ bound + 1 := by
  induction children generalizing isFirst with
  | nil => exact Nat.zero_le _
  | cons child children ih =>
    obtain ⟨hchild, hothers⟩ := rankAtMost_cons.mp hranks
    rw [rankBelow]
    refine Nat.max_le.mpr ⟨Nat.add_le_add hchild ?_, ih hothers⟩
    split <;> omega

/-- A node ranks one more than its children at most. -/
theorem rank_le (hranks : RankAtMost bound children) : (mk kind span children).rank ≤ bound + 1 := by
  rw [rank]
  exact Nat.max_le.mpr ⟨Nat.le_add_left .., rankBelow_le hranks⟩

/-- A leaf keeps to every bound but zero. -/
theorem rank_leaf_le : (leaf kind span).rank ≤ bound + 1 :=
  rank_le rankAtMost_nil

/-- A link of a chain does not rank more than what the chain goes on with. -/
theorem rank_le_of_isChained (hkind : isChained kind) (hnode : node.rank ≤ bound + 1)
    (hothers : RankAtMost bound others) : (mk kind span (node :: others)).rank ≤ bound + 1 := by
  rw [rank, rankBelow, isLink, if_pos rfl, if_pos hkind]
  exact Nat.max_le.mpr ⟨Nat.le_add_left .., Nat.max_le.mpr ⟨hnode, rankBelow_le hothers⟩⟩

private theorem rankBelow_le_of_elif {test : List Node} (hranks : RankAtMost bound test)
    (hkind : node.kind = "If") (hnode : node.rank ≤ bound + 1) :
    rankBelow "If" false (test ++ [node]) ≤ bound + 1 := by
  induction test with
  | nil => simpa [rankBelow, isLink, hkind] using hnode
  | cons child children ih =>
    obtain ⟨hchild, hothers⟩ := rankAtMost_cons.mp hranks
    rw [List.cons_append, rankBelow]
    refine Nat.max_le.mpr ⟨Nat.add_le_add hchild ?_, ih hothers⟩
    split <;> omega

/-- A conditional statement does not rank more than the one that ends it. -/
theorem rank_le_of_elif {test : Node} (htest : test.rank ≤ bound) (hranks : RankAtMost bound children)
    (hkind : node.kind = "If") (hnode : node.rank ≤ bound + 1) :
    (mk "If" span (test :: (children ++ [node]))).rank ≤ bound + 1 := by
  rw [rank, rankBelow]
  refine Nat.max_le.mpr ⟨Nat.le_add_left .., Nat.max_le.mpr ⟨Nat.add_le_add htest ?_,
    rankBelow_le_of_elif hranks hkind hnode⟩⟩
  split <;> omega

end Node

/-! ## The trees that parsers read -/

namespace Parser

variable {α : Type} {tokens : Tokens} {parser : Parser α} {node : α → Node} {bound : Nat}

/-- A parser reads nothing that ranks more than a bound. -/
def Ranks (parser : Parser α) (tokens : Tokens) (node : α → Node) (bound : Nat) : Prop :=
  ∀ ⦃before value after⦄, parser.Reads tokens before value after → (node value).rank ≤ bound

/-- A parser whose nodes have a rank at most keeps to a greater bound as well. -/
theorem Ranks.mono {greater : Nat} (hranks : parser.Ranks tokens node bound)
    (hle : bound ≤ greater) : parser.Ranks tokens node greater :=
  fun _ _ _ hreads => Nat.le_trans (hranks hreads) hle

private theorem Ranks.ensures (hranks : parser.Ranks tokens node bound) :
    parser.Ensures tokens fun value => (node value).rank ≤ bound :=
  hranks

/-- A parser that fails reads no node. -/
theorem ranks_failNext {cause : SyntaxCause} :
    (failNext cause : Parser α).Ranks tokens node bound :=
  ensures_failNext

/-- What may be there keeps to the bound if it is. -/
theorem Ranks.ifAccepted {before after : Place} {kind : TokenKind} {value? : Option α}
    (hranks : parser.Ranks tokens node bound)
    (hreads : (Parser.ifAccepted kind parser).Reads tokens before value? after) :
    Node.RankAtMost bound (value?.toList.map node) := by
  have hvalue := hranks.ensures.ifAccepted hreads
  exact List.forall_mem_map.mpr (by simpa using hvalue)

/-- All values of a repetition keep to the bound. -/
theorem Ranks.repeats {before after : Place} {condition : Parser Bool} {values : List α}
    (hranks : parser.Ranks tokens node bound)
    (hrepeats : Repeats condition parser tokens before values after) :
    Node.RankAtMost bound (values.map node) :=
  List.forall_mem_map.mpr (hranks.ensures.repeats hrepeats)

/-- All values of a list in brackets keep to the bound. -/
theorem Ranks.lists {before after : Place} {close : TokenKind} {values : List α}
    (hranks : parser.Ranks tokens node bound)
    (hlists : Lists close parser tokens before values after) :
    Node.RankAtMost bound (values.map node) :=
  List.forall_mem_map.mpr (hranks.ensures.lists hlists)

/-- All further values behind separators keep to the bound. -/
theorem Ranks.continues {before after : Place} {separator : TokenKind} {starts : TokenKind → Bool}
    {values : List α} (hranks : parser.Ranks tokens node bound)
    (hcontinues : Continues separator starts parser tokens before values after) :
    Node.RankAtMost bound (values.map node) :=
  List.forall_mem_map.mpr (hranks.ensures.continues hcontinues)

/-- All values between commas keep to the bound. -/
theorem Ranks.commaSeparated {before after : Place} {values : List α}
    (hranks : parser.Ranks tokens node bound)
    (hreads : (Parser.commaSeparated parser).Reads tokens before values after) :
    Node.RankAtMost bound (values.map node) :=
  List.forall_mem_map.mpr (hranks.ensures.commaSeparated hreads)

end Parser

end PythonOutline
