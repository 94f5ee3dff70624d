import PythonOutline.Proofs.Grammar.LexicalError
import PythonOutline.Proofs.Grammar.PassageDisplay
import PythonOutline.Proofs.Operator.Layer

/-! # The entries of dict displays

The first entry of a dict display is read before it is known that the display is a dict, so its key
is read as the element of a set. It may be starred, and bound by a `:=` without parentheses, which
no later key may be. In everything else the entries are alike: a run of tokens forms the same entry
in any place of any display. -/

namespace PythonOutline

open PythonOutline.Parser

namespace Level

variable {level : Level} {tokens : Tokens} {before middle after : Place} {entry : DictEntry}

/-- An entry of a dict display whose key is read by a parser. -/
def entryBy (level : Level) (key : Parser Expr) : Parser DictEntry := spanned do
  if ← accept .asteriskAsterisk then
    let value ← level.bitwiseOr
    return fun span => ⟨span, none, value⟩
  let key ← key
  let _ ← expect .colon
  let value ← level.expr
  return fun span => ⟨span, some key, value⟩

private theorem dictEntry_eq_entryBy (level : Level) : level.dictEntry = level.entryBy level.expr :=
  rfl

/-- The first entry of a dict display. -/
def firstEntry (level : Level) : Parser DictEntry :=
  level.entryBy level.starNamedExpr

private theorem reads_entryBy {key : Parser Expr} :
    (level.entryBy key).Reads tokens before entry after ↔
      if tokens.kindAt before = .asteriskAsterisk then
        ∃ mapping, level.bitwiseOr.Reads tokens before.step mapping after ∧
          entry = ⟨tokens.spanBetween before.next after.next, none, mapping⟩
      else
        ∃ name middle, key.Reads tokens (before.look 0) name middle ∧
          tokens.kindAt middle = .colon ∧
          ∃ value, level.expr.Reads tokens middle.step value after ∧
            entry = ⟨tokens.spanBetween before.next after.next, some name, value⟩ := by
  by_cases hmapping : tokens.kindAt before = .asteriskAsterisk
  · simp [entryBy, hmapping]
  · simp [entryBy, hmapping, and_assoc]

end Level

/-! ## Keys of the first entry only -/

/-- An expression is starred, or it binds a name. -/
def Expr.StarredOrNamed (expr : Expr) : Prop :=
  (∃ value, expr.form = .starred value) ∨ ∃ name value, expr.form = .named name value

/-- At an index stands a key that only the first entry of a display may have: it is starred, or it
is bound by a `:=`. -/
def Tokens.StarredOrBound (tokens : Tokens) (index : Nat) : Prop :=
  (tokens.get index).kind = .asterisk ∨
    (tokens.get index).kind = .identifier ∧ (tokens.get (index + 1)).kind = .colonEquals

namespace Level

variable {level : Level} {tokens : Tokens} {before middle after : Place} {value : Expr}

/-- Such a key is read as what it looks like. -/
theorem starredOrNamed_of_starNamedExpr (hkey : tokens.StarredOrBound before.next)
    (hreads : level.starNamedExpr.Reads tokens before value after) : value.StarredOrNamed := by
  rw [starNamedExpr, reads_starredOr] at hreads
  split at hreads
  case isTrue =>
    obtain ⟨-, starred, -, rfl⟩ := reads_starred.mp hreads
    exact .inl ⟨starred, rfl⟩
  case isFalse hstar =>
    have hbound : tokens.kindAt before = .identifier ∧ tokens.kindAt before.step = .colonEquals :=
      hkey.resolve_left hstar
    rw [reads_namedExpr, Tokens.kindAt_look, Tokens.kindAt_look_step, if_pos hbound] at hreads
    obtain ⟨bound, -, rfl⟩ := hreads
    exact .inr ⟨_, bound, rfl⟩

/-- Elsewhere the first key is read as the later ones are. -/
theorem reads_starNamedExpr (hkey : ¬tokens.StarredOrBound before.next) :
    level.starNamedExpr.Reads tokens before value after ↔
      level.expr.Reads tokens (before.look 1) value after := by
  have hstar : tokens.kindAt before ≠ .asterisk := fun hstar => hkey (.inl hstar)
  have hbound : ¬(tokens.kindAt before = .identifier ∧ tokens.kindAt before.step = .colonEquals) :=
    fun hbound => hkey (.inr hbound)
  rw [starNamedExpr, reads_starredOr, if_neg hstar, reads_namedExpr, Tokens.kindAt_look,
    Tokens.kindAt_look_step, if_neg hbound, Place.look_look]
  rfl

/-- A chain of binary operators starts with a factor. -/
theorem exists_factor_of_binary {tiers : Nat}
    (hreads : (level.binary tiers).Reads tokens before value after) :
    ∃ first middle, level.factor.Reads tokens before first middle := by
  induction tiers generalizing value after with
  | zero => exact ⟨value, after, hreads⟩
  | succ tiers ih =>
    obtain ⟨first, middle, hfirst, -⟩ := reads_leftChain.mp hreads
    exact ih hfirst

/-- A factor starts with a token that may start an expression, and not with an asterisk. -/
theorem starts_of_factor (hreads : level.factor.Reads tokens before value after) :
    (tokens.kindAt before).startsExpression ∧ tokens.kindAt before ≠ .asterisk := by
  rw [reads_factor] at hreads
  split at hreads
  case h_1 =>
    obtain ⟨left, middle, hleft, -⟩ := reads_power.mp hreads
    rw [reads_awaited, Tokens.kindAt_look] at hleft
    split at hleft
    case isTrue hawait => simp [hawait, TokenKind.startsExpression]
    case isFalse =>
      obtain ⟨first, last, hfirst, -⟩ := reads_primary hleft
      rw [reads_atom] at hfirst
      simp only [Tokens.kindAt_look] at hfirst
      split at hfirst
      all_goals first
        | exact hfirst.elim
        | simp_all [TokenKind.startsExpression]
  case h_2 operator hunary =>
    generalize tokens.kindAt before = kind at hunary
    unfold Operator.unary? at hunary
    split at hunary
    all_goals simp_all [TokenKind.startsExpression]

/-- So does every expression. -/
theorem starts_of_expr (hreads : level.expr.Reads tokens before value after) :
    (tokens.kindAt before).startsExpression ∧ tokens.kindAt before ≠ .asterisk := by
  rw [reads_expr] at hreads
  split at hreads
  case isTrue hlambda => simp [hlambda, TokenKind.startsExpression]
  case isFalse =>
    obtain ⟨_, _, hreads, -⟩ := hreads
    obtain ⟨_, _, hreads, -⟩ := reads_booleanChain.mp hreads
    obtain ⟨_, _, hreads, -⟩ := reads_booleanChain.mp hreads
    rw [reads_notTest, Tokens.kindAt_look] at hreads
    split at hreads
    case isTrue hnot => simp [hnot, TokenKind.startsExpression]
    case isFalse =>
      obtain ⟨_, _, _, hreads, -⟩ := reads_comparison.mp hreads
      obtain ⟨_, _, hreads⟩ := exists_factor_of_binary hreads
      simpa only [Tokens.kindAt_look] using starts_of_factor hreads

/-- So does the element of a set, if it may be an asterisk too. -/
theorem starts_of_starNamedExpr (hreads : level.starNamedExpr.Reads tokens before value after) :
    (tokens.kindAt before).startsExpression := by
  rw [starNamedExpr, reads_starredOr] at hreads
  split at hreads
  case isTrue hstar => rw [hstar]; rfl
  case isFalse =>
    rw [reads_namedExpr] at hreads
    split at hreads
    case isTrue hbound => rw [show tokens.kindAt before = .identifier from hbound.1]; rfl
    case isFalse => exact (starts_of_expr hreads).1

/-- A name in front of a `:=` is an expression of its own. -/
theorem next_eq_of_expr (hname : tokens.kindAt before = .identifier)
    (hequals : (tokens.get (before.next + 1)).kind = .colonEquals)
    (hreads : level.expr.Reads tokens before value after) : after.next = before.next + 1 := by
  have hprimary := level.primary_yields (level.atom_yields_name hname rfl)
    (by rw [hequals]; decide)
  obtain ⟨_, last, hlast, hnext, -⟩ := @layer_yields_of_le level tokens _ _ _ conditionalPrecedence
    atomPrecedence (Nat.le_refl _) (by decide) (Nat.le_refl _) hprimary
    (by rw [Tokens.get_kind, hname]; decide) (by rw [hequals]; decide) before rfl
  cases hlast.symm.trans hreads
  exact hnext

/-- A later entry has no such key. -/
theorem not_starredOrBound_of_dictEntry {entry : DictEntry}
    (hreads : level.dictEntry.Reads tokens before entry after) :
    ¬tokens.StarredOrBound before.next := by
  rintro (hstar | ⟨hname, hequals⟩)
  · rw [Tokens.get_kind] at hstar
    rw [reads_dictEntry, hstar] at hreads
    obtain ⟨_, _, hkey, -⟩ := hreads
    exact (starts_of_expr hkey).2 hstar
  · rw [Tokens.get_kind] at hname
    rw [reads_dictEntry, hname] at hreads
    obtain ⟨_, middle, hkey, hcolon, -⟩ := hreads
    have hnext := @next_eq_of_expr level tokens (before.look 0) _ _ hname hequals hkey
    rw [Tokens.kindAt, hnext] at hcolon
    cases hequals.symm.trans hcolon

end Level

/-! ## Runs that form entries -/

/-- The tokens from an index on are those of a run, up to their spans. -/
def Tokens.HasRun (tokens : Tokens) (start : Nat) (run : List Token) : Prop :=
  ∀ index (hlt : index < run.length), (tokens.get (start + index)).kind = run[index].kind ∧
    (tokens.get (start + index)).text = run[index].text

instance {tokens : Tokens} {start : Nat} {run : List Token} : Decidable (tokens.HasRun start run) :=
  inferInstanceAs (Decidable (∀ index (_ : index < run.length), _ ∧ _))

/-- The key at the start of a run is starred or bound by a `:=`. -/
def HasStarredOrBoundKey (run : List Token) : Prop :=
  run[0]?.map Token.kind = some .asterisk ∨
    run[0]?.map Token.kind = some .identifier ∧ run[1]?.map Token.kind = some .colonEquals

instance {run : List Token} : Decidable (HasStarredOrBoundKey run) :=
  inferInstanceAs (Decidable (_ ∨ _ ∧ _))

/-- A run of tokens forms an entry: somewhere it stands in front of a comma or of a closing brace,
and the entry is read from it as the first one of a display or as a later one. -/
def Level.FormsEntry (level : Level) (run : List Token) (entry : DictEntry) : Prop :=
  ∃ (tokens : Tokens) (before after : Place), tokens.InOrder ∧ tokens.HasRun before.next run ∧
    after.next = before.next + run.length ∧ (tokens.kindAt after).EndsEntry ∧
    (level.firstEntry.Reads tokens before entry after ∨ level.dictEntry.Reads tokens before entry after)

/-- A run of tokens forms an entry that is read from it as the first one of a display. -/
def Level.FormsFirst (level : Level) (run : List Token) (entry : DictEntry) : Prop :=
  ∃ (tokens : Tokens) (before after : Place), tokens.InOrder ∧ tokens.HasRun before.next run ∧
    after.next = before.next + run.length ∧ (tokens.kindAt after).EndsEntry ∧
    level.firstEntry.Reads tokens before entry after

section

variable {tokens tokens' : Tokens} {start start' : Nat} {run : List Token}

/-- Whether the key is starred or bound is known from a run, as what stands behind it ends
an entry. -/
theorem Tokens.HasRun.starredOrBound_iff (hrun : tokens.HasRun start run)
    (hends : (tokens.get (start + run.length)).kind.EndsEntry) :
    tokens.StarredOrBound start ↔ HasStarredOrBoundKey run := by
  have hnone : ∀ {kind : TokenKind}, kind.EndsEntry →
      kind ≠ .asterisk ∧ kind ≠ .identifier ∧ kind ≠ .colonEquals := by
    rintro kind (rfl | rfl) <;> decide
  unfold Tokens.StarredOrBound HasStarredOrBoundKey
  match run with
  | [] =>
    obtain ⟨hstar, hname, -⟩ := hnone hends
    simp_all
  | [first] =>
    obtain ⟨-, -, hequals⟩ := hnone hends
    have hfirst := (hrun 0 (by simp)).1
    simp_all
  | first :: second :: _ =>
    have hfirst := (hrun 0 (by simp)).1
    have hsecond := (hrun 1 (by simp)).1
    simp_all

/-- A run that stands in two token sequences. -/
def Tokens.HasRun.passage (hrun : tokens.HasRun start run) (hrun' : tokens'.HasRun start' run)
    (hordered : tokens.InOrder) (hends : (tokens.get (start + run.length)).kind.EndsEntry)
    (hends' : (tokens'.get (start' + run.length)).kind.EndsEntry) : Passage where
  like := .moved
  tokens
  tokens'
  start
  start'
  length := run.length
  total := Likeness.moved_total
  ordered := hordered
  alike index hlt := by
    obtain ⟨hkind, htext⟩ := hrun index hlt
    obtain ⟨hkind', htext'⟩ := hrun' index hlt
    exact Token.alike_moved (hkind'.trans hkind.symm) (htext'.trans htext.symm)
  closing := .inr ⟨hends, hends'⟩
  spans _ _ _ := trivial
  lt_size := Tokens.lt_size_of_endsEntry hends'

end

namespace Level

open PythonOutline.Passage

variable {levels : Nat} {passage : Passage} {before before' after : Place} {entry : DictEntry}

/-- An entry that is read from all of a passage is read in the other sequence too, also with a key
that is read otherwise, if this key is carried over. -/
theorem exists_entryBy {key key' : Parser Expr} (hat : passage.At 0 before before')
    (hkey : ∀ {name middle}, key.Reads passage.tokens (before.look 0) name middle →
      ∃ half name' middle', passage.At half middle middle' ∧ name.Alike passage.like name' ∧
        (half + 1 ≤ passage.length + 1 → key'.Reads passage.tokens' (before'.look 0) name' middle'))
    (hreads : ((withInner levels).entryBy key).Reads passage.tokens before entry after)
    (hafter : after.next = passage.start + passage.length) :
    ∃ entry' after', after'.next = passage.start' + passage.length ∧
      ((withInner levels).entryBy key').Reads passage.tokens' before' entry' after' ∧
      entry.Alike passage.like entry' := by
  have hspan : ∀ {after' : Place}, after'.next = passage.start' + passage.length →
      passage.like.span (passage.tokens.spanBetween before.next after.next)
        (passage.tokens'.spanBetween before'.next after'.next) := by
    intro after' hafter'
    rw [hat.next_eq, hat.next_eq', hafter, hafter']
    exact passage.spans 0 passage.length (Nat.le_succ _)
  rw [reads_entryBy] at hreads
  split at hreads
  case isTrue hmapping =>
    obtain ⟨value, hvalue, rfl⟩ := hreads
    obtain ⟨stop, value', after', hle, hstop, hrelated, hvalue'⟩ :=
      bitwiseOr_carries (withInner_carries levels) hat.step hvalue
    have hlength : stop = passage.length := by
      have hnext := hstop.next_eq
      omega
    have hnext' := hlength ▸ hstop.next_eq'
    refine ⟨⟨passage.tokens'.spanBetween before'.next after'.next, none, value'⟩, after', hnext', ?_,
      .mk (hspan hnext') .none hrelated⟩
    rw [reads_entryBy, hat.kindAt_eq (by omega), if_pos hmapping]
    exact ⟨value', hvalue' (by omega), rfl⟩
  case isFalse hmapping =>
    obtain ⟨name, middle, hname, hcolon, value, hvalue, rfl⟩ := hreads
    obtain ⟨half, name', middle', hmiddle, hrelated, hname'⟩ := hkey hname
    obtain ⟨stop, value', after', hle, hstop, hrelated', hvalue'⟩ :=
      expr_carries (withInner_carries levels) hmiddle.step hvalue
    have hlength : stop = passage.length := by
      have hnext := hstop.next_eq
      omega
    have hnext' := hlength ▸ hstop.next_eq'
    refine ⟨⟨passage.tokens'.spanBetween before'.next after'.next, some name', value'⟩, after', hnext',
      ?_, .mk (hspan hnext') (.some hrelated) hrelated'⟩
    rw [reads_entryBy, hat.kindAt_eq (by omega), if_neg hmapping]
    exact ⟨name', middle', hname' (by omega), by rw [hmiddle.kindAt_eq (by omega), hcolon], value',
      hvalue' (by omega), rfl⟩

end Level

section

open Level

variable {levels : Nat} {run first second : List Token} {entry other : DictEntry}
  {tokens : Tokens} {place after : Place}

/-- What forms a first entry is read as one wherever it stands. -/
theorem Level.FormsFirst.firstEntry_reads (hforms : (withInner levels).FormsFirst run entry)
    (hrun : tokens.HasRun place.next run)
    (hends : (tokens.get (place.next + run.length)).kind.EndsEntry) :
    ∃ entry' after, after.next = place.next + run.length ∧
      (withInner levels).firstEntry.Reads tokens place entry' after ∧ entry.Alike .moved entry' := by
  obtain ⟨elsewhere, before, last, hordered, hfound, hlast, hbehind, hreads⟩ := hforms
  rw [Tokens.kindAt, hlast] at hbehind
  let passage := hfound.passage hrun hordered hbehind hends
  have hat : passage.At 0 (before.look 0) (place.look 0) := ⟨rfl, rfl⟩
  refine @exists_entryBy levels passage before place last entry _ _ ⟨rfl, rfl⟩ ?_ hreads hlast
  intro name middle hname
  obtain ⟨half, name', middle', -, hmiddle, hrelated, hname'⟩ :=
    starNamedExpr_carries (withInner_carries levels) hat hname
  exact ⟨half, name', middle', hmiddle, hrelated, hname'⟩

/-- What forms a first entry is read as a later one too, unless its key is starred or bound. -/
theorem Level.FormsFirst.dictEntry_reads (hforms : (withInner levels).FormsFirst run entry)
    (hkey : ¬HasStarredOrBoundKey run) (hrun : tokens.HasRun place.next run)
    (hends : (tokens.get (place.next + run.length)).kind.EndsEntry) :
    ∃ entry' after, after.next = place.next + run.length ∧
      (withInner levels).dictEntry.Reads tokens place entry' after ∧ entry.Alike .moved entry' := by
  obtain ⟨elsewhere, before, last, hordered, hfound, hlast, hbehind, hreads⟩ := hforms
  rw [Tokens.kindAt, hlast] at hbehind
  replace hkey := (hfound.starredOrBound_iff hbehind).not.mpr hkey
  let passage := hfound.passage hrun hordered hbehind hends
  have hat : passage.At 0 ((before.look 0).look 1) (place.look 0) := ⟨rfl, rfl⟩
  refine @exists_entryBy levels passage before place last entry _ _ ⟨rfl, rfl⟩ ?_ hreads hlast
  intro name middle hname
  obtain ⟨half, name', middle', -, hmiddle, hrelated, hname'⟩ :=
    expr_carries (withInner_carries levels) hat
      ((@reads_starNamedExpr _ _ (before.look 0) _ _ hkey).mp hname)
  exact ⟨half, name', middle', hmiddle, hrelated, hname'⟩

/-- What is read as a later entry can be read as a first one. -/
theorem Level.formsFirst_of_dictEntry (hordered : tokens.InOrder)
    (hrun : tokens.HasRun place.next run) (hafter : after.next = place.next + run.length)
    (hends : (tokens.kindAt after).EndsEntry)
    (hreads : (withInner levels).dictEntry.Reads tokens place entry after) :
    ∃ entry', (withInner levels).FormsFirst run entry' ∧ entry.Alike .moved entry' := by
  have hkey := not_starredOrBound_of_dictEntry hreads
  have hbehind := hends
  rw [Tokens.kindAt, hafter] at hbehind
  let passage := hrun.passage hrun hordered hbehind hbehind
  have hat : passage.At 0 (place.look 0) ((place.look 0).look 1) := ⟨rfl, rfl⟩
  obtain ⟨entry', last, hlast, hfirst, halike⟩ : ∃ entry' last,
      last.next = passage.start' + passage.length ∧
        (withInner levels).firstEntry.Reads tokens place entry' last ∧ entry.Alike .moved entry' := by
    refine @exists_entryBy levels passage place place after entry _ _ ⟨rfl, rfl⟩ ?_ hreads hafter
    intro name middle hname
    obtain ⟨half, name', middle', -, hmiddle, hrelated, hname'⟩ :=
      expr_carries (withInner_carries levels) hat hname
    exact ⟨half, name', middle', hmiddle, hrelated,
      fun hle => (@reads_starNamedExpr _ _ (place.look 0) _ _ hkey).mpr (hname' hle)⟩
  refine ⟨entry', ⟨tokens, place, last, hordered, hrun, hlast, ?_, hfirst⟩, halike⟩
  rwa [Tokens.kindAt, hlast]

/-- What forms an entry forms a first one, which is the same if the key is starred or bound. -/
theorem Level.FormsEntry.exists_first (hforms : (withInner levels).FormsEntry run entry) :
    ∃ entry', (withInner levels).FormsFirst run entry' ∧
      dictEntriesWithoutSpans [entry'] = dictEntriesWithoutSpans [entry] ∧
      (HasStarredOrBoundKey run → entry' = entry) := by
  obtain ⟨tokens, before, after, hordered, hrun, hafter, hends, hreads | hreads⟩ := hforms
  · exact ⟨entry, ⟨tokens, before, after, hordered, hrun, hafter, hends, hreads⟩, rfl, fun _ => rfl⟩
  · obtain ⟨entry', hfirst, halike⟩ := formsFirst_of_dictEntry hordered hrun hafter hends hreads
    rw [Tokens.kindAt, hafter] at hends
    exact ⟨entry', hfirst, dictEntriesWithoutSpans_congr (.cons halike .nil), fun hkey =>
      absurd ((hrun.starredOrBound_iff hends).mpr hkey) (not_starredOrBound_of_dictEntry hreads)⟩

/-- A run with a starred or bound key forms a first entry with such a key. -/
theorem Level.FormsFirst.key_starredOrNamed (hforms : (withInner levels).FormsFirst run entry)
    (hkey : HasStarredOrBoundKey run) : ∃ key, entry.key = some key ∧ key.StarredOrNamed := by
  obtain ⟨tokens, before, after, -, hfound, hafter, hbehind, hreads⟩ := hforms
  rw [Tokens.kindAt, hafter] at hbehind
  replace hkey := (hfound.starredOrBound_iff hbehind).mpr hkey
  rw [firstEntry, reads_entryBy] at hreads
  split at hreads
  case isTrue hmapping =>
    rcases hkey with hstar | ⟨hname, -⟩
    · cases hmapping.symm.trans hstar
    · cases hmapping.symm.trans hname
  case isFalse =>
    obtain ⟨key, _, hfirst, -, _, -, rfl⟩ := hreads
    exact ⟨key, rfl, @starredOrNamed_of_starNamedExpr _ _ (before.look 0) _ _ hkey hfirst⟩

end

/-! ## Displays of two entries -/

/-- Entries lose their spans one by one. -/
theorem dictEntriesWithoutSpans_cons (entry : DictEntry) (entries : List DictEntry) :
    dictEntriesWithoutSpans (entry :: entries) =
      dictEntriesWithoutSpans [entry] ++ dictEntriesWithoutSpans entries := by
  cases entry
  rfl

namespace Level

variable {level : Level} {tokens : Tokens} {before middle after : Place} {entry : DictEntry}

/-- No first entry starts with a closing brace. -/
theorem kindAt_ne_braceClose_of_firstEntry
    (hreads : level.firstEntry.Reads tokens before entry after) :
    tokens.kindAt before ≠ .braceClose := by
  intro hclose
  rw [firstEntry, reads_entryBy, hclose] at hreads
  obtain ⟨_, _, hname, -⟩ := hreads
  have hstarts := starts_of_starNamedExpr hname
  rw [Tokens.kindAt_look, hclose] at hstarts
  cases hstarts

/-- A display whose first entry stands in front of a comma is a dict of this entry and of the later
ones behind the comma. -/
theorem exists_later_of_firstEntry (hopen : tokens.kindAt before = .braceOpen)
    (hfirst : level.firstEntry.Reads tokens (before.step.look 0) entry middle)
    (hcomma : tokens.kindAt middle = .comma) :
    ∃ start, start.next = middle.next + 1 ∧
      (∀ value after, level.braceDisplay.Reads tokens before value after →
        ∃ others, Lists .braceClose level.dictEntry tokens start others after ∧
          value = ⟨tokens.spanBetween before.next after.next, .dict (entry :: others)⟩) ∧
      (∀ others after, Lists .braceClose level.dictEntry tokens start others after →
        others.length < tokens.tokens.size →
        level.braceDisplay.Reads tokens before
          ⟨tokens.spanBetween before.next after.next, .dict (entry :: others)⟩ after) := by
  have hclose : tokens.kindAt before.step ≠ .braceClose := by
    simpa only [Tokens.kindAt_look] using kindAt_ne_braceClose_of_firstEntry hfirst
  rw [firstEntry, reads_entryBy] at hfirst
  simp only [Tokens.kindAt_look, Place.look_look] at hfirst
  split at hfirst
  case isTrue hmapping =>
    have hlater : level.dictEntry.Reads tokens ((before.step.look 0).look 0) entry middle := by
      rw [dictEntry_eq_entryBy, reads_entryBy, Place.look_look, Tokens.kindAt_look, if_pos hmapping]
      exact hfirst
    refine ⟨middle.step, rfl, fun value after hreads => ?_, fun others after hothers hlength => ?_⟩
    · rw [reads_braceDisplay, if_pos (.inr hmapping)] at hreads
      obtain ⟨-, entries, hentries, rfl⟩ := hreads
      cases Lists.of_reads hentries with
      | close hclosed => exact absurd hclosed hclose
      | last _ hentry hclosed =>
        cases hentry.symm.trans hlater
        cases hclosed.symm.trans hcomma
      | item _ hentry _ hothers =>
        cases hentry.symm.trans hlater
        exact ⟨_, hothers, rfl⟩
    · rw [reads_braceDisplay, if_pos (.inr hmapping)]
      have hlists : Lists .braceClose level.dictEntry tokens (before.step.look 0) (entry :: others)
          after := .item hclose hlater hcomma hothers
      exact ⟨hopen, _, hlists.reads (by decide) hlength, rfl⟩
  case isFalse hmapping =>
    obtain ⟨name, colon, hname, hcolon, bound, hbound, rfl⟩ := hfirst
    have hfor : ¬tokens.startsFor middle := by
      simp [Tokens.startsFor, hcomma]
    refine ⟨(middle.look 1).step, rfl, fun value after hreads => ?_,
      fun others after hothers hlength => ?_⟩
    · rw [reads_braceDisplay, if_neg (by simp [hclose, hmapping])] at hreads
      obtain ⟨-, name', colon', hname', hrest⟩ := hreads
      cases hname.symm.trans hname'
      rw [if_pos hcolon, reads_dictDisplay] at hrest
      obtain ⟨bound', middle', hbound', hrest⟩ := hrest
      cases hbound.symm.trans hbound'
      rw [if_neg hfor, if_pos (by rw [Tokens.kindAt_look, hcomma])] at hrest
      obtain ⟨others, hothers, rfl⟩ := hrest
      exact ⟨others, Lists.of_reads hothers, rfl⟩
    · rw [reads_braceDisplay, if_neg (by simp [hclose, hmapping])]
      refine ⟨hopen, name, colon, hname, ?_⟩
      rw [if_pos hcolon, reads_dictDisplay]
      refine ⟨bound, middle, hbound, ?_⟩
      rw [if_neg hfor, if_pos (by rw [Tokens.kindAt_look, hcomma])]
      exact ⟨others, hothers.reads (by decide) (Nat.le_of_lt hlength), rfl⟩

end Level

/-- From an index on stands a dict display of two runs. -/
structure Tokens.HasDict (tokens : Tokens) (start : Nat) (first second : List Token) : Prop where
  opens : (tokens.get start).kind = .braceOpen
  run_first : tokens.HasRun (start + 1) first
  comma : (tokens.get (start + 1 + first.length)).kind = .comma
  run_second : tokens.HasRun (start + 1 + first.length + 1) second
  closes : (tokens.get (start + 1 + first.length + 1 + second.length)).kind = .braceClose

instance {tokens : Tokens} {start : Nat} {first second : List Token} :
    Decidable (tokens.HasDict start first second) :=
  decidable_of_iff ((tokens.get start).kind = .braceOpen ∧ tokens.HasRun (start + 1) first ∧
      (tokens.get (start + 1 + first.length)).kind = .comma ∧
      tokens.HasRun (start + 1 + first.length + 1) second ∧
      (tokens.get (start + 1 + first.length + 1 + second.length)).kind = .braceClose)
    ⟨fun ⟨hopens, hfirst, hcomma, hsecond, hcloses⟩ => ⟨hopens, hfirst, hcomma, hsecond, hcloses⟩,
      fun ⟨hopens, hfirst, hcomma, hsecond, hcloses⟩ => ⟨hopens, hfirst, hcomma, hsecond, hcloses⟩⟩

section

open Level

variable {levels : Nat} {first second : List Token} {entry other : DictEntry}
  {tokens tokens' : Tokens} {place place' : Place}

/-- In front of the closing brace, a run that forms a first entry is the last of the later entries,
unless its key is starred or bound. -/
theorem Level.FormsFirst.lists_reads (hforms : (withInner levels).FormsFirst first entry)
    (hkey : ¬HasStarredOrBoundKey first) (hrun : tokens.HasRun place.next first)
    (hclose : (tokens.get (place.next + first.length)).kind = .braceClose) :
    ∃ entry' after, Lists .braceClose (withInner levels).dictEntry tokens place [entry'] after := by
  obtain ⟨_, _, -, hfirst, -⟩ := hforms.firstEntry_reads hrun (.inr hclose)
  obtain ⟨entry', last, hlast, hentry, -⟩ :=
    @dictEntry_reads _ _ _ tokens (place.look 0) hforms hkey hrun (.inr hclose)
  have hend : tokens.kindAt last = .braceClose := by
    rw [Tokens.kindAt, hlast]
    exact hclose
  exact ⟨entry', last.step, .last (kindAt_ne_braceClose_of_firstEntry hfirst) hentry hend⟩

/-- Conversely, nothing else is read as later entries from such a run. -/
theorem Level.FormsFirst.eq_of_lists (hforms : (withInner levels).FormsFirst first entry)
    (hrun : tokens.HasRun place.next first)
    (hclose : (tokens.get (place.next + first.length)).kind = .braceClose)
    {entries : List DictEntry} {after : Place}
    (hlists : Lists .braceClose (withInner levels).dictEntry tokens place entries after) :
    ¬HasStarredOrBoundKey first ∧ after.next = place.next + first.length + 1 ∧
      ∃ entry', entries = [entry'] ∧ entry.Alike .moved entry' := by
  obtain ⟨_, _, -, hfirst, -⟩ := hforms.firstEntry_reads hrun (.inr hclose)
  have hkey : ∀ {entry' last},
      (withInner levels).dictEntry.Reads tokens (place.look 0) entry' last →
        ¬HasStarredOrBoundKey first := fun hentry =>
    (hrun.starredOrBound_iff (.inr hclose)).not.mp
      (@not_starredOrBound_of_dictEntry _ _ (place.look 0) _ _ hentry)
  have hread : ∀ {entry' last},
      (withInner levels).dictEntry.Reads tokens (place.look 0) entry' last →
        last.next = place.next + first.length ∧ entry.Alike .moved entry' := by
    intro entry' last hentry
    obtain ⟨_, _, hlast, hentry', halike⟩ :=
      @dictEntry_reads _ _ _ tokens (place.look 0) hforms (hkey hentry) hrun (.inr hclose)
    cases hentry'.symm.trans hentry
    exact ⟨hlast, halike⟩
  cases hlists with
  | close hclosed => exact absurd hclosed (kindAt_ne_braceClose_of_firstEntry hfirst)
  | last _ hentry _ =>
    obtain ⟨hlast, halike⟩ := hread hentry
    exact ⟨hkey hentry, congrArg (· + 1) hlast, _, rfl, halike⟩
  | item _ hentry hcomma _ =>
    rw [Tokens.kindAt, (hread hentry).1, hclose] at hcomma
    cases hcomma

/-- A display of two runs that form first entries is a dict of these entries, if the key of the second
one is not starred or bound. Otherwise it is refused. -/
theorem Tokens.HasDict.braceDisplay_reads (hdict : tokens.HasDict place.next first second)
    (hfirst : (withInner levels).FormsFirst first entry)
    (hsecond : (withInner levels).FormsFirst second other) :
    ((∃ value after, (withInner levels).braceDisplay.Reads tokens place value after) ↔
        ¬HasStarredOrBoundKey second) ∧
      ∀ value after, (withInner levels).braceDisplay.Reads tokens place value after →
        after.next = place.next + 1 + first.length + 1 + second.length + 1 ∧
          value.withoutSpans = ⟨.point 0, .dict (dictEntriesWithoutSpans [entry, other])⟩ := by
  obtain ⟨hopen, hrun, hcomma, hrun', hclose⟩ := hdict
  obtain ⟨entry', middle, hmiddle, hentry, halike⟩ :=
    @FormsFirst.firstEntry_reads _ _ _ tokens (place.step.look 0) hfirst hrun (.inl hcomma)
  rw [Place.look_next, Place.step_next] at hmiddle
  rw [← hmiddle] at hcomma hrun' hclose
  obtain ⟨start, hstart, hlater, hdisplay⟩ := exists_later_of_firstEntry hopen hentry hcomma
  rw [← hstart] at hrun' hclose
  have hread : ∀ {value after}, (withInner levels).braceDisplay.Reads tokens place value after →
      ¬HasStarredOrBoundKey second ∧
        after.next = place.next + 1 + first.length + 1 + second.length + 1 ∧
        value.withoutSpans = ⟨.point 0, .dict (dictEntriesWithoutSpans [entry, other])⟩ := by
    intro value after hreads
    obtain ⟨others, hothers, rfl⟩ := hlater value after hreads
    obtain ⟨hkey, hafter, other', rfl, halike'⟩ := hsecond.eq_of_lists hrun' hclose hothers
    refine ⟨hkey, by omega, ?_⟩
    rw [Expr.withoutSpans, ExprForm.withoutSpans,
      dictEntriesWithoutSpans_congr (.cons halike (.cons halike' .nil))]
  refine ⟨⟨fun ⟨_, _, hreads⟩ => (hread hreads).1, fun hkey => ?_⟩,
    fun _ _ hreads => (hread hreads).2⟩
  obtain ⟨other', after, hothers⟩ := hsecond.lists_reads hkey hrun' hclose
  have hsize := Tokens.lt_size_of_endsEntry (.inr hclose)
  exact ⟨_, _, hdisplay _ _ hothers (by rw [List.length_singleton]; omega)⟩

/-- What a display of two runs that form entries is read as when its entries change places. Each of
the displays is read just if the key of the entry that is second in it is not starred or bound, and
the entries that are read are the same ones, in the order in which they stand. Where the key of the
first one is starred or bound, it stays so in the tree. -/
theorem Level.braceDisplay_swap (hfirst : (withInner levels).FormsEntry first entry)
    (hsecond : (withInner levels).FormsEntry second other)
    (hdict : tokens.HasDict place.next first second)
    (hdict' : tokens'.HasDict place'.next second first) :
    ((∃ value after, (withInner levels).braceDisplay.Reads tokens place value after) ↔
        ¬HasStarredOrBoundKey second) ∧
      ((∃ value after, (withInner levels).braceDisplay.Reads tokens' place' value after) ↔
        ¬HasStarredOrBoundKey first) ∧
      (∀ value after, (withInner levels).braceDisplay.Reads tokens place value after →
        value.withoutSpans = ⟨.point 0, .dict (dictEntriesWithoutSpans [entry, other])⟩) ∧
      (∀ value after, (withInner levels).braceDisplay.Reads tokens' place' value after →
        value.withoutSpans = ⟨.point 0, .dict (dictEntriesWithoutSpans [other, entry])⟩) ∧
      (HasStarredOrBoundKey first → ∃ key, entry.key = some key ∧ key.StarredOrNamed) := by
  obtain ⟨entry', hfirst', hentry, hkept⟩ := hfirst.exists_first
  obtain ⟨other', hsecond', hother, -⟩ := hsecond.exists_first
  obtain ⟨hiff, hread⟩ := hdict.braceDisplay_reads hfirst' hsecond'
  obtain ⟨hiff', hread'⟩ := hdict'.braceDisplay_reads hsecond' hfirst'
  rw [dictEntriesWithoutSpans_cons, hentry, hother, ← dictEntriesWithoutSpans_cons] at hread
  rw [dictEntriesWithoutSpans_cons, hentry, hother, ← dictEntriesWithoutSpans_cons] at hread'
  refine ⟨hiff, hiff', fun _ _ hreads => (hread _ _ hreads).2,
    fun _ _ hreads => (hread' _ _ hreads).2, fun hkey => ?_⟩
  exact hkept hkey ▸ hfirst'.key_starredOrNamed hkey

end

/-- The tokens in front of the first comma. -/
def Tokens.untilComma (tokens : Tokens) : List Token :=
  tokens.tokens.toList.takeWhile (·.kind != .comma)

/-- An entry with a starred key is read if it comes first, and is not if it comes second. -/
theorem Level.braceDisplay_swap_starred :
    (∃ value after, (withInner 1).braceDisplay.Reads (.ofSource "{*a: 1, b: 2}") .start value after) ∧
      ¬∃ value after,
        (withInner 1).braceDisplay.Reads (.ofSource "{b: 2, *a: 1}") .start value after := by
  have hforms : ∀ source, (match (withInner 1).firstEntry (.ofSource source) .start with
      | .ok _ after => after.next == (Tokens.ofSource source).untilComma.length &&
        (Tokens.ofSource source).kindAt after == .comma
      | .error _ _ => false) = true →
      (Tokens.ofSource source).HasRun 0 (Tokens.ofSource source).untilComma →
      ∃ entry, (withInner 1).FormsEntry (Tokens.ofSource source).untilComma entry := by
    intro source hread hrun
    cases hresult : (withInner 1).firstEntry (.ofSource source) .start with
    | error =>
      rw [hresult] at hread
      cases hread
    | ok entry after =>
      rw [hresult] at hread
      obtain ⟨hafter, hcomma⟩ := (Bool.and_eq_true _ _).mp hread
      refine ⟨entry, .ofSource source, .start, after, Tokens.inOrder_ofSource source, hrun, ?_,
        .inl (beq_iff_eq.mp hcomma), .inl hresult⟩
      rw [beq_iff_eq.mp hafter, Place.start, Nat.zero_add]
  obtain ⟨entry, hfirst⟩ := hforms "*a: 1," (by decide +kernel) (by decide +kernel)
  obtain ⟨other, hsecond⟩ := hforms "b: 2," (by decide +kernel) (by decide +kernel)
  obtain ⟨hiff, hiff', -⟩ := @braceDisplay_swap 1 _ _ _ _ (.ofSource "{*a: 1, b: 2}")
    (.ofSource "{b: 2, *a: 1}") .start .start hfirst hsecond (by decide +kernel) (by decide +kernel)
  exact ⟨hiff.mpr (by decide +kernel), hiff'.not.mpr (not_not.mpr (by decide +kernel))⟩

/-- So a module may have a display with a starred key that it may not have with its
entries swapped. -/
theorem parseModule_starredKey :
    (parseModule "{*a: 1, b: 2}\n").isOk ∧ (parseModule "{b: 2, *a: 1}\n").isOk = false := by
  decide +kernel

end PythonOutline
