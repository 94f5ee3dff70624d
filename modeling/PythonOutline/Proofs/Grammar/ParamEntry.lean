import PythonOutline.Proofs.Grammar.Param
import PythonOutline.Proofs.Parser.Ensures

/-! # The entries of a parameter list

A parameter list is a run of entries: parameters, a `/` and a `*` alone. The loop that reads it
keeps the parameters it has met and three flags. `ParamsState.Step` says once what an entry does to
them; all that holds of a parameter list follows by an induction over the run. Which kinds the
parameters have in the end depends on where the `/` and the `*` stand. -/

namespace PythonOutline

/-- An entry of a parameter list, by how it is written. -/
inductive ParamEntry where
  /-- `/` -/
  | slash
  /-- `*` -/
  | star
  /-- `name` -/
  | plain (param : Param)
  /-- `*name` -/
  | starred (param : Param)
  /-- `**name` -/
  | mapping (param : Param)

namespace ParamEntry

/-- The parameter of an entry. -/
def param? : ParamEntry → Option Param
  | .plain param | .starred param | .mapping param => some param
  | .slash | .star => none

/-- Whether an entry starts with a single `*`. -/
def IsStar : ParamEntry → Prop
  | .star | .starred _ => True
  | _ => False

end ParamEntry

/-- A parameter as a positional-only one. -/
def Param.positional (param : Param) : Param :=
  { param with kind := .positionalOnly }

/-! ## Steps over entries -/

namespace Level

open PythonOutline.Parser

/-- What an entry of a parameter list does to the state of the loop. -/
inductive ParamsState.Step (state : ParamsState) : ParamEntry → ParamsState → Prop where
  | slash (hkeywordOnly : state.keywordOnly = false)
      (hregular : ∀ param ∈ state.params, param.kind ≠ .positionalOnly) :
      Step state .slash { state with params := state.params.map Param.positional }
  | star (hkeywordOnly : state.keywordOnly = false) :
      Step state .star { state with keywordOnly := true }
  | regular {param : Param} (hkeywordOnly : state.keywordOnly = false)
      (hkind : param.kind = .regular)
      (hdefault : param.defaultValue = none → state.seenDefault = false) :
      Step state (.plain param)
        { state with
          params := param :: state.params
          seenDefault := state.seenDefault || param.defaultValue.isSome }
  | keywordOnly {param : Param} (hkeywordOnly : state.keywordOnly = true)
      (hkind : param.kind = .keywordOnly) :
      Step state (.plain param) { state with params := param :: state.params }
  | starred {param : Param} (hkeywordOnly : state.keywordOnly = false)
      (hkind : param.kind = .varPositional) (hdefault : param.defaultValue = none) :
      Step state (.starred param)
        { state with params := param :: state.params, keywordOnly := true }
  | mapping {param : Param} (hkind : param.kind = .varKeyword)
      (hdefault : param.defaultValue = none) :
      Step state (.mapping param)
        { state with params := param :: state.params, seenVarKeyword := true }

/-- A run of entries, none of which stands behind a `**` parameter. -/
inductive ParamsState.Steps : ParamsState → List ParamEntry → ParamsState → Prop where
  | nil (state : ParamsState) : Steps state [] state
  | cons {state next result : ParamsState} {entry : ParamEntry} {entries : List ParamEntry}
      (hopen : state.seenVarKeyword = false) (hstep : state.Step entry next)
      (hrest : Steps next entries result) : Steps state (entry :: entries) result

/-- An entry was read from its tokens. The kind of a plain parameter is not written there. -/
inductive ReadsEntry (level : Level) (typeHints : Bool) (tokens : Tokens) :
    Place → ParamEntry → Place → Prop where
  | slash {before : Place} (hslash : tokens.kindAt before = .slash) :
      ReadsEntry level typeHints tokens before .slash before.step
  | star {before : Place} (hstar : tokens.kindAt before = .asterisk)
      (hcomma : tokens.kindAt before.step = .comma) :
      ReadsEntry level typeHints tokens before .star (before.step.look 0)
  | plain {before after : Place} {param : Param} {kind : ParamKind}
      (hkind : kind = .regular ∨ kind = .keywordOnly)
      (hparam : (level.param kind typeHints).Reads tokens (before.look 0) { param with kind } after) :
      ReadsEntry level typeHints tokens before (.plain param) after
  | starred {before after : Place} {param : Param} (hstar : tokens.kindAt before = .asterisk)
      (hparam : (level.param .varPositional typeHints).Reads tokens (before.step.look 0) param
        after) :
      ReadsEntry level typeHints tokens before (.starred param) after
  | mapping {before after : Place} {param : Param}
      (hstars : tokens.kindAt before = .asteriskAsterisk)
      (hparam : (level.param .varKeyword typeHints).Reads tokens before.step param after) :
      ReadsEntry level typeHints tokens before (.mapping param) after

/-- Entries with commas between them were read up to a closing token, which was taken. -/
inductive ReadsEntries (level : Level) (close : TokenKind) (typeHints : Bool) (tokens : Tokens) :
    Place → List ParamEntry → Place → Prop where
  | close {before : Place} (hclose : tokens.kindAt before = close) :
      ReadsEntries level close typeHints tokens before [] before.step
  | last {before middle : Place} {entry : ParamEntry}
      (hentry : level.ReadsEntry typeHints tokens (before.look 0) entry middle)
      (hclose : tokens.kindAt middle = close) :
      ReadsEntries level close typeHints tokens before [entry] middle.step
  | entry {before middle after : Place} {entry : ParamEntry} {entries : List ParamEntry}
      (hentry : level.ReadsEntry typeHints tokens (before.look 0) entry middle)
      (hcomma : tokens.kindAt middle = .comma)
      (hrest : ReadsEntries level close typeHints tokens middle.step entries after) :
      ReadsEntries level close typeHints tokens before (entry :: entries) after

variable {level : Level} {close : TokenKind} {typeHints : Bool} {tokens : Tokens}
  {before after : Place} {state state' result : ParamsState} {entries : List ParamEntry}

private theorem param_kind {kind : ParamKind} {param : Param}
    (hreads : (level.param kind typeHints).Reads tokens before param after) : param.kind = kind := by
  obtain ⟨-, _, _, _, -, -, rfl⟩ := reads_param hreads
  rfl

private theorem param_defaultValue {kind : ParamKind} {param : Param}
    (hreads : (level.param kind typeHints).Reads tokens before param after)
    (hkind : kind = .varPositional ∨ kind = .varKeyword) : param.defaultValue = none := by
  obtain ⟨-, _, _, _, -, hdefault, rfl⟩ := reads_param hreads
  rw [if_pos hkind] at hdefault
  exact hdefault.1

/-- A plain entry is read with the kind that its parameter has so far. -/
theorem ReadsEntry.of_param {kind : ParamKind} {param : Param}
    (hkind : kind = .regular ∨ kind = .keywordOnly)
    (hreads : (level.param kind typeHints).Reads tokens (before.look 0) param after) :
    level.ReadsEntry typeHints tokens before (.plain param) after := by
  obtain rfl := param_kind hreads
  cases param
  exact .plain hkind hreads

private theorem closePositional?_eq_some (hclosed : closePositional? state = some state') :
    state.keywordOnly = false ∧ (∀ param ∈ state.params, param.kind ≠ .positionalOnly) ∧
      state' = { state with params := state.params.map Param.positional } := by
  unfold closePositional? at hclosed
  split at hclosed
  · cases hclosed
  · rename_i hmay
    simp only [Bool.or_eq_true, not_or, List.any_eq_true, decide_eq_true_eq, not_exists, not_and,
      Bool.not_eq_true] at hmay
    cases hclosed
    exact ⟨hmay.1.1, hmay.2, rfl⟩

/-- An entry is read only where no `**` parameter stands before, and does one of the steps. -/
theorem paramsEntry_step
    (hreads : (level.paramsEntry typeHints state).Reads tokens before state' after) :
    state.seenVarKeyword = false ∧
      ∃ entry, level.ReadsEntry typeHints tokens before entry after ∧ state.Step entry state' := by
  obtain ⟨hopen, hrest⟩ := reads_paramsEntry.mp hreads
  refine ⟨hopen, ?_⟩
  split at hrest
  case h_1 _ hslash =>
    obtain ⟨rfl, hclosed⟩ := hrest
    obtain ⟨hkeywordOnly, hregular, rfl⟩ := closePositional?_eq_some hclosed
    exact ⟨.slash, .slash hslash, .slash hkeywordOnly hregular⟩
  case h_2 hstar hkeywordOnly =>
    split at hrest
    · rename_i hcomma
      obtain ⟨rfl, rfl⟩ := hrest
      exact ⟨.star, .star hstar hcomma, .star hkeywordOnly⟩
    · obtain ⟨param, hparam, rfl⟩ := hrest
      exact ⟨.starred param, .starred hstar hparam,
        .starred hkeywordOnly (param_kind hparam) (param_defaultValue hparam (.inl rfl))⟩
  case h_3 _ hstars =>
    obtain ⟨param, hparam, rfl⟩ := hrest
    exact ⟨.mapping param, .mapping hstars hparam,
      .mapping (param_kind hparam) (param_defaultValue hparam (.inr rfl))⟩
  case h_4 hkeywordOnly _ _ =>
    obtain ⟨param, hparam, rfl⟩ := hrest
    exact ⟨.plain param, .of_param (.inr rfl) hparam, .keywordOnly hkeywordOnly (param_kind hparam)⟩
  case h_5 hkeywordOnly _ _ _ =>
    obtain ⟨param, hparam, hdefault, rfl⟩ := hrest
    refine ⟨.plain param, .of_param (.inl rfl) hparam,
      .regular hkeywordOnly (param_kind hparam) fun hnone => ?_⟩
    simpa [hnone] using hdefault

/-- What a parameter list brings is what its entries bring, one after another. -/
theorem Enters.steps (henters : level.Enters close typeHints tokens state before result after) :
    ∃ entries, level.ReadsEntries close typeHints tokens before entries after ∧
      state.Steps entries result := by
  induction henters with
  | close hclose => exact ⟨[], .close hclose, .nil _⟩
  | last _ hentry hclose =>
    obtain ⟨hopen, entry, hreads, hstep⟩ := paramsEntry_step hentry
    exact ⟨[entry], .last hreads hclose, .cons hopen hstep (.nil _)⟩
  | entry _ hentry hcomma _ ih =>
    obtain ⟨hopen, entry, hreads, hstep⟩ := paramsEntry_step hentry
    obtain ⟨entries, hentries, hsteps⟩ := ih
    exact ⟨entry :: entries, .entry hreads hcomma hentries, .cons hopen hstep hsteps⟩

end Level

/-! ## Where the `/` and the `*` stand -/

namespace ParamEntry

/-- Whether an entry is a `/`. -/
def isSlash : ParamEntry → Bool
  | .slash => true
  | _ => false

@[simp]
theorem any_isSlash {entries : List ParamEntry} : entries.any isSlash ↔ .slash ∈ entries := by
  induction entries with
  | nil => simp
  | cons entry others ih => cases entry <;> simp [isSlash, ih]

/-- An entry with the kind that its parameter has in the end, given whether a `/` stands
behind it. -/
def settled (closed : Bool) : ParamEntry → ParamEntry
  | .plain param => .plain (if closed then param.positional else param)
  | entry => entry

/-- The entries with the kinds that their parameters have in the end. -/
def settle : List ParamEntry → List ParamEntry
  | [] => []
  | entry :: others => entry.settled (others.any isSlash) :: settle others

@[simp]
theorem slash_mem_settle {entries : List ParamEntry} : .slash ∈ settle entries ↔ .slash ∈ entries := by
  induction entries with
  | nil => rfl
  | cons entry others ih => cases entry <;> simp [settle, settled, ih]

/-- A parameter is positional-only if a `/` stands behind it and only then, and keyword-only only
behind a `*`, which may be one that stands in front of all entries. -/
def Stands (starred : Bool) (entries : List ParamEntry) : Prop :=
  ∀ ⦃front entry behind⦄, entries = front ++ entry :: behind → ∀ param ∈ entry.param?,
    (param.kind = .positionalOnly ↔ .slash ∈ behind) ∧
    (param.kind = .keywordOnly → starred = true ∨ ∃ earlier ∈ front, earlier.IsStar)

private theorem stands_nil {starred : Bool} : Stands starred [] := by
  intro front entry behind hentries
  simp at hentries

/-- The entries behind one that starts with a `*` stand behind it. -/
theorem Stands.cons {starred starred' : Bool} {entry : ParamEntry} {entries : List ParamEntry}
    (hentry : ∀ param ∈ entry.param?, (param.kind = .positionalOnly ↔ .slash ∈ entries) ∧
      (param.kind = .keywordOnly → starred = true))
    (hstar : starred' = true → starred = true ∨ entry.IsStar) (hstands : Stands starred' entries) :
    Stands starred (entry :: entries) := by
  intro front found behind hentries param hparam
  rcases List.cons_eq_append_iff.mp hentries with ⟨rfl, hfound⟩ | ⟨others, rfl, rfl⟩
  · obtain ⟨rfl, rfl⟩ := List.cons.inj hfound
    exact ⟨(hentry param hparam).1, fun hkind => .inl ((hentry param hparam).2 hkind)⟩
  · obtain ⟨hpositional, hkeyword⟩ := hstands rfl param hparam
    refine ⟨hpositional, fun hkind => ?_⟩
    rcases hkeyword hkind with hstarred | ⟨earlier, hearlier, hisStar⟩
    · exact (hstar hstarred).imp_right fun hisStar => ⟨entry, List.mem_cons_self, hisStar⟩
    · exact .inr ⟨earlier, List.mem_cons_of_mem _ hearlier, hisStar⟩

end ParamEntry

namespace Level

open PythonOutline.Parser PythonOutline.ParamEntry

variable {level : Level} {close : TokenKind} {typeHints : Bool} {tokens : Tokens}
  {before after : Place} {state state' result : ParamsState} {entries : List ParamEntry}

/-- An entry is written the same whether a `/` stands behind it or not. -/
theorem ReadsEntry.settled {entry : ParamEntry} {closed : Bool}
    (hreads : level.ReadsEntry typeHints tokens before entry after) :
    level.ReadsEntry typeHints tokens before (entry.settled closed) after := by
  cases hreads with
  | slash hslash => exact .slash hslash
  | star hstar hcomma => exact .star hstar hcomma
  | starred hstar hparam => exact .starred hstar hparam
  | mapping hstars hparam => exact .mapping hstars hparam
  | plain hkind hparam =>
    refine .plain hkind ?_
    split
    · exact hparam
    · exact hparam

private theorem ReadsEntries.settle
    (hreads : level.ReadsEntries close typeHints tokens before entries after) :
    level.ReadsEntries close typeHints tokens before (ParamEntry.settle entries) after := by
  induction hreads with
  | close hclose => exact .close hclose
  | last hentry hclose => exact .last hentry.settled hclose
  | entry hentry hcomma _ ih => exact .entry hentry.settled hcomma ih

namespace ParamsState

/-- No `/` stands behind a `*`. -/
theorem Steps.slash_not_mem (hsteps : state.Steps entries result)
    (hkeywordOnly : state.keywordOnly = true) : .slash ∉ entries := by
  induction hsteps with
  | nil => exact List.not_mem_nil
  | cons _ hstep _ ih =>
    cases hstep with
    | slash hfree | star hfree | regular hfree | starred hfree =>
      rw [hfree] at hkeywordOnly
      cases hkeywordOnly
    | keywordOnly | mapping => simpa using ih hkeywordOnly

/-- Nothing stands behind a `**` parameter. -/
theorem Steps.eq_nil (hsteps : state.Steps entries result) (hseen : state.seenVarKeyword = true) :
    entries = [] := by
  cases hsteps with
  | nil => rfl
  | cons hopen =>
    rw [hopen] at hseen
    cases hseen

/-- Parameters that were entered one after another stand in order. -/
theorem Steps.stands (hsteps : state.Steps entries result) :
    Stands state.keywordOnly (settle entries) := by
  induction hsteps with
  | nil => exact stands_nil
  | @cons state next _ entry entries _ hstep hrest ih =>
    cases hstep with
    | slash => exact ih.cons (by simp [settled, param?]) .inl
    | star => exact ih.cons (by simp [settled, param?]) fun _ => .inr trivial
    | regular _ hkind =>
      refine ih.cons ?_ .inl
      rw [slash_mem_settle, ← any_isSlash]
      cases entries.any isSlash <;> simp [settled, param?, Param.positional, hkind]
    | keywordOnly hkeywordOnly hkind =>
      -- The `*` that it needs stands in front of the run, where the flag was raised.
      refine ih.cons ?_ .inl
      have hclosed := hrest.slash_not_mem hkeywordOnly
      rw [slash_mem_settle, ← any_isSlash] at *
      simp [settled, param?, hkind, hclosed, hkeywordOnly]
    | starred _ hkind =>
      have hclosed := hrest.slash_not_mem rfl
      exact ih.cons (by simp [settled, param?, hkind, hclosed]) fun _ => .inr trivial
    | mapping hkind =>
      obtain rfl := hrest.eq_nil rfl
      exact ih.cons (by simp [settled, settle, param?, hkind]) .inl

/-- The parameters that are there before a run become positional-only by a `/` in it. -/
theorem Steps.params_eq (hsteps : state.Steps entries result) :
    result.params.reverse =
      (if entries.any isSlash then state.params.map Param.positional else state.params).reverse ++
        (settle entries).filterMap param? := by
  induction hsteps with
  | nil => simp [settle]
  | @cons state next _ entry entries _ hstep hrest ih =>
    rw [ih]
    cases hstep with
    | slash =>
      -- What is positional-only already stays so, whether another `/` stands behind or not.
      have hpositional : Param.positional ∘ Param.positional = Param.positional := rfl
      cases entries.any isSlash <;>
        simp [settle, settled, List.filterMap_cons, param?, isSlash, hpositional]
    | star => simp [settle, settled, List.filterMap_cons, param?, isSlash]
    | regular | keywordOnly =>
      cases hslash : entries.any isSlash <;> simp [settle, settled, param?, isSlash, hslash]
    | starred =>
      have hslash := mt any_isSlash.mp (hrest.slash_not_mem rfl)
      simp [settle, settled, param?, isSlash, hslash]
    | mapping =>
      obtain rfl := hrest.eq_nil rfl
      simp [settle, settled, param?, isSlash]

end ParamsState

/-! ## What is read of a parameter list -/

variable {params : List Param}

/-- The parameters of a header are those of its entries, which are told by their tokens. -/
theorem params_entries (hreads : (level.params close typeHints).Reads tokens before params after) :
    ∃ entries, level.ReadsEntries close typeHints tokens before entries after ∧
      params = entries.filterMap param? ∧ Stands false entries := by
  obtain ⟨result, henters, rfl⟩ := reads_params hreads
  obtain ⟨entries, hentries, hsteps⟩ := henters.steps
  exact ⟨settle entries, hentries.settle, by simpa using hsteps.params_eq, hsteps.stands⟩

section

variable {property : Param → Prop}
  (hkind : ∀ {param : Param} {kind : ParamKind}, property { param with kind } → property param)
  (hparam : ∀ kind, (level.param kind typeHints).Ensures tokens property)

include hkind hparam

private theorem ReadsEntry.forall_param {entry : ParamEntry}
    (hreads : level.ReadsEntry typeHints tokens before entry after) :
    ∀ param ∈ entry.param?, property param := by
  cases hreads with
  | slash | star => simp [param?]
  | plain _ hreads => simpa [param?] using hkind (hparam _ hreads)
  | starred _ hreads | mapping _ hreads => simpa [param?] using hparam _ hreads

/-- Entries bring nothing but what the parser of a parameter reads, the kinds apart. -/
theorem params_ensures : (level.params close typeHints).Ensures tokens
    fun params => ∀ param ∈ params, property param := by
  intro before params after hreads
  obtain ⟨entries, hentries, rfl, -⟩ := params_entries hreads
  suffices hall : ∀ entry ∈ entries, ∀ param ∈ entry.param?, property param by
    intro param hmem
    obtain ⟨entry, hentry, hparam⟩ := List.mem_filterMap.mp hmem
    exact hall entry hentry param hparam
  clear hreads
  induction hentries with
  | close => exact List.forall_mem_nil _
  | last hentry => exact List.forall_mem_singleton.mpr (hentry.forall_param hkind hparam)
  | entry hentry _ _ ih => exact List.forall_mem_cons.mpr ⟨hentry.forall_param hkind hparam, ih⟩

end

end Level

end PythonOutline
