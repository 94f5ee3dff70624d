import PythonOutline.Proofs.Grammar.ParamEntry

/-! # The order of parameters

The parameters of a header come in the order of their kinds, whatever entries it has. The loop that
reads them keeps the order with each entry it takes, as its flags refuse the entries that would
break it. -/

namespace PythonOutline

/-- The parameters that have a default are the last ones. -/
def DefaultsLast (params : List Param) : Prop :=
  params.filter (fun param => param.defaultValue.isSome) <:+ params

private theorem DefaultsLast.concat {params : List Param} {param : Param}
    (hdefaults : DefaultsLast params)
    (hparam : param.defaultValue = none → ∀ earlier ∈ params, earlier.defaultValue = none) :
    DefaultsLast (params ++ [param]) := by
  unfold DefaultsLast at *
  rw [List.filter_append]
  cases hdefault : param.defaultValue with
  | none =>
    have hfilter : params.filter (fun param => param.defaultValue.isSome) = [] := by
      simpa using hparam hdefault
    simp [hfilter, hdefault]
  | some value =>
    obtain ⟨front, hfront⟩ := hdefaults
    exact ⟨front, by simp [← List.append_assoc, hfront, hdefault]⟩

/-- A `/` changes nothing about the defaults in front of it. -/
theorem DefaultsLast.positional {params : List Param} (hdefaults : DefaultsLast params) :
    DefaultsLast (params.map Param.positional) := by
  unfold DefaultsLast at *
  rw [List.filter_map]
  exact hdefaults.map _

/-- The parameters of a header by their kinds. -/
structure Signature where
  positionalOnly : List Param
  regular : List Param
  varPositional : Option Param
  keywordOnly : List Param
  varKeyword : Option Param
  positionalOnly_kind : ∀ param ∈ positionalOnly, param.kind = .positionalOnly
  regular_kind : ∀ param ∈ regular, param.kind = .regular
  varPositional_kind : ∀ param ∈ varPositional, param.kind = .varPositional
  keywordOnly_kind : ∀ param ∈ keywordOnly, param.kind = .keywordOnly
  varKeyword_kind : ∀ param ∈ varKeyword, param.kind = .varKeyword
  defaultsLast : DefaultsLast (positionalOnly ++ regular)
  varPositional_default : ∀ param ∈ varPositional, param.defaultValue = none
  varKeyword_default : ∀ param ∈ varKeyword, param.defaultValue = none

/-- The parameters in the order of their kinds. -/
def Signature.params (signature : Signature) : List Param :=
  signature.positionalOnly ++ signature.regular ++ signature.varPositional.toList ++
    signature.keywordOnly ++ signature.varKeyword.toList

namespace Level.ParamsState

open PythonOutline.Parser PythonOutline.ParamEntry

variable {state state' result : ParamsState} {entry : ParamEntry} {entries : List ParamEntry}
  {signature : Signature}

/-- A state whose parameters come in the order of their kinds, with what its flags tell
about them. -/
structure Sorts (state : ParamsState) (signature : Signature) : Prop where
  params_eq : state.params.reverse = signature.params
  unstarred : state.keywordOnly = false →
    signature.varPositional = none ∧ signature.keywordOnly = []
  unmapped : state.seenVarKeyword = false → signature.varKeyword = none
  undefaulted : state.seenDefault = false →
    ∀ param ∈ signature.positionalOnly ++ signature.regular, param.defaultValue = none

/-- No parameters at all. -/
def noParams : Signature where
  positionalOnly := []
  regular := []
  varPositional := none
  keywordOnly := []
  varKeyword := none
  positionalOnly_kind := by simp
  regular_kind := by simp
  varPositional_kind := by simp
  keywordOnly_kind := by simp
  varKeyword_kind := by simp
  defaultsLast := List.suffix_refl _
  varPositional_default := by simp
  varKeyword_default := by simp

private theorem sorts_noParams : Sorts ⟨[], false, false, false⟩ noParams :=
  ⟨rfl, fun _ => ⟨rfl, rfl⟩, fun _ => rfl, by simp [noParams]⟩

namespace Sorts

variable {param : Param} (hsorts : state.Sorts signature) (hopen : state.seenVarKeyword = false)

include hsorts hopen

/-- A `/` comes where all parameters are regular, and makes them positional-only. -/
theorem closePositional (hkeywordOnly : state.keywordOnly = false)
    (hregular : ∀ param ∈ state.params, param.kind ≠ .positionalOnly) :
    ∃ signature', Sorts { state with params := state.params.map Param.positional } signature' := by
  obtain ⟨hvariadic, hkeywords⟩ := hsorts.unstarred hkeywordOnly
  have hmapping := hsorts.unmapped hopen
  have hparams := hsorts.params_eq
  -- A second `/` is refused, so no parameter is positional-only yet.
  have hpositional : signature.positionalOnly = [] := by
    refine List.eq_nil_iff_forall_not_mem.mpr fun param hparam => ?_
    have hmem : param ∈ state.params.reverse := by simp [hparams, Signature.params, hparam]
    exact hregular param (List.mem_reverse.mp hmem) (signature.positionalOnly_kind param hparam)
  refine ⟨{
    signature with
    positionalOnly := signature.regular.map Param.positional
    regular := []
    positionalOnly_kind := by simp [Param.positional]
    regular_kind := List.forall_mem_nil _
    defaultsLast := by simpa [hpositional] using signature.defaultsLast.positional },
    ?_, fun _ => ⟨hvariadic, hkeywords⟩, hsorts.unmapped, fun hseen => ?_⟩
  · simpa [Signature.params, hpositional, hvariadic, hkeywords, hmapping] using
      congrArg (List.map Param.positional) hparams
  · simpa [hpositional, Param.positional] using hsorts.undefaulted hseen

/-- A regular parameter goes behind the others; one without a default comes before all that have
one. -/
private theorem addRegular (hkeywordOnly : state.keywordOnly = false)
    (hkind : param.kind = .regular)
    (hdefault : param.defaultValue = none → state.seenDefault = false) :
    ∃ signature', Sorts
      { state with
        params := param :: state.params
        seenDefault := state.seenDefault || param.defaultValue.isSome } signature' := by
  obtain ⟨hvariadic, hkeywords⟩ := hsorts.unstarred hkeywordOnly
  have hmapping := hsorts.unmapped hopen
  have hlast : DefaultsLast (signature.positionalOnly ++ signature.regular ++ [param]) :=
    signature.defaultsLast.concat fun hnone => hsorts.undefaulted (hdefault hnone)
  refine ⟨{
    signature with
    regular := signature.regular ++ [param]
    regular_kind := List.forall_mem_append.mpr
      ⟨signature.regular_kind, List.forall_mem_singleton.mpr hkind⟩
    defaultsLast := List.append_assoc .. ▸ hlast },
    ?_, fun _ => ⟨hvariadic, hkeywords⟩, hsorts.unmapped, fun hseen => ?_⟩
  · simp [hsorts.params_eq, Signature.params, hvariadic, hkeywords, hmapping]
  · obtain ⟨hundefaulted, hnone⟩ := Bool.or_eq_false_iff.mp hseen
    rw [← List.append_assoc]
    exact List.forall_mem_append.mpr
      ⟨hsorts.undefaulted hundefaulted, List.forall_mem_singleton.mpr (by simpa using hnone)⟩

private theorem addKeywordOnly (hkeywordOnly : state.keywordOnly = true)
    (hkind : param.kind = .keywordOnly) :
    ∃ signature', Sorts { state with params := param :: state.params } signature' := by
  have hmapping := hsorts.unmapped hopen
  refine ⟨{
    signature with
    keywordOnly := signature.keywordOnly ++ [param]
    keywordOnly_kind := List.forall_mem_append.mpr
      ⟨signature.keywordOnly_kind, List.forall_mem_singleton.mpr hkind⟩ },
    ?_, fun hfree => ?_, hsorts.unmapped, hsorts.undefaulted⟩
  · simp [hsorts.params_eq, Signature.params, hmapping]
  · exact absurd hkeywordOnly (Bool.eq_false_iff.mp hfree)

private theorem addVarPositional (hkeywordOnly : state.keywordOnly = false)
    (hkind : param.kind = .varPositional) (hdefault : param.defaultValue = none) :
    ∃ signature', Sorts { state with params := param :: state.params, keywordOnly := true }
      signature' := by
  obtain ⟨hvariadic, hkeywords⟩ := hsorts.unstarred hkeywordOnly
  have hmapping := hsorts.unmapped hopen
  refine ⟨{
    signature with
    varPositional := some param
    varPositional_kind := by simpa using hkind
    varPositional_default := by simpa using hdefault },
    ?_, nofun, hsorts.unmapped, hsorts.undefaulted⟩
  simp [hsorts.params_eq, Signature.params, hvariadic, hkeywords, hmapping]

private theorem addVarKeyword (hkind : param.kind = .varKeyword)
    (hdefault : param.defaultValue = none) :
    ∃ signature', Sorts { state with params := param :: state.params, seenVarKeyword := true }
      signature' := by
  have hmapping := hsorts.unmapped hopen
  refine ⟨{
    signature with
    varKeyword := some param
    varKeyword_kind := by simpa using hkind
    varKeyword_default := by simpa using hdefault },
    ?_, hsorts.unstarred, nofun, hsorts.undefaulted⟩
  simp [hsorts.params_eq, Signature.params, hmapping]

/-- Each step keeps the parameters in the order of their kinds. -/
theorem step (hstep : state.Step entry state') : ∃ signature', state'.Sorts signature' := by
  cases hstep with
  | slash hkeywordOnly hregular => exact hsorts.closePositional hopen hkeywordOnly hregular
  | star hkeywordOnly =>
    exact ⟨signature, hsorts.params_eq, nofun, hsorts.unmapped, hsorts.undefaulted⟩
  | regular hkeywordOnly hkind hdefault => exact hsorts.addRegular hopen hkeywordOnly hkind hdefault
  | keywordOnly hkeywordOnly hkind => exact hsorts.addKeywordOnly hopen hkeywordOnly hkind
  | starred hkeywordOnly hkind hdefault =>
    exact hsorts.addVarPositional hopen hkeywordOnly hkind hdefault
  | mapping hkind hdefault => exact hsorts.addVarKeyword hopen hkind hdefault

end Sorts

private theorem Steps.sorts (hsteps : state.Steps entries result) (hsorts : state.Sorts signature) :
    ∃ signature', result.Sorts signature' := by
  induction hsteps generalizing signature with
  | nil => exact ⟨signature, hsorts⟩
  | cons hopen hstep _ ih =>
    obtain ⟨_, hnext⟩ := hsorts.step hopen hstep
    exact ih hnext

end Level.ParamsState

namespace Level

open PythonOutline.Parser PythonOutline.ParamEntry

variable {level : Level} {close : TokenKind} {typeHints : Bool} {tokens : Tokens}
  {before after : Place} {params : List Param}

private theorem param_typeHint {kind : ParamKind} {param : Param}
    (hreads : (level.param kind false).Reads tokens before param after) : param.typeHint = none := by
  obtain ⟨-, _, _, _, hhint, -, rfl⟩ := reads_param hreads
  exact hhint.1

private theorem params_signature
    (hreads : (level.params close typeHints).Reads tokens before params after) :
    ∃ signature : Signature, params = signature.params := by
  obtain ⟨result, henters, rfl⟩ := reads_params hreads
  obtain ⟨entries, -, hsteps⟩ := henters.steps
  obtain ⟨signature, hsorts⟩ := hsteps.sorts ParamsState.sorts_noParams
  exact ⟨signature, hsorts.params_eq⟩

/-- **The parameters of a header come in the order of their kinds**: positional-only ones, regular
ones, at most one `*` parameter, keyword-only ones, and at most one `**` parameter. Of the
positional-only and the regular ones, those with a default are the last; the `*` and the `**`
parameter have none. Among the entries of the header, a parameter is positional-only if a `/` stands
behind it and only then, and keyword-only only behind an entry that starts with a `*`. A header that
is read without type hints, as that of a lambda is, has none. -/
theorem params_ordered (hreads : (level.params close typeHints).Reads tokens before params after) :
    (∃ signature : Signature, params = signature.params) ∧
    (∃ entries, level.ReadsEntries close typeHints tokens before entries after ∧
      params = entries.filterMap param? ∧
      ∀ front entry behind, entries = front ++ entry :: behind → ∀ param ∈ entry.param?,
        (param.kind = .positionalOnly ↔ .slash ∈ behind) ∧
        (param.kind = .keywordOnly → ∃ earlier ∈ front, earlier.IsStar)) ∧
    (typeHints = false → ∀ param ∈ params, param.typeHint = none) := by
  obtain ⟨entries, hentries, hparams, hstands⟩ := params_entries hreads
  refine ⟨params_signature hreads, ⟨entries, hentries, hparams, ?_⟩, ?_⟩
  · intro front entry behind hsplit param hparam
    obtain ⟨hpositional, hkeyword⟩ := hstands hsplit param hparam
    exact ⟨hpositional, fun hkind => (hkeyword hkind).resolve_left Bool.false_ne_true⟩
  · rintro rfl
    exact params_ensures id (fun _ _ _ _ hparam => param_typeHint hparam) hreads

/-- A function whose header has entries of all kinds. -/
def mixedHeader : String :=
  "def f(a, b: int = 1, /, c=2 / 3, *args: *T, d, e=4, **options): pass"

/-- A header with parameters of every kind, a default among them. -/
theorem params_ordered_mixed :
    ∃ params after,
      (outermost.params .parenthesisClose true).Reads (.ofSource mixedHeader) ⟨3, 3⟩ params after ∧
      params.map Param.kind = [.positionalOnly, .positionalOnly, .regular, .varPositional, .keywordOnly,
        .keywordOnly, .varKeyword] ∧
      (∃ signature : Signature, params = signature.params) ∧
      ∃ entries, outermost.ReadsEntries .parenthesisClose true (.ofSource mixedHeader) ⟨3, 3⟩ entries
          after ∧
        params = entries.filterMap param? ∧
        ∀ front entry behind, entries = front ++ entry :: behind → ∀ param ∈ entry.param?,
          (param.kind = .positionalOnly ↔ .slash ∈ behind) ∧
          (param.kind = .keywordOnly → ∃ earlier ∈ front, earlier.IsStar) := by
  have hkinds : (match outermost.params .parenthesisClose true (.ofSource mixedHeader) ⟨3, 3⟩ with
      | .ok params _ => decide (params.map Param.kind = [.positionalOnly, .positionalOnly, .regular,
          .varPositional, .keywordOnly, .keywordOnly, .varKeyword])
      | .error _ _ => false) = true := by
    decide +kernel
  cases hparams : outermost.params .parenthesisClose true (.ofSource mixedHeader) ⟨3, 3⟩ with
  | ok params after =>
    rw [hparams] at hkinds
    obtain ⟨hsignature, hentries, -⟩ := params_ordered hparams
    exact ⟨params, after, hparams, of_decide_eq_true hkinds, hsignature, hentries⟩
  | error _ _ =>
    rw [hparams] at hkinds
    cases hkinds

end Level

end PythonOutline
