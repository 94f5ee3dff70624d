import PythonOutline.Proofs.Grammar.Simple
import PythonOutline.Proofs.Import.Syntax
import PythonOutline.Proofs.Operator.Parse
import PythonOutline.Proofs.Parser.Passage

/-! # Parsing relative imports

The parser of imports takes the tokens that a relative import is written with, whatever groups
its dots come in, and counts the dots. What it reads is determined, so it reads nothing else
from them. -/

namespace PythonOutline

open PythonOutline.Parser

namespace Tokens.Spells

variable {tokens : Tokens} {start stop : Nat} {lexemes : List Lexeme} {kind : TokenKind}

/-- What holds of the first token of some and of the token behind them holds of the token
in front. -/
theorem kind_ne (hspells : tokens.Spells start stop lexemes)
    (hfirst : ∀ lexeme ∈ lexemes.head?, lexeme.kind ≠ kind) (hstop : (tokens.get stop).kind ≠ kind) :
    (tokens.get start).kind ≠ kind := by
  cases lexemes with
  | nil =>
    obtain rfl : start = stop := hspells
    exact hstop
  | cons lexeme lexemes =>
    rw [hspells.2.1]
    exact hfirst lexeme rfl

/-- There are at most as many written tokens as there are tokens. -/
theorem length_le (hspells : tokens.Spells start stop lexemes) :
    lexemes.length ≤ tokens.tokens.size := by
  cases hlexemes : lexemes with
  | nil => exact Nat.zero_le _
  | cons lexeme others =>
    obtain ⟨-, hle⟩ := hspells.stop_le (by simp [hlexemes])
    have hlength := hspells.start_add_length
    rw [hlexemes] at hlength
    omega

end Tokens.Spells

namespace Parser

variable {tokens : Tokens} {before : Place} {stop : Nat}

/-! ## Names -/

/-- The name of an import and the name it is bound to. -/
def aliasTexts (imported : ImportAlias) : String × Option String :=
  (imported.name, imported.boundAs)

/-- An imported name is read with its alias, if the token behind it is no `as`. -/
private theorem importedName_reads (name : ImportedName)
    (hspells : tokens.Spells before.next stop name.lexemes)
    (hstop : (tokens.get stop).kind ≠ .keywordAs) :
    ∃ imported after, (importAlias identifier).Reads tokens before imported after ∧
      after.next = stop ∧ aliasTexts imported = name.texts := by
  obtain ⟨name, boundAs⟩ := name
  obtain ⟨-, hkind, htext, hrest⟩ := hspells
  have hname : identifier.Reads tokens before name.text before.step :=
    reads_identifier.mpr ⟨hkind, htext.symm, rfl⟩
  cases boundAs with
  | none =>
    obtain rfl : before.step.next = stop := hrest
    refine ⟨_, before.step.look 0, reads_importAlias.mpr
      ⟨name.text, before.step, none, hname, reads_ifAccepted.mpr ?_, rfl⟩, rfl, rfl⟩
    rw [if_neg (show tokens.kindAt before.step ≠ .keywordAs from hstop)]
    exact ⟨rfl, rfl⟩
  | some bound =>
    obtain ⟨-, has, -, -, hbound, hboundText, rfl⟩ := hrest
    refine ⟨_, before.step.step.step, reads_importAlias.mpr
      ⟨name.text, before.step, some bound.text, hname, reads_ifAccepted.mpr ?_, rfl⟩, rfl, rfl⟩
    rw [if_pos (show tokens.kindAt before.step = .keywordAs from has)]
    exact ⟨_, reads_identifier.mpr ⟨hbound, hboundText.symm, rfl⟩, rfl⟩

private theorem moreLexemes_head? {others : List ImportedName} {kind : TokenKind}
    (hne : kind ≠ .comma) :
    ∀ lexeme ∈ (ImportedName.moreLexemes others).head?, lexeme.kind ≠ kind := by
  cases others with
  | nil => nofun
  | cons name others =>
    rintro lexeme ⟨⟩
    exact hne.symm

/-- A name in parentheses is read in front of a token that does not bind it to another name. -/
theorem enclosedName_reads {kind : TokenKind} (name : ImportedName)
    (hspells : tokens.Spells before.next stop name.lexemes)
    (hkind : (tokens.get stop).kind = kind) (has : kind ≠ .keywordAs) :
    tokens.kindAt before ≠ .parenthesisClose ∧
      ∃ imported after, (importAlias identifier).Reads tokens (before.look 0) imported after ∧
        after.next = stop ∧ aliasTexts imported = name.texts := by
  refine ⟨?_, @importedName_reads _ (before.look 0) _ name hspells (hkind ▸ has)⟩
  have hfirst : tokens.kindAt before = .identifier := hspells.2.1
  rw [hfirst]
  decide

/-- Further names are read up to a token that is no comma. -/
theorem moreNames_repeats (others : List ImportedName)
    (hspells : tokens.Spells before.next stop (ImportedName.moreLexemes others))
    (has : (tokens.get stop).kind ≠ .keywordAs) (hcomma : (tokens.get stop).kind ≠ .comma) :
    ∃ imported after, Repeats (accept .comma) (importAlias identifier) tokens before imported after ∧
      after.next = stop ∧ imported.map aliasTexts = others.map ImportedName.texts := by
  induction others generalizing before with
  | nil =>
    obtain rfl : before.next = stop := hspells
    exact ⟨[], before.look 0, .stop (reads_accept_false.mpr ⟨hcomma, rfl⟩), rfl, rfl⟩
  | cons name others ih =>
    obtain ⟨-, hkind, -, hrest⟩ := hspells
    obtain ⟨middle, hname, hothers⟩ := Tokens.spells_append.mp hrest
    obtain ⟨first, place, hfirst, rfl, htexts⟩ := @importedName_reads _ before.step _ name hname
      (hothers.kind_ne (moreLexemes_head? (by decide)) has)
    obtain ⟨imported, after, hrepeats, hafter, hmore⟩ := ih hothers
    refine ⟨first :: imported, after, .item (reads_accept_true.mpr ⟨hkind, rfl⟩) hfirst hrepeats,
      hafter, ?_⟩
    rw [List.map_cons, List.map_cons, htexts, hmore]

/-- There are at most as many further names as tokens of them. -/
theorem length_le_moreLexemes (others : List ImportedName) :
    others.length ≤ (ImportedName.moreLexemes others).length := by
  induction others with
  | nil => exact Nat.le_refl _
  | cons name others ih =>
    rw [ImportedName.moreLexemes_cons, List.length_cons, List.length_cons, List.length_append]
    omega

/-- Names that stand without parentheses are read up to a token that continues none of them. -/
theorem bareNames_reads (first : ImportedName) (others : List ImportedName)
    (hspells : tokens.Spells before.next stop (first.lexemes ++ ImportedName.moreLexemes others))
    (has : (tokens.get stop).kind ≠ .keywordAs) (hcomma : (tokens.get stop).kind ≠ .comma) :
    ∃ imported after, (commaSeparated (importAlias identifier)).Reads tokens before imported after ∧
      after.next = stop ∧ imported.map aliasTexts = (first :: others).map ImportedName.texts := by
  obtain ⟨middle, hfirst, hothers⟩ := Tokens.spells_append.mp hspells
  obtain ⟨name, place, hname, rfl, htexts⟩ := importedName_reads first hfirst
    (hothers.kind_ne (moreLexemes_head? (by decide)) has)
  obtain ⟨imported, after, hrepeats, hafter, hmore⟩ := moreNames_repeats others hothers has hcomma
  have hlength : imported.length ≤ tokens.tokens.size := by
    have hsame : imported.length = others.length := by simpa using congrArg List.length hmore
    rw [hsame]
    exact Nat.le_trans (length_le_moreLexemes others) hothers.length_le
  refine ⟨name :: imported, after, reads_commaSeparated.mpr
    ⟨name, imported, place, rfl, hname, hlength, hrepeats⟩, hafter, ?_⟩
  rw [List.map_cons, List.map_cons, htexts, hmore]

/-- The tokens behind the names that stand in parentheses. -/
abbrev closingLexemes (trailing : Bool) : List Lexeme :=
  (if trailing then [.fixed .comma] else []) ++ [.fixed .parenthesisClose]

/-- Names in parentheses are read up to the closing one, with or without a comma in front
of that. -/
theorem enclosedNames_lists (first : ImportedName) (others : List ImportedName) (trailing : Bool)
    (hspells : tokens.Spells before.next stop
      (first.lexemes ++ (ImportedName.moreLexemes others ++ closingLexemes trailing))) :
    ∃ imported after, Lists .parenthesisClose (importAlias identifier) tokens before imported after ∧
      after.next = stop ∧ imported.map aliasTexts = (first :: others).map ImportedName.texts := by
  induction others generalizing before first with
  | nil =>
    obtain ⟨middle, hfirst, hclosing⟩ := Tokens.spells_append.mp hspells
    cases trailing with
    | false =>
      obtain ⟨-, hclose, -, rfl⟩ := hclosing
      obtain ⟨hopen, name, place, hname, rfl, htexts⟩ :=
        enclosedName_reads first hfirst hclose (by decide)
      exact ⟨[name], place.step, .last hopen hname hclose, rfl, congrArg (· :: []) htexts⟩
    | true =>
      obtain ⟨-, hcomma, -, -, hclose, -, rfl⟩ := hclosing
      obtain ⟨hopen, name, place, hname, rfl, htexts⟩ :=
        enclosedName_reads first hfirst hcomma (by decide)
      exact ⟨[name], place.step.step, .item hopen hname hcomma (.close hclose), rfl,
        congrArg (· :: []) htexts⟩
  | cons second others ih =>
    rw [ImportedName.moreLexemes_cons, List.cons_append, List.append_assoc] at hspells
    obtain ⟨middle, hfirst, -, hcomma, -, hothers⟩ := Tokens.spells_append.mp hspells
    obtain ⟨hopen, name, place, hname, rfl, htexts⟩ :=
      enclosedName_reads first hfirst hcomma (by decide)
    obtain ⟨imported, after, hlists, hafter, hmore⟩ := @ih place.step second hothers
    refine ⟨name :: imported, after, .item hopen hname hcomma hlists, hafter, ?_⟩
    rw [List.map_cons, List.map_cons, htexts, hmore]

/-- What names bind is what was written, whatever module they are imported from. -/
theorem importedNames_reads (names : NameList)
    (hspells : tokens.Spells before.next stop names.lexemes)
    (has : (tokens.get stop).kind ≠ .keywordAs) (hcomma : (tokens.get stop).kind ≠ .comma) :
    ∃ imported after, importedNames.Reads tokens before imported after ∧ after.next = stop ∧
      ∀ source span level module,
        (Import.ofStmt source ⟨span, .importFrom level module imported⟩).map Import.binding =
          names.bindings (Import.relativePath level module) := by
  have hbindings : ∀ {aliases : List ImportAlias} {names : List ImportedName},
      aliases.map aliasTexts = names.map ImportedName.texts → ∀ source span level module,
        (Import.ofStmt source ⟨span, .importFrom level module (.specific aliases)⟩).map
            Import.binding =
          names.map fun name => (Import.relativePath level module, some name.name.text,
            name.boundAs.map Identifier.text) := by
    intro aliases names hsame source span level module
    have hbound := congrArg (List.map fun texts : String × Option String =>
      (Import.relativePath level module, some texts.1, texts.2)) hsame
    rw [List.map_map, List.map_map] at hbound
    rw [Import.ofStmt, List.map_map]
    exact hbound
  cases names with
  | all =>
    obtain ⟨-, hkind, -, rfl⟩ := hspells
    refine ⟨.all, before.step, reads_importedNames.mpr ?_, rfl, fun _ _ _ _ => rfl⟩
    rw [if_pos (show tokens.kindAt before = .asterisk from hkind)]
    exact ⟨rfl, rfl⟩
  | bare first others =>
    obtain ⟨aliases, after, hreads, hafter, hsame⟩ :=
      @bareNames_reads _ (before.look 0) _ first others hspells has hcomma
    have hkind : tokens.kindAt before = .identifier := hspells.2.1
    refine ⟨.specific aliases, after, reads_importedNames.mpr ?_, hafter, hbindings hsame⟩
    rw [hkind, if_neg (by decide), if_neg (by decide)]
    exact ⟨aliases, hreads, rfl⟩
  | enclosed first others trailing =>
    obtain ⟨-, hkind, -, hnames⟩ := hspells
    obtain ⟨aliases, after, hlists, hafter, hsame⟩ :=
      @enclosedNames_lists _ (before.look 0).step _ first others trailing hnames
    have hlength : aliases.length ≤ tokens.tokens.size := by
      have hcount : aliases.length = others.length + 1 := by simpa using congrArg List.length hsame
      have hle := length_le_moreLexemes others
      have hsize := hnames.length_le
      have hone : 1 ≤ first.lexemes.length := Nat.succ_le_succ (Nat.zero_le _)
      rw [List.length_append, List.length_append] at hsize
      omega
    have hne : aliases ≠ [] := by
      rintro rfl
      cases hsame
    refine ⟨.specific aliases, after, reads_importedNames.mpr ?_, hafter, hbindings hsame⟩
    rw [show tokens.kindAt before = .parenthesisOpen from hkind, if_neg (by decide), if_pos rfl]
    exact ⟨aliases, hlists.reads (by decide) hlength, hne, rfl⟩

/-! ## Modules -/

/-- Further parts of a path are read up to a token that is no dot. -/
theorem parts_repeats (parts : List Identifier)
    (hspells : tokens.Spells before.next stop (partLexemes parts))
    (hdot : (tokens.get stop).kind ≠ .dot) :
    ∃ after, Repeats (accept .dot) identifier tokens before (parts.map Identifier.text) after ∧
      after.next = stop := by
  induction parts generalizing before with
  | nil =>
    obtain rfl : before.next = stop := hspells
    exact ⟨before.look 0, .stop (reads_accept_false.mpr ⟨hdot, rfl⟩), rfl⟩
  | cons part parts ih =>
    obtain ⟨-, hkind, -, -, hpart, htext, hrest⟩ := hspells
    obtain ⟨after, hrepeats, hafter⟩ := @ih before.step.step hrest
    have hname : identifier.Reads tokens before.step part.text before.step.step :=
      reads_identifier.mpr ⟨hpart, htext.symm, rfl⟩
    exact ⟨after, .item (reads_accept_true.mpr ⟨hkind, rfl⟩) hname hrepeats, hafter⟩

private theorem length_le_partLexemes (parts : List Identifier) :
    parts.length ≤ (partLexemes parts).length := by
  induction parts with
  | nil => exact Nat.le_refl _
  | cons part parts ih =>
    have hmore : partLexemes (part :: parts) = .fixed .dot :: .name part :: partLexemes parts := rfl
    rw [hmore, List.length_cons, List.length_cons, List.length_cons]
    omega

/-- A path is read up to a token that is no dot. -/
theorem dottedName_reads (first : Identifier) (others : List Identifier)
    (hspells : tokens.Spells before.next stop (pathLexemes (first :: others)))
    (hdot : (tokens.get stop).kind ≠ .dot) :
    ∃ after, dottedName.Reads tokens before
        (".".intercalate ((first :: others).map Identifier.text)) after ∧ after.next = stop := by
  obtain ⟨-, hkind, htext, hothers⟩ := hspells
  obtain ⟨after, hrepeats, hafter⟩ := @parts_repeats _ before.step _ others hothers hdot
  refine ⟨after, ?_, hafter⟩
  have hlength : (others.map Identifier.text).length ≤ tokens.tokens.size := by
    rw [List.length_map]
    exact Nat.le_trans (length_le_partLexemes others) hothers.length_le
  have hfirst : identifier.Reads tokens before first.text before.step :=
    reads_identifier.mpr ⟨hkind, htext.symm, rfl⟩
  exact reads_bind.mpr ⟨first.text, before.step, hfirst, reads_bind.mpr
    ⟨others.map Identifier.text, after, reads_repeatWhile.mpr ⟨hlength, hrepeats⟩, by simp⟩⟩

/-- Every group of leading dots adds as many as it has. -/
theorem dots_iterates {level : Nat} {dots : List Lexeme}
    (hgrouped : Grouped (List.replicate level (.fixed .dot)) dots)
    (hspells : tokens.Spells before.next stop dots) (hdot : (tokens.get stop).kind ≠ .dot)
    (hdots : (tokens.get stop).kind ≠ .dotDotDot) (counted : Nat) :
    ∃ after, Iterates dotsStep tokens dots.length counted before (counted + level) after ∧
      after.next = stop := by
  generalize hall : List.replicate level (Lexeme.fixed .dot) = lexemes at hgrouped
  induction hgrouped generalizing level before counted with
  | nil =>
    obtain rfl : level = 0 := by simpa using congrArg List.length hall
    obtain rfl : before.next = stop := hspells
    exact ⟨(before.look 0).look 0, .done (by simpa using ⟨hdot, hdots⟩), rfl⟩
  | @single lexeme lexemes grouped hrest ih =>
    obtain ⟨level, rfl⟩ : ∃ others, level = others + 1 :=
      ⟨lexemes.length, by simpa using congrArg List.length hall⟩
    obtain ⟨rfl, hothers⟩ := List.cons.inj hall
    obtain ⟨-, hkind, -, hbehind⟩ := hspells
    obtain ⟨after, hiterates, hafter⟩ := @ih before.step level hbehind (counted + 1) hothers
    rw [Nat.add_assoc, Nat.add_comm 1] at hiterates
    have hstep : (dotsStep counted).Reads tokens before (.next (counted + 1)) before.step := by
      have hkind : tokens.kindAt before = .dot := hkind
      simp [hkind]
    exact ⟨after, .next hstep hiterates, hafter⟩
  | @three lexemes grouped hrest ih =>
    obtain ⟨level, rfl⟩ : ∃ others, level = others + 3 :=
      ⟨lexemes.length, by simpa using congrArg List.length hall⟩
    have hothers := (List.cons.inj (List.cons.inj (List.cons.inj hall).2).2).2
    obtain ⟨-, hkind, -, hbehind⟩ := hspells
    obtain ⟨after, hiterates, hafter⟩ := @ih before.step level hbehind (counted + 3) hothers
    rw [Nat.add_assoc, Nat.add_comm 3] at hiterates
    have hstep : (dotsStep counted).Reads tokens before (.next (counted + 3)) before.step := by
      have hkind : tokens.kindAt before = .dotDotDot := hkind
      simp [hkind]
    exact ⟨after, .next hstep hiterates, hafter⟩

/-- Leading dots are counted one by one, however they are grouped. -/
theorem leadingDots_reads {level : Nat} {dots : List Lexeme}
    (hgrouped : Grouped (List.replicate level (.fixed .dot)) dots)
    (hspells : tokens.Spells before.next stop dots) (hdot : (tokens.get stop).kind ≠ .dot)
    (hdots : (tokens.get stop).kind ≠ .dotDotDot) :
    ∃ after, leadingDots.Reads tokens before level after ∧ after.next = stop := by
  obtain ⟨after, hiterates, hafter⟩ := dots_iterates hgrouped hspells hdot hdots 0
  rw [Nat.zero_add] at hiterates
  exact ⟨after, reads_iterate.mpr ⟨dots.length, hspells.length_le, hiterates⟩, hafter⟩

/-! ## Statements -/

/-- An import from a module is read from its parts, if there are dots. -/
theorem importFrom_reads_of_parts {level : Nat} {middle last after : Place} {module : Option String}
    {names : ImportedNames} (hlevel : level ≠ 0) (hfrom : tokens.kindAt before = .keywordFrom)
    (hdots : leadingDots.Reads tokens before.step level middle)
    (hmodule : if tokens.kindAt middle = .identifier then
        ∃ name, dottedName.Reads tokens (middle.look 0) name last ∧ module = some name
      else module = none ∧ last = middle.look 0)
    (himport : tokens.kindAt last = .keywordImport)
    (hnames : importedNames.Reads tokens last.step names after) :
    importFrom.Reads tokens before
      ⟨tokens.spanBetween before.next after.next, .importFrom level module names⟩ after := by
  simp only [importFrom, ite_bind, reads_spanned, reads_bind, reads_expect, reads_nextIs,
    existsAndEq, true_and, and_true]
  refine ⟨fun span => ⟨span, .importFrom level module names⟩,
    ⟨hfrom, level, middle, hdots, module, last, ?_, ?_⟩, rfl⟩
  · simpa using hmodule
  · simpa [hlevel] using ⟨himport, names, hnames, rfl⟩

/-- The path of a module is read up to the keyword behind it, and an empty one is no path. -/
theorem module_reads (written : RelativeImport)
    (hspells : tokens.Spells before.next stop (pathLexemes written.path))
    (himport : (tokens.get stop).kind = .keywordImport) :
    ∃ module last,
      (if tokens.kindAt before = .identifier then
          ∃ name, dottedName.Reads tokens (before.look 0) name last ∧ module = some name
        else module = none ∧ last = before.look 0) ∧ last.next = stop ∧
      Import.relativePath written.level module = written.module := by
  obtain ⟨level, path, names⟩ := written
  cases path with
  | nil =>
    obtain rfl : before.next = stop := hspells
    refine ⟨none, before.look 0, ?_, rfl, rfl⟩
    rw [show tokens.kindAt before = .keywordImport from himport, if_neg (by decide)]
    exact ⟨rfl, rfl⟩
  | cons first others =>
    obtain ⟨last, hreads, hlast⟩ := @dottedName_reads _ (before.look 0) _ first others hspells
      (by rw [himport]; decide)
    refine ⟨some _, last, ?_, hlast, rfl⟩
    rw [show tokens.kindAt before = .identifier from hspells.2.1, if_pos rfl]
    exact ⟨_, hreads, rfl⟩

/-- A relative import is read from its tokens, whatever groups the dots are in. -/
theorem importFrom_reads {written : RelativeImport} {grouped : List Lexeme}
    (hlevel : 1 ≤ written.level) (hgrouped : Grouped written.lexemes grouped)
    (hspells : tokens.Spells before.next stop (.fixed .keywordFrom :: grouped))
    (hbehind : (tokens.get stop).kind = .semicolon ∨ (tokens.get stop).kind = .newline) :
    ∃ stmt after, importFrom.Reads tokens before stmt after ∧ after.next = stop ∧
      ∀ source, (Import.ofStmt source stmt).map Import.binding = written.bindings := by
  obtain ⟨dots, hdots, rfl⟩ := RelativeImport.grouped_cases hgrouped
  obtain ⟨-, hfrom, -, hmodule⟩ := hspells
  obtain ⟨pathStart, hdotted, hpathed⟩ := Tokens.spells_append.mp hmodule
  obtain ⟨pathStop, hpath, -, himport, -, hnames⟩ := Tokens.spells_append.mp hpathed
  have hfirst : ∀ lexeme ∈ (pathLexemes written.path).head?, lexeme.kind = .identifier := by
    cases written.path <;> simp [pathLexemes, Lexeme.kind]
  have hkind : ∀ kind, kind ≠ .identifier → kind ≠ .keywordImport →
      (tokens.get pathStart).kind ≠ kind := by
    intro kind hname hword
    refine hpath.kind_ne (fun lexeme hlexeme => ?_) (himport ▸ hword.symm)
    exact hfirst lexeme hlexeme ▸ hname.symm
  obtain ⟨middle, hlevelReads, rfl⟩ := @leadingDots_reads _ before.step _ _ _ hdots hdotted
    (hkind _ (by decide) (by decide)) (hkind _ (by decide) (by decide))
  obtain ⟨module, last, hmodule, rfl, htext⟩ := module_reads written hpath himport
  have hends : (tokens.get stop).kind ≠ .keywordAs ∧ (tokens.get stop).kind ≠ .comma := by
    rcases hbehind with hkind | hkind <;> rw [hkind] <;> decide
  obtain ⟨names, after, hnamesReads, hafter, hbindings⟩ :=
    @importedNames_reads _ last.step _ written.names hnames hends.1 hends.2
  refine ⟨_, after, importFrom_reads_of_parts (Nat.ne_of_gt hlevel) hfrom hlevelReads hmodule
    himport hnamesReads, hafter, fun source => ?_⟩
  rw [hbindings, htext]
  rfl

end Parser

end PythonOutline
