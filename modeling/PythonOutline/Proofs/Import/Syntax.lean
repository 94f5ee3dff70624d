import PythonOutline.Outline.Import
import PythonOutline.Proofs.Lexer.Separator
import PythonOutline.Proofs.Operator.Syntax
import PythonOutline.Proofs.Tree.Balanced

/-! # Relative imports and how they are written

A relative import is a number of dots, the path of a module or none, and some names. Its tokens may
be spaced out in any way that keeps words apart. Nothing keeps the dots apart: three of them in a
row are one token for the lexer. `Grouped` says which tokens may come of it. -/

namespace PythonOutline

/-! ## Spacing -/

/-- Text that may stand between two tokens. It holds line breaks and comments between parentheses
only, and otherwise blanks and line joins. -/
inductive IsGap (inParens : Bool) : List Char → Prop where
  | nil : IsGap inParens []
  | blank {c : Char} {gap : List Char} (hblank : c = ' ' ∨ c = '\t' ∨ c = '\x0c')
      (hrest : IsGap inParens gap) : IsGap inParens (c :: gap)
  | lineJoin {text gap : List Char} (hbreak : text ∈ lineBreaks) (hrest : IsGap inParens gap) :
      IsGap inParens ('\\' :: text ++ gap)
  | lineEnd {c : Char} {gap : List Char} (hinside : inParens) (hend : EndsLine c)
      (hrest : IsGap inParens gap) : IsGap inParens (c :: gap)
  | comment {body gap : List Char} {c : Char} (hinside : inParens) (hbody : ∀ d ∈ body, ¬EndsLine d)
      (hend : EndsLine c) (hrest : IsGap inParens gap) : IsGap inParens ('#' :: body ++ c :: gap)

/-- Whether a token is a word. -/
def Lexeme.isWord : Lexeme → Bool
  | .name _ => true
  | .fixed kind => kind.keywordSpelling?.isSome

/-- Whether two tokens mean something else if nothing stands between them: two words are one word
then, and two asterisks are one operator. -/
def Lexeme.runsInto (first second : Lexeme) : Bool :=
  first.isWord && second.isWord || first.kind == .asterisk && second.kind == .asterisk

/-- What a token says about the tokens behind it: whether they stand between parentheses. -/
inductive ParenStep : Bool → TokenKind → Bool → Prop where
  | opening : ParenStep false .parenthesisOpen true
  | closing : ParenStep true .parenthesisClose false
  | plain {inParens : Bool} {kind : TokenKind} (hplain : kind.IsPlain) :
      ParenStep inParens kind inParens

/-- Tokens behind another one as they may be written, each with a gap in front of it. -/
inductive Spaced : Bool → Lexeme → List Lexeme → List Char → Prop where
  | nil {previous : Lexeme} : Spaced false previous [] []
  | cons {inParens inParens' : Bool} {previous lexeme : Lexeme} {lexemes : List Lexeme}
      {gap text : List Char} (hgap : IsGap inParens gap)
      (hapart : previous.runsInto lexeme → gap ≠ [])
      (hstep : ParenStep inParens lexeme.kind inParens')
      (hrest : Spaced inParens' lexeme lexemes text) :
      Spaced inParens previous (lexeme :: lexemes) (gap ++ (lexeme.text.toList ++ text))

/-! ## Relative imports -/

/-- A name that is imported from a module. -/
structure ImportedName where
  name : Identifier
  boundAs : Option Identifier

/-- The names that are imported from a module: all of them, or one or more that may stand in
parentheses, and then with a comma behind the last one. -/
inductive NameList where
  | all
  | bare (first : ImportedName) (others : List ImportedName)
  | enclosed (first : ImportedName) (others : List ImportedName) (trailing : Bool)

/-- An import from a module that is given by dots, and by a path behind them unless that
is empty. -/
structure RelativeImport where
  level : Nat
  path : List Identifier
  names : NameList

/-- The tokens of an imported name. -/
def ImportedName.lexemes (name : ImportedName) : List Lexeme :=
  .name name.name :: name.boundAs.elim [] fun bound => [.fixed .keywordAs, .name bound]

/-- The tokens of further names, each with a comma in front of it. -/
def ImportedName.moreLexemes (others : List ImportedName) : List Lexeme :=
  others.flatMap fun name => .fixed .comma :: name.lexemes

/-- A further name stands behind a comma. -/
theorem ImportedName.moreLexemes_cons (name : ImportedName) (others : List ImportedName) :
    moreLexemes (name :: others) = .fixed .comma :: (name.lexemes ++ moreLexemes others) :=
  rfl

/-- The tokens of a list of names. -/
def NameList.lexemes : NameList → List Lexeme
  | .all => [.fixed .asterisk]
  | .bare first others => first.lexemes ++ ImportedName.moreLexemes others
  | .enclosed first others trailing =>
    .fixed .parenthesisOpen :: (first.lexemes ++ (ImportedName.moreLexemes others ++
      ((if trailing then [.fixed .comma] else []) ++ [.fixed .parenthesisClose])))

/-- The tokens of further parts of a path, each with a dot in front of it. -/
def partLexemes (parts : List Identifier) : List Lexeme :=
  parts.flatMap fun part => [.fixed .dot, .name part]

/-- The tokens of a path. -/
def pathLexemes : List Identifier → List Lexeme
  | [] => []
  | first :: others => .name first :: partLexemes others

/-- The tokens behind the `from` of an import, with a token for each dot. -/
def RelativeImport.lexemes (written : RelativeImport) : List Lexeme :=
  List.replicate written.level (.fixed .dot) ++
    (pathLexemes written.path ++ .fixed .keywordImport :: written.names.lexemes)

/-- The path of the module: the dots, and then the parts with single dots between them. -/
def RelativeImport.module (written : RelativeImport) : String :=
  String.ofList (List.replicate written.level '.') ++
    ".".intercalate (written.path.map Identifier.text)

/-- What an import binds: the module, the name in it, and the name it is bound to. -/
def Import.binding (record : Import) : String × Option String × Option String :=
  (record.module, record.name, record.boundAs)

/-- The name of an imported name and the name it is bound to. -/
def ImportedName.texts (name : ImportedName) : String × Option String :=
  (name.name.text, name.boundAs.map Identifier.text)

/-- What names bind that are imported from a module, one entry for each of them. -/
def NameList.bindings (module : String) : NameList → List (String × Option String × Option String)
  | .all => [(module, some "*", none)]
  | .bare first others | .enclosed first others _ =>
    (first :: others).map fun name =>
      (module, some name.name.text, name.boundAs.map Identifier.text)

/-- What an import binds, one entry for each name. -/
def RelativeImport.bindings (written : RelativeImport) :
    List (String × Option String × Option String) :=
  written.names.bindings written.module

/-! ## Grouping -/

/-- Tokens and how they may be grouped: any three dots in a row may be one token. -/
inductive Grouped : List Lexeme → List Lexeme → Prop where
  | nil : Grouped [] []
  | single {lexeme : Lexeme} {lexemes grouped : List Lexeme} (hrest : Grouped lexemes grouped) :
      Grouped (lexeme :: lexemes) (lexeme :: grouped)
  | three {lexemes grouped : List Lexeme} (hrest : Grouped lexemes grouped) :
      Grouped (.fixed .dot :: .fixed .dot :: .fixed .dot :: lexemes) (.fixed .dotDotDot :: grouped)

namespace Grouped

variable {lexemes grouped : List Lexeme}

/-- A token that is no dot is in no group. -/
theorem of_ne_dot {lexeme : Lexeme} (hgrouped : Grouped (lexeme :: lexemes) grouped)
    (hne : lexeme.kind ≠ .dot) : ∃ others, grouped = lexeme :: others ∧ Grouped lexemes others := by
  cases hgrouped with
  | single hrest => exact ⟨_, rfl, hrest⟩
  | three => exact absurd rfl hne

/-- What holds of tokens and of three dots holds of the tokens in groups. -/
theorem forall_mem {property : Lexeme → Prop} (hgrouped : Grouped lexemes grouped)
    (hall : ∀ lexeme ∈ lexemes, property lexeme) (hdots : property (.fixed .dotDotDot)) :
    ∀ lexeme ∈ grouped, property lexeme := by
  induction hgrouped with
  | nil => exact hall
  | single _ ih =>
    obtain ⟨hfirst, hothers⟩ := List.forall_mem_cons.mp hall
    exact List.forall_mem_cons.mpr ⟨hfirst, ih hothers⟩
  | three _ ih =>
    refine List.forall_mem_cons.mpr ⟨hdots, ih fun lexeme hlexeme => hall lexeme ?_⟩
    simp [hlexeme]

/-- Parentheses around tokens leave some. -/
theorem ne_nil (hgrouped : Grouped lexemes grouped) (hne : lexemes ≠ []) : grouped ≠ [] := by
  cases hgrouped with
  | nil => exact absurd rfl hne
  | single | three => exact List.cons_ne_nil _ _

/-- Tokens without dots stay as they are. -/
theorem eq_of_ne_dot (hgrouped : Grouped lexemes grouped)
    (hne : ∀ lexeme ∈ lexemes, lexeme.kind ≠ .dot) : grouped = lexemes := by
  induction lexemes generalizing grouped with
  | nil =>
    cases hgrouped
    rfl
  | cons lexeme lexemes ih =>
    obtain ⟨hfirst, hothers⟩ := List.forall_mem_cons.mp hne
    obtain ⟨others, rfl, hrest⟩ := hgrouped.of_ne_dot hfirst
    rw [ih hrest hothers]

/-- The dots between the parts of a path are in no group, as they have names between them. -/
theorem of_parts {parts : List Identifier} (hgrouped : Grouped (partLexemes parts ++ lexemes) grouped) :
    ∃ others, grouped = partLexemes parts ++ others ∧ Grouped lexemes others := by
  induction parts generalizing grouped with
  | nil => exact ⟨grouped, rfl, hgrouped⟩
  | cons part parts ih =>
    obtain ⟨named, rfl, hnamed⟩ : ∃ named, grouped = .fixed .dot :: named ∧
        Grouped (.name part :: (partLexemes parts ++ lexemes)) named := by
      cases hgrouped with
      | single hrest => exact ⟨_, rfl, hrest⟩
    obtain ⟨behind, rfl, hbehind⟩ := hnamed.of_ne_dot nofun
    obtain ⟨others, rfl, hrest⟩ := ih hbehind
    exact ⟨others, rfl, hrest⟩

/-- A path stays as it is. -/
theorem of_path {path : List Identifier} (hgrouped : Grouped (pathLexemes path ++ lexemes) grouped) :
    ∃ others, grouped = pathLexemes path ++ others ∧ Grouped lexemes others := by
  cases path with
  | nil => exact ⟨grouped, rfl, hgrouped⟩
  | cons first parts =>
    obtain ⟨named, rfl, hnamed⟩ := hgrouped.of_ne_dot nofun
    obtain ⟨others, rfl, hrest⟩ := hnamed.of_parts
    exact ⟨others, rfl, hrest⟩

/-- Leading dots are grouped among themselves. -/
theorem of_dots {count : Nat}
    (hgrouped : Grouped (List.replicate count (.fixed .dot) ++ lexemes) grouped)
    (hne : ∀ lexeme ∈ lexemes.head?, lexeme.kind ≠ .dot) :
    ∃ dots others, grouped = dots ++ others ∧
      Grouped (List.replicate count (.fixed .dot)) dots ∧ Grouped lexemes others := by
  generalize hall : List.replicate count (.fixed .dot) ++ lexemes = all at hgrouped
  induction hgrouped generalizing count with
  | nil =>
    obtain ⟨hdots, rfl⟩ := List.append_eq_nil_iff.mp hall
    exact ⟨[], [], rfl, hdots ▸ .nil, .nil⟩
  | @single lexeme following grouped hrest ih =>
    cases count with
    | zero =>
      obtain rfl : lexemes = lexeme :: following := hall
      exact ⟨[], lexeme :: grouped, rfl, .nil, .single hrest⟩
    | succ count =>
      obtain ⟨rfl, hrest⟩ := List.cons.inj hall
      obtain ⟨dots, others, rfl, hdots, hothers⟩ := ih hrest
      exact ⟨_ :: dots, others, rfl, .single hdots, hothers⟩
  | @three following grouped hrest ih =>
    -- What follows the dots does not start with one, so the group is made of leading dots.
    match count with
    | 0 =>
      obtain rfl : lexemes = _ := hall
      exact absurd rfl (hne _ rfl)
    | 1 =>
      obtain rfl : lexemes = _ := (List.cons.inj hall).2
      exact absurd rfl (hne _ rfl)
    | 2 =>
      obtain rfl : lexemes = _ := (List.cons.inj (List.cons.inj hall).2).2
      exact absurd rfl (hne _ rfl)
    | count + 3 =>
      obtain ⟨dots, others, rfl, hdots, hothers⟩ :=
        @ih count (List.cons.inj (List.cons.inj (List.cons.inj hall).2).2).2
      exact ⟨_ :: dots, others, rfl, .three hdots, hothers⟩

end Grouped

/-- The kinds of tokens that stand between the names of a list and around them. -/
def nameListKinds : List TokenKind :=
  [.asterisk, .comma, .keywordAs, .parenthesisClose, .parenthesisOpen]

/-- What holds of the names and of the other tokens of lists of names holds of all tokens of
a list. -/
theorem NameList.forall_lexemes {property : Lexeme → Prop} (names : NameList)
    (hname : ∀ identifier, property (.name identifier))
    (hfixed : ∀ kind ∈ nameListKinds, property (.fixed kind)) :
    ∀ lexeme ∈ names.lexemes, property lexeme := by
  have hsingle : ∀ (name : ImportedName), ∀ lexeme ∈ name.lexemes, property lexeme := by
    rintro ⟨name, boundAs⟩
    cases boundAs with
    | none => simpa [ImportedName.lexemes] using hname name
    | some bound =>
      simpa [ImportedName.lexemes] using ⟨hname name, hfixed _ (by decide), hname bound⟩
  have hmore : ∀ (others : List ImportedName), ∀ lexeme ∈ ImportedName.moreLexemes others,
      property lexeme := by
    intro others lexeme hlexeme
    obtain ⟨name, -, hlexeme⟩ := List.mem_flatMap.mp hlexeme
    rcases List.mem_cons.mp hlexeme with rfl | hlexeme
    · exact hfixed _ (by decide)
    · exact hsingle name lexeme hlexeme
  cases names with
  | all => simpa [lexemes] using hfixed .asterisk (by decide)
  | bare first others => exact List.forall_mem_append.mpr ⟨hsingle first, hmore others⟩
  | enclosed first others trailing =>
    refine List.forall_mem_cons.mpr ⟨hfixed _ (by decide), List.forall_mem_append.mpr
      ⟨hsingle first, List.forall_mem_append.mpr ⟨hmore others, ?_⟩⟩⟩
    have hclose : property (.fixed .parenthesisClose) := hfixed _ (by decide)
    cases trailing with
    | false => simpa using hclose
    | true => simpa using ⟨hfixed .comma (by decide), hclose⟩

/-- No dot stands among names. -/
theorem NameList.kind_ne_dot (names : NameList) : ∀ lexeme ∈ names.lexemes, lexeme.kind ≠ .dot :=
  names.forall_lexemes (fun _ => nofun) (by decide)

/-- What is imported is written with a token at least. -/
theorem NameList.lexemes_ne_nil (names : NameList) : names.lexemes ≠ [] := by
  cases names <;> simp [lexemes, ImportedName.lexemes]

/-- A relative import is written with a token at least. -/
theorem RelativeImport.lexemes_ne_nil (written : RelativeImport) : written.lexemes ≠ [] := by
  simp [lexemes]

/-- The last token of a relative import is one of its names or stands behind them. -/
theorem RelativeImport.mem_names_of_getLast? {written : RelativeImport} {last : Lexeme}
    (hlast : last ∈ written.lexemes.getLast?) : last ∈ written.names.lexemes := by
  have hsplit : written.lexemes = (List.replicate written.level (.fixed .dot) ++
      (pathLexemes written.path ++ [.fixed .keywordImport])) ++ written.names.lexemes := by
    simp [lexemes]
  rw [hsplit, List.getLast?_append] at hlast
  cases hnames : written.names.lexemes.getLast? with
  | none => exact absurd (List.getLast?_eq_none_iff.mp hnames) written.names.lexemes_ne_nil
  | some name =>
    rw [hnames] at hlast
    obtain rfl : name = last := Option.some.inj hlast
    exact List.mem_of_getLast? hnames

/-- The tokens of a relative import stay as they are, up to its leading dots. -/
theorem RelativeImport.grouped_cases {written : RelativeImport} {grouped : List Lexeme}
    (hgrouped : Grouped written.lexemes grouped) :
    ∃ dots, Grouped (List.replicate written.level (.fixed .dot)) dots ∧
      grouped = dots ++ (pathLexemes written.path ++ .fixed .keywordImport :: written.names.lexemes) := by
  have hfirst : ∀ lexeme ∈ (pathLexemes written.path ++
      .fixed .keywordImport :: written.names.lexemes).head?, lexeme.kind ≠ .dot := by
    cases written.path <;> simp [pathLexemes, Lexeme.kind]
  obtain ⟨dots, others, rfl, hdots, hothers⟩ := hgrouped.of_dots hfirst
  obtain ⟨behindPath, rfl, hbehindPath⟩ := hothers.of_path
  obtain ⟨names, rfl, hnames⟩ := hbehindPath.of_ne_dot nofun
  rw [hnames.eq_of_ne_dot written.names.kind_ne_dot]
  exact ⟨dots, hdots, rfl⟩

end PythonOutline
