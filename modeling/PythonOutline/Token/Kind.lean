/-! # Kinds of tokens

A token is a line break, a change of indentation, an operator or delimiter, a keyword, a literal, an
identifier, or one of the two marks that end a token sequence: the end of the input, and the invalid
token that stands where the text could not be read. Each kind has a name; operators and keywords
also have one fixed spelling.
-/

namespace PythonOutline

/-- The kind of a token. -/
inductive TokenKind where
  /-- The end of the input, which follows all other tokens and itself. -/
  | endOfInput
  /-- The place where the text stopped making sense. -/
  | invalid
  | dedent
  | indent
  /-- The end of a logical line. -/
  | newline
  | ampersand
  | ampersandEquals
  | asterisk
  | asteriskAsterisk
  | asteriskAsteriskEquals
  | asteriskEquals
  | at
  | atEquals
  | bar
  | barEquals
  | braceClose
  | braceOpen
  | bracketClose
  | bracketOpen
  | caret
  | caretEquals
  | chevronLeft
  | chevronLeftChevronLeft
  | chevronLeftChevronLeftEquals
  | chevronLeftEquals
  | chevronRight
  | chevronRightChevronRight
  | chevronRightChevronRightEquals
  | chevronRightEquals
  | colon
  | colonEquals
  | comma
  | dot
  | dotDotDot
  | equals
  | equalsEquals
  | exclamationEquals
  | hyphen
  | hyphenChevronRight
  | hyphenEquals
  | identifier
  | keywordAnd
  | keywordAs
  | keywordAssert
  | keywordAsync
  | keywordAwait
  | keywordBreak
  | keywordClass
  | keywordContinue
  | keywordDef
  | keywordDel
  | keywordElif
  | keywordElse
  | keywordExcept
  | keywordFinally
  | keywordFor
  | keywordFrom
  | keywordGlobal
  | keywordIf
  | keywordImport
  | keywordIn
  | keywordIs
  | keywordLambda
  | keywordNonlocal
  | keywordNot
  | keywordOr
  | keywordPass
  | keywordRaise
  | keywordReturn
  | keywordTry
  | keywordWhile
  | keywordWith
  | keywordYield
  | literalFalse
  | literalNone
  | literalNumber
  | literalString
  | literalTrue
  | parenthesisClose
  | parenthesisOpen
  | percent
  | percentEquals
  | plus
  | plusEquals
  | semicolon
  | slash
  | slashEquals
  | slashSlash
  | slashSlashEquals
  | tilde
  deriving DecidableEq, Repr, Inhabited

namespace TokenKind

/-- The name of a kind, as reported to callers. -/
def name : TokenKind → String
  | .endOfInput => "EOF"
  | .invalid => "Invalid"
  | .dedent => "Dedent"
  | .indent => "Indent"
  | .newline => "Newline"
  | .ampersand => "Ampersand"
  | .ampersandEquals => "AmpersandEquals"
  | .asterisk => "Asterisk"
  | .asteriskAsterisk => "AsteriskAsterisk"
  | .asteriskAsteriskEquals => "AsteriskAsteriskEquals"
  | .asteriskEquals => "AsteriskEquals"
  | .at => "At"
  | .atEquals => "AtEquals"
  | .bar => "Bar"
  | .barEquals => "BarEquals"
  | .braceClose => "BraceClose"
  | .braceOpen => "BraceOpen"
  | .bracketClose => "BracketClose"
  | .bracketOpen => "BracketOpen"
  | .caret => "Caret"
  | .caretEquals => "CaretEquals"
  | .chevronLeft => "ChevronLeft"
  | .chevronLeftChevronLeft => "ChevronLeftChevronLeft"
  | .chevronLeftChevronLeftEquals => "ChevronLeftChevronLeftEquals"
  | .chevronLeftEquals => "ChevronLeftEquals"
  | .chevronRight => "ChevronRight"
  | .chevronRightChevronRight => "ChevronRightChevronRight"
  | .chevronRightChevronRightEquals => "ChevronRightChevronRightEquals"
  | .chevronRightEquals => "ChevronRightEquals"
  | .colon => "Colon"
  | .colonEquals => "ColonEquals"
  | .comma => "Comma"
  | .dot => "Dot"
  | .dotDotDot => "DotDotDot"
  | .equals => "Equals"
  | .equalsEquals => "EqualsEquals"
  | .exclamationEquals => "ExclamationEquals"
  | .hyphen => "Hyphen"
  | .hyphenChevronRight => "HyphenChevronRight"
  | .hyphenEquals => "HyphenEquals"
  | .identifier => "Identifier"
  | .keywordAnd => "KeywordAnd"
  | .keywordAs => "KeywordAs"
  | .keywordAssert => "KeywordAssert"
  | .keywordAsync => "KeywordAsync"
  | .keywordAwait => "KeywordAwait"
  | .keywordBreak => "KeywordBreak"
  | .keywordClass => "KeywordClass"
  | .keywordContinue => "KeywordContinue"
  | .keywordDef => "KeywordDef"
  | .keywordDel => "KeywordDel"
  | .keywordElif => "KeywordElif"
  | .keywordElse => "KeywordElse"
  | .keywordExcept => "KeywordExcept"
  | .keywordFinally => "KeywordFinally"
  | .keywordFor => "KeywordFor"
  | .keywordFrom => "KeywordFrom"
  | .keywordGlobal => "KeywordGlobal"
  | .keywordIf => "KeywordIf"
  | .keywordImport => "KeywordImport"
  | .keywordIn => "KeywordIn"
  | .keywordIs => "KeywordIs"
  | .keywordLambda => "KeywordLambda"
  | .keywordNonlocal => "KeywordNonlocal"
  | .keywordNot => "KeywordNot"
  | .keywordOr => "KeywordOr"
  | .keywordPass => "KeywordPass"
  | .keywordRaise => "KeywordRaise"
  | .keywordReturn => "KeywordReturn"
  | .keywordTry => "KeywordTry"
  | .keywordWhile => "KeywordWhile"
  | .keywordWith => "KeywordWith"
  | .keywordYield => "KeywordYield"
  | .literalFalse => "LiteralFalse"
  | .literalNone => "LiteralNone"
  | .literalNumber => "LiteralNumber"
  | .literalString => "LiteralString"
  | .literalTrue => "LiteralTrue"
  | .parenthesisClose => "ParenthesisClose"
  | .parenthesisOpen => "ParenthesisOpen"
  | .percent => "Percent"
  | .percentEquals => "PercentEquals"
  | .plus => "Plus"
  | .plusEquals => "PlusEquals"
  | .semicolon => "Semicolon"
  | .slash => "Slash"
  | .slashEquals => "SlashEquals"
  | .slashSlash => "SlashSlash"
  | .slashSlashEquals => "SlashSlashEquals"
  | .tilde => "Tilde"

/-- All kinds, in the order of their declaration. -/
def all : List TokenKind :=
  [.endOfInput, .invalid, .dedent, .indent, .newline, .ampersand, .ampersandEquals, .asterisk,
   .asteriskAsterisk, .asteriskAsteriskEquals, .asteriskEquals, .at, .atEquals, .bar, .barEquals,
   .braceClose, .braceOpen, .bracketClose, .bracketOpen, .caret, .caretEquals, .chevronLeft,
   .chevronLeftChevronLeft, .chevronLeftChevronLeftEquals, .chevronLeftEquals, .chevronRight,
   .chevronRightChevronRight, .chevronRightChevronRightEquals, .chevronRightEquals, .colon,
   .colonEquals, .comma, .dot, .dotDotDot, .equals, .equalsEquals, .exclamationEquals, .hyphen,
   .hyphenChevronRight, .hyphenEquals, .identifier, .keywordAnd, .keywordAs, .keywordAssert,
   .keywordAsync, .keywordAwait, .keywordBreak, .keywordClass, .keywordContinue, .keywordDef,
   .keywordDel, .keywordElif, .keywordElse, .keywordExcept, .keywordFinally, .keywordFor,
   .keywordFrom, .keywordGlobal, .keywordIf, .keywordImport, .keywordIn, .keywordIs, .keywordLambda,
   .keywordNonlocal, .keywordNot, .keywordOr, .keywordPass, .keywordRaise, .keywordReturn,
   .keywordTry, .keywordWhile, .keywordWith, .keywordYield, .literalFalse, .literalNone,
   .literalNumber, .literalString, .literalTrue, .parenthesisClose, .parenthesisOpen, .percent,
   .percentEquals, .plus, .plusEquals, .semicolon, .slash, .slashEquals, .slashSlash,
   .slashSlashEquals, .tilde]

/-- The kind with a given name. -/
def ofName? (name : String) : Option TokenKind :=
  all.find? fun kind => kind.name == name

/-- The operators and delimiters with their spellings. -/
def operatorSpellings : List (TokenKind × String) :=
  [(.ampersand, "&"), (.ampersandEquals, "&="), (.asterisk, "*"), (.asteriskAsterisk, "**"),
   (.asteriskAsteriskEquals, "**="), (.asteriskEquals, "*="), (.at, "@"), (.atEquals, "@="),
   (.bar, "|"), (.barEquals, "|="), (.braceClose, "\x7d"), (.braceOpen, "\x7b"),
   (.bracketClose, "]"), (.bracketOpen, "["), (.caret, "^"), (.caretEquals, "^="),
   (.chevronLeft, "<"), (.chevronLeftChevronLeft, "<<"), (.chevronLeftChevronLeftEquals, "<<="),
   (.chevronLeftEquals, "<="), (.chevronRight, ">"), (.chevronRightChevronRight, ">>"),
   (.chevronRightChevronRightEquals, ">>="), (.chevronRightEquals, ">="), (.colon, ":"),
   (.colonEquals, ":="), (.comma, ","), (.dot, "."), (.dotDotDot, "..."), (.equals, "="),
   (.equalsEquals, "=="), (.exclamationEquals, "!="), (.hyphen, "-"), (.hyphenChevronRight, "->"),
   (.hyphenEquals, "-="), (.parenthesisClose, ")"), (.parenthesisOpen, "("), (.percent, "%"),
   (.percentEquals, "%="), (.plus, "+"), (.plusEquals, "+="), (.semicolon, ";"), (.slash, "/"),
   (.slashEquals, "/="), (.slashSlash, "//"), (.slashSlashEquals, "//="), (.tilde, "~")]

/-- The keywords with their spellings, among them the constants that are written as words. -/
def keywordSpellings : List (TokenKind × String) :=
  [(.keywordAnd, "and"), (.keywordAs, "as"), (.keywordAssert, "assert"), (.keywordAsync, "async"),
   (.keywordAwait, "await"), (.keywordBreak, "break"), (.keywordClass, "class"),
   (.keywordContinue, "continue"), (.keywordDef, "def"), (.keywordDel, "del"),
   (.keywordElif, "elif"), (.keywordElse, "else"), (.keywordExcept, "except"),
   (.keywordFinally, "finally"), (.keywordFor, "for"), (.keywordFrom, "from"),
   (.keywordGlobal, "global"), (.keywordIf, "if"), (.keywordImport, "import"), (.keywordIn, "in"),
   (.keywordIs, "is"), (.keywordLambda, "lambda"), (.keywordNonlocal, "nonlocal"),
   (.keywordNot, "not"), (.keywordOr, "or"), (.keywordPass, "pass"), (.keywordRaise, "raise"),
   (.keywordReturn, "return"), (.keywordTry, "try"), (.keywordWhile, "while"),
   (.keywordWith, "with"), (.keywordYield, "yield"), (.literalFalse, "False"),
   (.literalNone, "None"), (.literalTrue, "True")]

/-- The spelling of an operator or delimiter. -/
def operatorSpelling? (kind : TokenKind) : Option String :=
  operatorSpellings.lookup kind

/-- The spelling of a keyword. -/
def keywordSpelling? (kind : TokenKind) : Option String :=
  keywordSpellings.lookup kind

/-- The keyword spelled as a given word. -/
def keyword? (word : String) : Option TokenKind :=
  (keywordSpellings.find? fun entry => entry.2 == word).map Prod.fst

/-- The longest operator or delimiter that a text starts with. -/
def longestOperator? (text : List Char) : Option (TokenKind × String) :=
  operatorSpellings.foldl
    (fun best entry =>
      if entry.2.toList.isPrefixOf text then
        match best with
        | none => some entry
        | some found => if found.2.length < entry.2.length then some entry else best
      else best)
    none

/-- Whether the kind opens a bracket. -/
def isOpenBracket : TokenKind → Bool
  | .parenthesisOpen | .bracketOpen | .braceOpen => true
  | _ => false

/-- Whether the kind closes a bracket. -/
def isCloseBracket : TokenKind → Bool
  | .parenthesisClose | .bracketClose | .braceClose => true
  | _ => false

/-- The kind that closes what this kind opens. -/
def closingBracket? : TokenKind → Option TokenKind
  | .parenthesisOpen => some .parenthesisClose
  | .bracketOpen => some .bracketClose
  | .braceOpen => some .braceClose
  | _ => none

/-- Whether an expression may begin with the kind. This decides whether a comma is the last one of a
list of items. -/
def startsExpression : TokenKind → Bool
  | .identifier | .literalFalse | .literalNone | .literalNumber | .literalString | .literalTrue
  | .dotDotDot | .parenthesisOpen | .bracketOpen | .braceOpen | .hyphen | .plus | .tilde
  | .asterisk | .keywordAwait | .keywordLambda | .keywordNot => true
  | _ => false

/-- Whether the kind carries source text, as opposed to line structure. Only such tokens count
towards the span of a tree node. -/
def isSignificant : TokenKind → Bool
  | .newline | .indent | .dedent => false
  | _ => true

end TokenKind

end PythonOutline
