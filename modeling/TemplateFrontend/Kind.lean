/-!
Contract: the kinds of tokens and tree nodes.

Owns:
- the enumeration `Kind`, in a fixed order: tokens first, nodes last;
- the classes of kinds (trivia, keywords, literals, markup openers, nodes);
- the written name of each kind.

Does not own: spellings; those of reserved words and markup openers are in
`TemplateFrontend.Kind.Reserved` and `TemplateFrontend.Kind.Opener`.
-/

namespace TemplateFrontend

/-- What a token or a tree node is. The declaration order is part of the
contract: `Kind.index` numbers the kinds by it, and the classes below are
intervals of it. -/
inductive Kind where
  | leftParen | rightParen | leftBracket | rightBracket | leftBrace
  | rightBrace | dot | comma | semicolon | colon | question | atSign
  | assign | equal | bang | notEqual | less | lessEqual | greater
  | greaterEqual | ampAmp | pipePipe | plus | minus | star | slash | percent
  | ifKeyword | elseKeyword | forKeyword | foreachKeyword | whileKeyword
  | doKeyword | untilKeyword | returnKeyword | newKeyword | functionKeyword
  | defKeyword | isdefKeyword | withKeyword | assertKeyword
  | identifier | string | number | boolean | null | empty
  | markupOpen | markupComment | markupCode | markupInclude
  | markupIncludeNamed | markupForeach | markupIf | markupElse | markupEnd
  | markupDeclare
  | whitespace | lineComment | blockComment
  | error | endOfInput
  | root | expression | assignment | ifStmt | forStmt | whileStmt
  | returnStmt | functionDef | templateBlock | statement | tombstone
deriving DecidableEq, Repr, Inhabited

namespace Kind

/-- Position of a kind in the declaration order, counted from zero. -/
def index (kind : Kind) : Nat := kind.ctorIdx

def all : List Kind :=
  [.leftParen, .rightParen, .leftBracket, .rightBracket, .leftBrace,
   .rightBrace, .dot, .comma, .semicolon, .colon, .question, .atSign, .assign,
   .equal, .bang, .notEqual, .less, .lessEqual, .greater, .greaterEqual,
   .ampAmp, .pipePipe, .plus, .minus, .star, .slash, .percent, .ifKeyword,
   .elseKeyword, .forKeyword, .foreachKeyword, .whileKeyword, .doKeyword,
   .untilKeyword, .returnKeyword, .newKeyword, .functionKeyword, .defKeyword,
   .isdefKeyword, .withKeyword, .assertKeyword, .identifier, .string, .number,
   .boolean, .null, .empty, .markupOpen, .markupComment, .markupCode,
   .markupInclude, .markupIncludeNamed, .markupForeach, .markupIf,
   .markupElse, .markupEnd, .markupDeclare, .whitespace, .lineComment,
   .blockComment, .error, .endOfInput, .root, .expression, .assignment,
   .ifStmt, .forStmt, .whileStmt, .returnStmt, .functionDef, .templateBlock,
   .statement, .tombstone]

/-- Trivia is carried by the tree but means nothing to the grammar. -/
def isTrivia : Kind → Bool
  | .whitespace | .lineComment | .blockComment => true
  | _ => false

/-- Reserved words other than the word-shaped literals. -/
def isKeyword (kind : Kind) : Bool :=
  ifKeyword.index ≤ kind.index && kind.index ≤ assertKeyword.index

def isLiteral : Kind → Bool
  | .string | .number | .boolean | .null | .empty => true
  | _ => false

/-- Openers of a markup region. The bare at sign is not one of them. -/
def isMarkup (kind : Kind) : Bool :=
  markupOpen.index ≤ kind.index && kind.index ≤ markupDeclare.index

/-- Kinds of interior tree nodes; every other kind is a token's. -/
def isNode (kind : Kind) : Bool :=
  root.index ≤ kind.index

def name : Kind → String
  | .leftParen => "LEFT_PAREN"
  | .rightParen => "RIGHT_PAREN"
  | .leftBracket => "LEFT_BRACKET"
  | .rightBracket => "RIGHT_BRACKET"
  | .leftBrace => "LEFT_BRACE"
  | .rightBrace => "RIGHT_BRACE"
  | .dot => "DOT"
  | .comma => "COMMA"
  | .semicolon => "SEMICOLON"
  | .colon => "COLON"
  | .question => "QUESTION"
  | .atSign => "AT"
  | .assign => "EQ"
  | .equal => "EQ_EQ"
  | .bang => "BANG"
  | .notEqual => "BANG_EQ"
  | .less => "LT"
  | .lessEqual => "LT_EQ"
  | .greater => "GT"
  | .greaterEqual => "GT_EQ"
  | .ampAmp => "AMP_AMP"
  | .pipePipe => "PIPE_PIPE"
  | .plus => "PLUS"
  | .minus => "MINUS"
  | .star => "STAR"
  | .slash => "SLASH"
  | .percent => "PERCENT"
  | .ifKeyword => "IF_KW"
  | .elseKeyword => "ELSE_KW"
  | .forKeyword => "FOR_KW"
  | .foreachKeyword => "FOREACH_KW"
  | .whileKeyword => "WHILE_KW"
  | .doKeyword => "DO_KW"
  | .untilKeyword => "UNTIL_KW"
  | .returnKeyword => "RETURN_KW"
  | .newKeyword => "NEW_KW"
  | .functionKeyword => "FUNCTION_KW"
  | .defKeyword => "DEF_KW"
  | .isdefKeyword => "ISDEF_KW"
  | .withKeyword => "WITH_KW"
  | .assertKeyword => "ASSERT_KW"
  | .identifier => "NAME"
  | .string => "STRING"
  | .number => "NUMBER"
  | .boolean => "BOOLEAN"
  | .null => "NULL"
  | .empty => "EMPTY"
  | .markupOpen => "MARKUP_OPEN"
  | .markupComment => "MARKUP_COMMENT"
  | .markupCode => "MARKUP_CODE"
  | .markupInclude => "MARKUP_INCLUDE"
  | .markupIncludeNamed => "MARKUP_INCLUDE_NAMED"
  | .markupForeach => "MARKUP_FOREACH"
  | .markupIf => "MARKUP_IF"
  | .markupElse => "MARKUP_ELSE"
  | .markupEnd => "MARKUP_END"
  | .markupDeclare => "MARKUP_DECLARE"
  | .whitespace => "WHITESPACE"
  | .lineComment => "LINE_COMMENT"
  | .blockComment => "BLOCK_COMMENT"
  | .error => "ERROR"
  | .endOfInput => "EOF"
  | .root => "ROOT"
  | .expression => "EXPRESSION"
  | .assignment => "ASSIGNMENT"
  | .ifStmt => "IF_STMT"
  | .forStmt => "FOR_STMT"
  | .whileStmt => "WHILE_STMT"
  | .returnStmt => "RETURN_STMT"
  | .functionDef => "FUNCTION_DEF"
  | .templateBlock => "TEMPLATE_BLOCK"
  | .statement => "STATEMENT"
  | .tombstone => "TOMBSTONE"

def ofName? (written : String) : Option Kind :=
  all.find? (·.name == written)

theorem mem_all (kind : Kind) : kind ∈ all := by
  cases kind <;> decide

theorem all_getElem_index (kind : Kind) : all[kind.index]? = some kind := by
  cases kind <;> rfl

theorem index_injective {left right : Kind} (sameIndex : left.index = right.index) :
    left = right := by
  have sameEntry := all_getElem_index left
  rw [sameIndex, all_getElem_index right] at sameEntry
  exact (Option.some.inj sameEntry).symm

theorem index_lt_all_length (kind : Kind) : kind.index < all.length := by
  cases kind <;> decide

end Kind

end TemplateFrontend
