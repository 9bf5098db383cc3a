import TemplateFrontend.Grammar.Separated

/-!
Contract: expressions and assignments.

All binary operators bind alike and associate to the left by repetition, so an
expression is one flat node. Primaries place their tokens into the node around
them; only the statements nested inside them open nodes of their own.
-/

namespace TemplateFrontend.Grammar

def binaryOperators : KindSet :=
  .ofList [.plus, .minus, .star, .slash, .percent, .equal, .notEqual, .less, .greater,
    .lessEqual, .greaterEqual, .ampAmp, .pipePipe]

def atoms : KindSet :=
  .ofList [.identifier, .string, .number, .boolean, .null, .empty]

def commaOnly : KindSet := .ofList [.comma]

/-- Braced literals double as statement blocks, so a semicolon separates too. -/
def arraySeparators : KindSet := .ofList [.comma, .semicolon]

/-- One link of a property chain: a dot and a name. -/
def propertyTurn (draft : Draft) : Turn Draft :=
  let afterDot := draft.advance
  match afterDot.take? .identifier with
  | some next => .again next
  | none => .done afterDot

def propertyChain (limits : Limits) (draft : Draft) : Draft :=
  repeatWhile (fun current => current.kind == .dot) propertyTurn (·.trip .propertyChain)
    limits.chain draft

/-- An entry of a list literal: a statement, or a key and its value. -/
def entryElement (nested : StatementRule) : ElementRule := fun draft =>
  let (outcome, key) := nested draft
  match key.take? .colon with
  | some afterColon => (true, nested.place afterColon)
  | none => (outcome != .nothing, key)

/-- A name or literal with its properties and arguments. -/
def atomPrimary (limits : Limits) (nested : StatementRule) (draft : Draft) : Draft :=
  let chain := propertyChain limits draft.advance
  match chain.take? .leftParen with
  | some inside =>
      separated limits .argumentList .rightParen commaOnly (statementElement nested) inside
  | none => chain

/-- A statement in parentheses, with the closing one if it is there. -/
def parenthesized (nested : StatementRule) (draft : Draft) : Draft :=
  (nested.place draft.advance).skip .rightParen

def listLiteral (limits : Limits) (nested : StatementRule) (draft : Draft) : Draft :=
  separated limits .listLiteral .rightBracket commaOnly (entryElement nested) draft.advance

def arrayLiteral (limits : Limits) (nested : StatementRule) (draft : Draft) : Draft :=
  separated limits .arrayLiteral .rightBrace arraySeparators (statementElement nested)
    draft.advance

/-- A primary, if one begins here. -/
def primary? (limits : Limits) (nested : StatementRule) (draft : Draft) : Option Draft :=
  if atoms.contains draft.kind then
    some (atomPrimary limits nested draft)
  else
    match draft.kind with
    | .leftParen => some (parenthesized nested draft)
    | .leftBracket => some (listLiteral limits nested draft)
    | .leftBrace => some (arrayLiteral limits nested draft)
    | _ => none

/-- One link of an operator chain: an operator and a primary. -/
def operatorTurn (limits : Limits) (nested : StatementRule) (draft : Draft) : Turn Draft :=
  let afterOperator := draft.advance
  match primary? limits nested afterOperator with
  | some next => .again next
  | none => .done afterOperator

def operatorChain (limits : Limits) (nested : StatementRule) (draft : Draft) : Draft :=
  repeatWhile (fun current => binaryOperators.contains current.kind)
    (operatorTurn limits nested) (·.trip .operatorChain) limits.chain draft

/-- An assignment or a flat expression. Where no primary begins, only the
trivia before the next token is placed. -/
def expression (limits : Limits) (nested : StatementRule) : StatementRule := fun draft =>
  let around := draft.settle.placed
  match primary? limits nested draft.opened with
  | none => (.nothing, draft.settle)
  | some first =>
      match first.take? .assign with
      | some afterSign => (.node, (nested.place afterSign).closed .assignment around)
      | none => (.node, (operatorChain limits nested first).closed .expression around)

end TemplateFrontend.Grammar
