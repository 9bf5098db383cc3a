import TemplateFrontend.Grammar.Expression
import TemplateFrontend.Grammar.Markup

/-!
Contract: statements.

`statementAt` gives the rule for one level of nesting in terms of the rule for
the level below it; `statement` ties the knot by recursion on the number of
levels that the depth ceiling leaves. Every operand may be missing, and a node
is placed as soon as its first token decides for it.
-/

namespace TemplateFrontend.Grammar

def headerSeparators : KindSet := .ofList [.colon, .semicolon]

def condition (nested : StatementRule) (draft : Draft) : Draft :=
  match draft.take? .leftParen with
  | some inside => (nested.place inside).skip .rightParen
  | none => draft

def ifStatement (nested : StatementRule) (draft : Draft) : Draft :=
  draft.node .ifStmt fun inside =>
    let branch := nested.place (condition nested inside.advance)
    match branch.take? .elseKeyword with
    | some afterElse => nested.place afterElse
    | none => branch

def loopHeader (limits : Limits) (nested : StatementRule) (draft : Draft) : Draft :=
  match draft.take? .leftParen with
  | some inside =>
      separated limits .loopHeader .rightParen headerSeparators (statementElement nested) inside
  | none => draft

def forStatement (limits : Limits) (nested : StatementRule) (draft : Draft) : Draft :=
  draft.node .forStmt fun inside => nested.place (loopHeader limits nested inside.advance)

def whileStatement (nested : StatementRule) (draft : Draft) : Draft :=
  draft.node .whileStmt fun inside => nested.place (condition nested inside.advance)

/-- `do` with a body and a condition after `while` or `until`. A condition
may also stand before the body. -/
def doStatement (nested : StatementRule) (draft : Draft) : Draft :=
  draft.node .whileStmt fun inside =>
    let body := nested.place (condition nested inside.advance)
    match body.take? .whileKeyword with
    | some afterWhile => condition nested afterWhile
    | none =>
        match body.take? .untilKeyword with
        | some afterUntil => condition nested afterUntil
        | none => body

def keywordStatement (kind : Kind) (nested : StatementRule) (draft : Draft) : Draft :=
  draft.node kind fun inside => nested.place inside.advance

/-- One turn of a parameter list: a name, then a comma if the list is to go
on. -/
def parameterTurn (draft : Draft) : Turn Draft :=
  let named := draft.advance
  match named.take? .comma with
  | some next => .again next
  | none => .done named

def parameterList (limits : Limits) (draft : Draft) : Draft :=
  repeatWhile (fun current => current.kind == .identifier) parameterTurn
    (·.trip .parameterList) limits.iterations draft

def parameters (limits : Limits) (draft : Draft) : Draft :=
  match draft.take? .leftParen with
  | some inside => (parameterList limits inside).skip .rightParen
  | none => draft

/-- A function definition: an optional name, optional parameters, a body. -/
def functionDefinition (limits : Limits) (nested : StatementRule) (draft : Draft) : Draft :=
  draft.node .functionDef fun inside =>
    nested.place (parameters limits (inside.advance.skip .identifier))

/-- The rule for statements whose nested statements follow `nested`. -/
def statementAt (limits : Limits) (nested : StatementRule) : StatementRule := fun draft =>
  match draft.kind with
  | .endOfInput => (.nothing, draft)
  | .ifKeyword => (.node, ifStatement nested draft)
  | .forKeyword | .foreachKeyword => (.node, forStatement limits nested draft)
  | .whileKeyword => (.node, whileStatement nested draft)
  | .doKeyword => (.node, doStatement nested draft)
  | .returnKeyword => (.node, keywordStatement .returnStmt nested draft)
  | .defKeyword | .functionKeyword => (.node, functionDefinition limits nested draft)
  | .newKeyword | .assertKeyword | .isdefKeyword | .withKeyword =>
      (.node, keywordStatement .statement nested draft)
  | .atSign => (.node, templateBlock limits nested draft)
  | kind =>
      if kind.isMarkup then
        (.node, templateBlock limits nested draft)
      else
        expression limits nested draft

/-- The rule for statements with `levels` levels of nesting left. With none
left the ceiling is noted and one token is placed. -/
def statement (limits : Limits) : (levels : Nat) → StatementRule
  | 0, draft => (.skipped, (draft.trip .recursionDepth).advance)
  | levels + 1, draft => statementAt limits (statement limits levels) draft

end TemplateFrontend.Grammar
