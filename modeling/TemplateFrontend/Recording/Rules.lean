import TemplateFrontend.Grammar.Statement
import TemplateFrontend.Recording.Recorder

/-!
Contract: the rules of the grammar as actions on a recorder.

Every rule looks at the kind of the next significant token and records tokens,
starts and ends of nodes. Rules tell whether something was recorded by comparing
positions. Loops count their turns and statements their depth in words.
-/

namespace TemplateFrontend.Record

open Grammar (binaryOperators atoms commaOnly arraySeparators headerSeparators)

/-! ## Loops and lists -/

/-- Takes turns before tokens of the wanted kinds while a turn gives a state to go
on with. `count` turns have been taken. -/
def repeatTurns {State : Type} (wanted : Kind → Bool) (ceiling : Nat) (construct : Construct)
    (turn : State → Record (Option State)) (count : Nat) (state : State) : Record Unit := do
  let ahead ← kind
  if wanted ahead then
    if count = ceiling then
      trip construct
    else
      match _more : Word.add count 1 with
      | .error breach => throw breach
      | .ok taken =>
          match ← turn state with
          | some next => repeatTurns wanted ceiling construct turn taken next
          | none => return ()
  else
    return ()
termination_by Limits.greatest - count
decreasing_by
  unfold Word.add at _more
  split at _more
  · cases _more
    omega
  · cases _more

/-- The answer of a turn that goes on behind a token, if there is one. -/
def goOnBehind (taken : Record Bool) : Record (Option Unit) := do
  let found ← taken
  return if found then some () else none

/-- An element of a list; one token where nothing was recorded. -/
def elementOrAdvance (element : Record Unit) : Record Unit := do
  let before ← position
  element
  let after ← position
  if after = before then advance else return ()

/-- The elements of a list whose opening token has been recorded. -/
def delimited (limits : Limits) (closing : Kind) (separators : KindSet) (construct : Construct)
    (element : Record Unit) : Record Unit := do
  repeatTurns (fun ahead => ahead != closing && ahead != .endOfInput) limits.iterations construct
    (fun _ => do
      elementOrAdvance element
      goOnBehind (eatIn separators))
    0 ()
  ignore (eat closing)

/-- A statement; one token where none begins and nothing was recorded. -/
def statementOrAdvance (nested : Record Bool) : Record Unit := do
  let before ← position
  let found ← nested
  let after ← position
  if !found && after = before then advance else return ()

/-! ## Expressions -/

def propertyChain (limits : Limits) : Record Unit :=
  repeatTurns (· == .dot) limits.chain .propertyChain
    (fun _ => do
      advance
      goOnBehind (eat .identifier))
    0 ()

def arguments (limits : Limits) (nested : Record Bool) : Record Unit := do
  if ← eat .leftParen then
    delimited limits .rightParen commaOnly .argumentList (ignore nested)
  else
    return ()

/-- An entry of a list literal: a statement, or a key and its value. -/
def entry (nested : Record Bool) : Record Unit := do
  ignore nested
  if ← eat .colon then ignore nested else return ()

def atomPrimary (limits : Limits) (nested : Record Bool) : Record Unit := do
  advance
  propertyChain limits
  arguments limits nested

def parenthesized (nested : Record Bool) : Record Unit := do
  advance
  ignore nested
  ignore (eat .rightParen)

def listLiteral (limits : Limits) (nested : Record Bool) : Record Unit := do
  advance
  delimited limits .rightBracket commaOnly .listLiteral (entry nested)

def arrayLiteral (limits : Limits) (nested : Record Bool) : Record Unit := do
  advance
  delimited limits .rightBrace arraySeparators .arrayLiteral (ignore nested)

/-- A primary, if one begins here. -/
def primary (limits : Limits) (nested : Record Bool) : Record Bool := do
  let ahead ← kind
  if atoms.contains ahead then
    atomPrimary limits nested
    return true
  else
    match ahead with
    | .leftParen =>
        parenthesized nested
        return true
    | .leftBracket =>
        listLiteral limits nested
        return true
    | .leftBrace =>
        arrayLiteral limits nested
        return true
    | _ => return false

def operatorChain (limits : Limits) (nested : Record Bool) : Record Unit :=
  repeatTurns binaryOperators.contains limits.chain .operatorChain
    (fun _ => do
      advance
      goOnBehind (primary limits nested))
    0 ()

/-- What follows the first primary of a marked node: the value of an assignment, or
operators. -/
def operation (limits : Limits) (nested : Record Bool) (marker : Marker) : Record Unit := do
  if ← eat .assign then
    ignore nested
    complete marker .assignment
  else
    operatorChain limits nested
    complete marker .expression

/-- An assignment or a flat expression, if a primary begins here. -/
def expression (limits : Limits) (nested : Record Bool) : Record Bool := do
  let marker ← start
  if ← primary limits nested then
    operation limits nested marker
    return true
  else
    abandon marker
    return false

/-! ## Markup blocks -/

/-- One turn in a region with the given number of open braces. -/
def regionTurn (nested : Record Bool) (braces : Nat) : Record (Option Nat) := do
  match ← kind with
  | .leftBrace =>
      let more ← Word.add braces 1
      advance
      return some more
  | .rightBrace =>
      let fewer ← Word.sub braces 1
      advance
      return if fewer = 0 then none else some fewer
  | _ =>
      statementOrAdvance nested
      return some braces

def regionBody (limits : Limits) (nested : Record Bool) : Record Unit :=
  repeatTurns (· != .endOfInput) limits.regionIterations .markupRegion (regionTurn nested) 0 1

def markupParts (limits : Limits) (nested : Record Bool) : Record Unit := do
  match ← kind with
  | .markupEnd =>
      advance
      ignore (eat .rightBrace)
  | .atSign =>
      advance
      if ← eat .leftBrace then regionBody limits nested else return ()
  | _ =>
      advance
      regionBody limits nested

/-! ## Statements -/

/-- One node around what `body` records. -/
def node (kind : Kind) (body : Record Unit) : Record Bool := do
  let marker ← start
  body
  complete marker kind
  return true

/-- Optional parenthesized condition. -/
def condition (nested : Record Bool) : Record Unit := do
  if ← eat .leftParen then
    ignore nested
    ignore (eat .rightParen)
  else
    return ()

def ifBody (nested : Record Bool) : Record Unit := do
  advance
  condition nested
  ignore nested
  if ← eat .elseKeyword then ignore nested else return ()

def loopHeader (limits : Limits) (nested : Record Bool) : Record Unit := do
  if ← eat .leftParen then
    delimited limits .rightParen headerSeparators .loopHeader (ignore nested)
  else
    return ()

def forBody (limits : Limits) (nested : Record Bool) : Record Unit := do
  advance
  loopHeader limits nested
  ignore nested

def whileBody (nested : Record Bool) : Record Unit := do
  advance
  condition nested
  ignore nested

def doBody (nested : Record Bool) : Record Unit := do
  advance
  condition nested
  ignore nested
  if ← eat .whileKeyword then
    condition nested
  else
    if ← eat .untilKeyword then condition nested else return ()

/-- A keyword followed by one operand. -/
def keywordBody (nested : Record Bool) : Record Unit := do
  advance
  ignore nested

def parameterList (limits : Limits) : Record Unit :=
  repeatTurns (· == .identifier) limits.iterations .parameterList
    (fun _ => do
      advance
      goOnBehind (eat .comma))
    0 ()

def parameters (limits : Limits) : Record Unit := do
  if ← eat .leftParen then
    parameterList limits
    ignore (eat .rightParen)
  else
    return ()

def functionBody (limits : Limits) (nested : Record Bool) : Record Unit := do
  advance
  ignore (eat .identifier)
  parameters limits
  ignore nested

/-- A statement whose nested statements follow `nested`; whether there is one. -/
def statementWith (limits : Limits) (nested : Record Bool) : Record Bool := do
  match ← kind with
  | .endOfInput => return false
  | .ifKeyword => node .ifStmt (ifBody nested)
  | .forKeyword | .foreachKeyword => node .forStmt (forBody limits nested)
  | .whileKeyword => node .whileStmt (whileBody nested)
  | .doKeyword => node .whileStmt (doBody nested)
  | .returnKeyword => node .returnStmt (keywordBody nested)
  | .defKeyword | .functionKeyword => node .functionDef (functionBody limits nested)
  | .newKeyword | .assertKeyword | .isdefKeyword | .withKeyword =>
      node .statement (keywordBody nested)
  | .atSign => node .templateBlock (markupParts limits nested)
  | ahead =>
      if ahead.isMarkup then
        node .templateBlock (markupParts limits nested)
      else
        expression limits nested

/-- A statement at the given depth. Below the ceiling on nesting no statement is
looked for, and one token is recorded. -/
def statement (limits : Limits) (depth : Nat) : Record Bool :=
  if _deep : limits.depth < depth then do
    trip .recursionDepth
    advance
    return false
  else
    statementWith limits
      (match _more : Word.add depth 1 with
      | .error breach => throw breach
      | .ok below => statement limits below)
termination_by limits.depth + 1 - depth
decreasing_by
  unfold Word.add at _more
  split at _more
  · cases _more
    omega
  · cases _more

end TemplateFrontend.Record
