import TemplateFrontend.Grammar.Program
import TemplateFrontend.Proofs.Tree.Shape

/-!
Contract: the well-formed programs, as a grammar of shapes.

Owns:
- `Listing`, the four bracketed lists with their marks of punctuation;
- `Phrase`, what a rule reads, with the turns and the levels of nesting that
  are left for it;
- `WellFormed`, which shapes a phrase has when nothing is missing and no ceiling
  is met.

Does not own: the rules that read phrases. Nothing here mentions a draft.
-/

namespace TemplateFrontend.Grammar

inductive Listing where
  | arguments | entries | array | header
deriving DecidableEq, Repr

namespace Listing

def separators : Listing → KindSet
  | .arguments => commaOnly
  | .entries => commaOnly
  | .array => arraySeparators
  | .header => headerSeparators

def closing : Listing → Kind
  | .arguments => .rightParen
  | .entries => .rightBracket
  | .array => .rightBrace
  | .header => .rightParen

def construct : Listing → Construct
  | .arguments => .argumentList
  | .entries => .listLiteral
  | .array => .arrayLiteral
  | .header => .loopHeader

end Listing

/-- What a rule reads. `levels` are the levels of nesting left for statements,
`turns` the turns left for the phrase itself. -/
inductive Phrase where
  | statement (levels : Nat)
  | primary (levels : Nat)
  | properties (turns : Nat)
  | operators (levels turns : Nat)
  | element (listing : Listing) (levels : Nat)
  | list (listing : Listing) (levels turns : Nat)
  | names (turns : Nat)
  | region (levels turns : Nat)
  | program (levels turns : Nat)

def firstKind? (parts : List Shape) : Option Kind := (Shape.spellingAll parts).head?

/-- The shapes that a phrase has in a well-formed program. -/
inductive WellFormed (limits : Limits) : Phrase → List Shape → Prop
  /-- A primary and any number of operators with primaries. -/
  | expression {levels : Nat} {first chain : List Shape}
      (firstPrimary : WellFormed limits (.primary levels) first)
      (operators : WellFormed limits (.operators levels limits.chain) chain) :
      WellFormed limits (.statement (levels + 1)) [.node .expression (first ++ chain)]
  | assignment {levels : Nat} {target value : List Shape}
      (targetPrimary : WellFormed limits (.primary levels) target)
      (valueStatement : WellFormed limits (.statement levels) value) :
      WellFormed limits (.statement (levels + 1))
        [.node .assignment (target ++ .leaf .assign :: value)]
  | conditional {levels : Nat} {condition branch otherwise : List Shape}
      (conditionStatement : WellFormed limits (.statement levels) condition)
      (branchStatement : WellFormed limits (.statement levels) branch)
      (otherwiseStatement : WellFormed limits (.statement levels) otherwise) :
      WellFormed limits (.statement (levels + 1))
        [.node .ifStmt (.leaf .ifKeyword :: .leaf .leftParen :: (condition ++
          .leaf .rightParen :: (branch ++ .leaf .elseKeyword :: otherwise)))]
  | forLoop {levels : Nat} {keyword : Kind} {header body : List Shape}
      (keywordEq : keyword = .forKeyword ∨ keyword = .foreachKeyword)
      (headerList : WellFormed limits (.list .header levels limits.iterations) header)
      (bodyStatement : WellFormed limits (.statement levels) body) :
      WellFormed limits (.statement (levels + 1))
        [.node .forStmt (.leaf keyword :: .leaf .leftParen :: (header ++
          .leaf .rightParen :: body))]
  | whileLoop {levels : Nat} {condition body : List Shape}
      (conditionStatement : WellFormed limits (.statement levels) condition)
      (bodyStatement : WellFormed limits (.statement levels) body) :
      WellFormed limits (.statement (levels + 1))
        [.node .whileStmt (.leaf .whileKeyword :: .leaf .leftParen :: (condition ++
          .leaf .rightParen :: body))]
  /-- A parenthesis after `do` would be taken for a condition. -/
  | doLoop {levels : Nat} {keyword : Kind} {body condition : List Shape}
      (bodyStatement : WellFormed limits (.statement levels) body)
      (noCondition : firstKind? body ≠ some .leftParen)
      (keywordEq : keyword = .whileKeyword ∨ keyword = .untilKeyword)
      (conditionStatement : WellFormed limits (.statement levels) condition) :
      WellFormed limits (.statement (levels + 1))
        [.node .whileStmt (.leaf .doKeyword :: (body ++ .leaf keyword :: .leaf .leftParen ::
          (condition ++ [.leaf .rightParen])))]
  | returned {levels : Nat} {value : List Shape}
      (valueStatement : WellFormed limits (.statement levels) value) :
      WellFormed limits (.statement (levels + 1))
        [.node .returnStmt (.leaf .returnKeyword :: value)]
  | keyword {levels : Nat} {keyword : Kind} {operand : List Shape}
      (keywordEq : keyword = .newKeyword ∨ keyword = .assertKeyword ∨ keyword = .isdefKeyword ∨
        keyword = .withKeyword)
      (operandStatement : WellFormed limits (.statement levels) operand) :
      WellFormed limits (.statement (levels + 1)) [.node .statement (.leaf keyword :: operand)]
  | function {levels : Nat} {keyword : Kind} {name parameters body : List Shape}
      (keywordEq : keyword = .defKeyword ∨ keyword = .functionKeyword)
      (nameEq : name = [] ∨ name = [.leaf .identifier])
      (parameterNames : WellFormed limits (.names limits.iterations) parameters)
      (bodyStatement : WellFormed limits (.statement levels) body) :
      WellFormed limits (.statement (levels + 1))
        [.node .functionDef (.leaf keyword :: (name ++ .leaf .leftParen :: (parameters ++
          .leaf .rightParen :: body)))]
  | endMarker {levels : Nat} :
      WellFormed limits (.statement (levels + 1))
        [.node .templateBlock [.leaf .markupEnd, .leaf .rightBrace]]
  | markupRegion {levels : Nat} {opener : Kind} {body : List Shape}
      (isMarkup : opener.isMarkup = true) (notEnd : opener ≠ .markupEnd)
      (bodyRegion : WellFormed limits (.region levels limits.regionIterations) body) :
      WellFormed limits (.statement (levels + 1)) [.node .templateBlock (.leaf opener :: body)]
  | signRegion {levels : Nat} {body : List Shape}
      (bodyRegion : WellFormed limits (.region levels limits.regionIterations) body) :
      WellFormed limits (.statement (levels + 1))
        [.node .templateBlock (.leaf .atSign :: .leaf .leftBrace :: body)]
  /-- A name or literal with its properties. -/
  | atom {levels : Nat} {kind : Kind} {links : List Shape} (isAtom : atoms.contains kind = true)
      (properties : WellFormed limits (.properties limits.chain) links) :
      WellFormed limits (.primary levels) (.leaf kind :: links)
  | call {levels : Nat} {kind : Kind} {links arguments : List Shape}
      (isAtom : atoms.contains kind = true)
      (properties : WellFormed limits (.properties limits.chain) links)
      (argumentList : WellFormed limits (.list .arguments levels limits.iterations) arguments) :
      WellFormed limits (.primary levels)
        (.leaf kind :: (links ++ .leaf .leftParen :: (arguments ++ [.leaf .rightParen])))
  | parenthesized {levels : Nat} {inner : List Shape}
      (innerStatement : WellFormed limits (.statement levels) inner) :
      WellFormed limits (.primary levels)
        (.leaf .leftParen :: (inner ++ [.leaf .rightParen]))
  | listLiteral {levels : Nat} {entries : List Shape}
      (entryList : WellFormed limits (.list .entries levels limits.iterations) entries) :
      WellFormed limits (.primary levels)
        (.leaf .leftBracket :: (entries ++ [.leaf .rightBracket]))
  | arrayLiteral {levels : Nat} {elements : List Shape}
      (elementList : WellFormed limits (.list .array levels limits.iterations) elements) :
      WellFormed limits (.primary levels)
        (.leaf .leftBrace :: (elements ++ [.leaf .rightBrace]))
  | noProperties {turns : Nat} : WellFormed limits (.properties turns) []
  | property {turns : Nat} {later : List Shape}
      (laterProperties : WellFormed limits (.properties turns) later) :
      WellFormed limits (.properties (turns + 1)) (.leaf .dot :: .leaf .identifier :: later)
  | noOperators {levels turns : Nat} : WellFormed limits (.operators levels turns) []
  | operator {levels turns : Nat} {kind : Kind} {operand later : List Shape}
      (isOperator : binaryOperators.contains kind = true)
      (operandPrimary : WellFormed limits (.primary levels) operand)
      (laterOperators : WellFormed limits (.operators levels turns) later) :
      WellFormed limits (.operators levels (turns + 1)) (.leaf kind :: (operand ++ later))
  | element {listing : Listing} {levels : Nat} {value : List Shape}
      (valueStatement : WellFormed limits (.statement levels) value) :
      WellFormed limits (.element listing levels) value
  /-- Only the entries of a list literal have keys. -/
  | keyedElement {levels : Nat} {key value : List Shape}
      (keyStatement : WellFormed limits (.statement levels) key)
      (valueStatement : WellFormed limits (.statement levels) value) :
      WellFormed limits (.element .entries levels) (key ++ .leaf .colon :: value)
  | noElements {listing : Listing} {levels turns : Nat} :
      WellFormed limits (.list listing levels turns) []
  | lastElement {listing : Listing} {levels turns : Nat} {last : List Shape}
      (lastPhrase : WellFormed limits (.element listing levels) last) :
      WellFormed limits (.list listing levels (turns + 1)) last
  | nextElement {listing : Listing} {levels turns : Nat} {separator : Kind}
      {first later : List Shape}
      (firstPhrase : WellFormed limits (.element listing levels) first)
      (separates : listing.separators.contains separator = true)
      (laterList : WellFormed limits (.list listing levels turns) later) (goesOn : later ≠ []) :
      WellFormed limits (.list listing levels (turns + 1)) (first ++ .leaf separator :: later)
  | noNames {turns : Nat} : WellFormed limits (.names turns) []
  | lastName {turns : Nat} : WellFormed limits (.names (turns + 1)) [.leaf .identifier]
  | nextName {turns : Nat} {later : List Shape}
      (laterNames : WellFormed limits (.names turns) later) (goesOn : later ≠ []) :
      WellFormed limits (.names (turns + 1)) (.leaf .identifier :: .leaf .comma :: later)
  /-- The brace that closes a region takes a turn of its own. -/
  | closeRegion {levels turns : Nat} :
      WellFormed limits (.region levels (turns + 1)) [.leaf .rightBrace]
  /-- In a region a parenthesis would be taken for arguments of the name before
  it, and a brace would be counted. -/
  | inRegion {levels turns : Nat} {first later : List Shape}
      (firstStatement : WellFormed limits (.statement levels) first)
      (noParen : firstKind? first ≠ some .leftParen)
      (noBrace : firstKind? first ≠ some .leftBrace)
      (laterRegion : WellFormed limits (.region levels turns) later) :
      WellFormed limits (.region levels (turns + 1)) (first ++ later)
  | noStatements {levels turns : Nat} : WellFormed limits (.program levels turns) []
  /-- At the top level only the statements after the first one must not begin
  with a parenthesis. -/
  | nextStatement {levels turns : Nat} {first later : List Shape}
      (firstStatement : WellFormed limits (.statement levels) first)
      (laterProgram : WellFormed limits (.program levels turns) later)
      (noParen : firstKind? later ≠ some .leftParen) :
      WellFormed limits (.program levels (turns + 1)) (first ++ later)

end TemplateFrontend.Grammar
