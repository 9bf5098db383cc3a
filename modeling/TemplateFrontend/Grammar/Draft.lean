import TemplateFrontend.KindSet
import TemplateFrontend.Outline

/-!
Contract: the state of a parse in progress.

Owns:
- `Draft`, the tokens still to be placed and the parts placed so far in the
  node at hand;
- the few transitions by which every rule of the grammar works: placing trivia
  (`settle`), placing one significant token (`advance`, `take?`), opening and
  closing a node, and noting that a ceiling was met (`trip`).

Rules look only at significant tokens. Trivia is placed just before the next
significant token or the next node, so it falls to the node around them.
-/

namespace TemplateFrontend

/-- The constructs that a ceiling can cut short. -/
inductive Construct where
  | topLevel | recursionDepth | operatorChain | propertyChain | argumentList
  | listLiteral | arrayLiteral | loopHeader | parameterList | markupRegion
deriving DecidableEq, Repr

/-- The name of a construct in the log of met ceilings. -/
def Construct.description : Construct → String
  | .topLevel => "top level"
  | .recursionDepth => "recursion depth"
  | .operatorChain => "operator chain"
  | .propertyChain => "property chain"
  | .argumentList => "argument list"
  | .listLiteral => "list literal"
  | .arrayLiteral => "array literal"
  | .loopHeader => "loop header"
  | .parameterList => "parameter list"
  | .markupRegion => "markup region"

/-- A met ceiling: the construct that ended early, and the offset of the
significant token that was next. -/
structure Trip where
  construct : Construct
  offset : Nat
deriving DecidableEq, Repr

/-- A parse in progress. `stop` is the end of the window; `placed` and `trips`
have their last entry first. -/
structure Draft where
  rest : List Token
  placed : List Outline
  trips : List Trip
  stop : Nat

namespace Draft

def ofTokens (tokens : List Token) (stop : Nat) : Draft := ⟨tokens, [], [], stop⟩

/-! ## Looking ahead -/

def next? (draft : Draft) : Option Token := draft.rest.find? fun token => !token.isTrivia

/-- The kind of the next significant token, or that of the end. -/
def kind (draft : Draft) : Kind :=
  match draft.next? with
  | some token => token.kind
  | none => .endOfInput

/-- Where the next significant token starts, or the end of the window. -/
def offset (draft : Draft) : Nat :=
  match draft.next? with
  | some token => token.span.start
  | none => draft.stop

def atEnd (draft : Draft) : Bool := draft.kind == .endOfInput

/-! ## Placing tokens -/

/-- Places the trivia before the next significant token. -/
def settle (draft : Draft) : Draft :=
  { draft with
    rest := draft.rest.dropWhile Token.isTrivia
    placed := ((draft.rest.takeWhile Token.isTrivia).map .leaf).reverse ++ draft.placed }

/-- Places the next significant token and the trivia before it. At the end
nothing is placed, not even trivia. -/
def advance (draft : Draft) : Draft :=
  let settled := draft.settle
  match settled.rest with
  | [] => draft
  | token :: rest => { settled with rest := rest, placed := .leaf token :: settled.placed }

/-- Places the next significant token when its kind is in `set`. -/
def takeIn? (draft : Draft) (set : KindSet) : Option Draft :=
  if set.contains draft.kind then some draft.advance else none

/-- Places the next significant token when it is of the given kind. -/
def take? (draft : Draft) (kind : Kind) : Option Draft :=
  if draft.kind = kind then some draft.advance else none

/-- Like `take?`, for a token that may be missing. -/
def skip (draft : Draft) (kind : Kind) : Draft := (draft.take? kind).getD draft

/-! ## Nodes and ceilings -/

/-- The draft inside a node that begins at the next significant token. -/
def opened (draft : Draft) : Draft := { draft.settle with placed := [] }

/-- Ends a node: what was placed inside becomes its parts, and the node joins
`around`, the parts that the enclosing node had when this one was opened. -/
def closed (inside : Draft) (kind : Kind) (around : List Outline) : Draft :=
  { inside with placed := .node kind inside.placed.reverse :: around }

/-- Drafts one node whose parts are what `body` places. -/
def node (draft : Draft) (kind : Kind) (body : Draft → Draft) : Draft :=
  (body draft.opened).closed kind draft.settle.placed

def trip (draft : Draft) (construct : Construct) : Draft :=
  { draft with trips := ⟨construct, draft.offset⟩ :: draft.trips }

end Draft

end TemplateFrontend
