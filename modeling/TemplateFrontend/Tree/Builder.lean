import TemplateFrontend.Tree

/-!
Contract: building a tree from a balanced sequence of steps.

The builder measures nodes: a node spans from the start of its first child to
the end of its last child, and a node without children is empty at the end of
the token before it (or at the builder's first offset). Steps that are not
balanced, or that would give a reversed span, are faults.
-/

namespace TemplateFrontend

inductive BuildStep where
  | start (kind : Kind)
  | token (token : Token)
  | finish
deriving DecidableEq, Repr

/-- A started node, its children last one first. -/
structure OpenNode where
  kind : Kind
  start : Nat
  children : List Tree

/-- The open nodes, innermost first, the last finished root, and the offset at
which a node without children would lie. -/
structure Builder where
  opened : List OpenNode
  finished : Option Tree
  offset : Nat

namespace OpenNode

def add (opened : OpenNode) (child : Tree) : OpenNode :=
  { opened with children := child :: opened.children }

/-- From the first child's start to the last child's end. -/
def span (opened : OpenNode) : Span :=
  match opened.children.getLast?, opened.children.head? with
  | some first, some last => ⟨first.span.start, last.span.stop⟩
  | _, _ => .emptyAt opened.start

/-- The finished node; a fault when its span would be reversed. -/
def close (opened : OpenNode) : Except Fault Tree :=
  let span := opened.span
  if span.start ≤ span.stop then
    .ok (.node opened.kind span opened.children.reverse)
  else
    .error (.reversedNode span.start span.stop)

end OpenNode

namespace Builder

def atOffset (offset : Nat) : Builder := ⟨[], none, offset⟩

def start (builder : Builder) (kind : Kind) : Builder :=
  { builder with opened := ⟨kind, builder.offset, []⟩ :: builder.opened }

def addToken (builder : Builder) (token : Token) : Except Fault Builder :=
  if token.span.stop < token.span.start then
    .error (.reversedToken token.span)
  else
    match builder.opened with
    | [] => .error .tokenOutsideNode
    | innermost :: outer =>
        .ok { builder with
          opened := innermost.add (.leaf token) :: outer
          offset := token.span.stop }

/-- Closes the innermost open node. A node without an enclosing one becomes
the finished root, in place of an earlier one. -/
def finishNode (builder : Builder) : Except Fault Builder :=
  match builder.opened with
  | [] => .error .nothingOpen
  | innermost :: outer =>
      match innermost.close with
      | .error fault => .error fault
      | .ok node =>
          match outer with
          | [] => .ok { builder with opened := [], finished := some node }
          | enclosing :: others =>
              .ok { builder with opened := enclosing.add node :: others }

def step (builder : Builder) : BuildStep → Except Fault Builder
  | .start kind => .ok (builder.start kind)
  | .token token => builder.addToken token
  | .finish => builder.finishNode

/-- Takes the steps in order, up to the first fault. -/
def run (builder : Builder) : List BuildStep → Except Fault Builder
  | [] => .ok builder
  | step :: later =>
      match builder.step step with
      | .error fault => .error fault
      | .ok after => after.run later

/-- The finished root, once no node is open. -/
def finish (builder : Builder) : Except Fault Tree :=
  match builder.opened, builder.finished with
  | _ :: _, _ => .error .unfinishedNodes
  | [], none => .error .nothingBuilt
  | [], some root => .ok root

end Builder

end TemplateFrontend
