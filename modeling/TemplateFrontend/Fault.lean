import TemplateFrontend.Text.Span

/-!
Contract: the ways in which a caller can break the rules of the library.

Malformed program text is never a fault: it scans to error tokens and parses
to a tree. A fault means that a span does not fit its text, or that the steps
given to a tree builder are not balanced.
-/

namespace TemplateFrontend

/-- A broken rule of the library. -/
inductive Fault where
  /-- The span is reversed, ends past the text or cuts a character. -/
  | outsideText (span : Span)
  /-- The token ends before it starts. -/
  | reversedToken (span : Span)
  /-- The token has no node to belong to. -/
  | tokenOutsideNode
  /-- There is no open node to finish. -/
  | nothingOpen
  /-- The first child of the node starts after its last child ends. -/
  | reversedNode (start stop : Nat)
  /-- Nodes are still open at the end. -/
  | unfinishedNodes
  /-- No node was finished. -/
  | nothingBuilt
deriving DecidableEq, Repr

/-- Where a step that follows another one succeeds, both do. -/
theorem exists_of_bind_eq_ok {Error First Second : Type} {first : Except Error First}
    {second : First → Except Error Second} {answer : Second}
    (succeeds : first >>= second = .ok answer) :
    ∃ between, first = .ok between ∧ second between = .ok answer := by
  cases first with
  | error fault => cases succeeds
  | ok between => exact ⟨between, rfl, succeeds⟩

end TemplateFrontend
