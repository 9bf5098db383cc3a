/-!
Contract: ceilings on nesting and repetition.

Every ceiling is hard: where one is met the construct at hand ends early and
parsing goes on, so any input has a tree. Ceilings are words of 32 bits;
derived ones stop at the greatest word instead of wrapping around.
-/

namespace TemplateFrontend

structure Limits where
  /-- Nesting of statements, and so of the nodes below the root. -/
  depth : Nat
  /-- Turns of argument, list, array, loop-header and parameter lists. -/
  iterations : Nat
  /-- Length of operator chains and of property chains. -/
  chain : Nat
  /-- Turns in the body of a markup region. -/
  regionIterations : Nat
  /-- Turns at the top level. -/
  topLevelIterations : Nat
deriving DecidableEq, Repr

namespace Limits

def greatest : Nat := UInt32.size - 1

def scaled (ceiling factor : Nat) : Nat := min (ceiling * factor) greatest

/-- Derives every ceiling from the two primary ones: chains get a tenth of the
iterations but at least one, region bodies ten times, the top level a hundred
times the iterations. -/
def ofPrimary (depth iterations : Nat) : Limits where
  depth := depth
  iterations := iterations
  chain := max (iterations / 10) 1
  regionIterations := scaled iterations 10
  topLevelIterations := scaled iterations 100

def standard : Limits where
  depth := 1000
  iterations := 1000
  chain := 100
  regionIterations := 10000
  topLevelIterations := 100000

/-- The standard ceilings are derived from their own primary ones. -/
theorem ofPrimary_standard :
    ofPrimary standard.depth standard.iterations = standard := by
  decide

end Limits

end TemplateFrontend
