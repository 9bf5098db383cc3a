/-!
Contract: classes of characters given by ranges of code points.
-/

namespace TemplateFrontend.Text

/-- A class of characters: the first and last code point of each run. -/
abbrev Ranges := List (Nat × Nat)

/-- The character lies in one of the runs. -/
def Ranges.contain (ranges : Ranges) (char : Char) : Bool :=
  ranges.any fun (first, last) => first ≤ char.toNat && char.toNat ≤ last

end TemplateFrontend.Text
