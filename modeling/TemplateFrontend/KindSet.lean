import TemplateFrontend.Kind

/-!
Contract: sets of kinds, packed into one machine word.

Bit `i` of the word stands for the kind of index `i`. The word has room for
every kind, so equal sets have equal words.
-/

namespace TemplateFrontend

/-- A set of kinds as a word of 128 bits. -/
structure KindSet where
  bits : BitVec 128
deriving DecidableEq

namespace KindSet

def empty : KindSet := ⟨0⟩

/-- The word whose only set bit is that of `kind`. -/
def bit (kind : Kind) : BitVec 128 := 1#128 <<< kind.index

def union (left right : KindSet) : KindSet := ⟨left.bits ||| right.bits⟩

def singleton (kind : Kind) : KindSet := ⟨bit kind⟩

/-- The set of the listed kinds; repetitions and order do not matter. -/
def ofList (kinds : List Kind) : KindSet :=
  kinds.foldl (fun gathered kind => gathered.union (singleton kind)) empty

def contains (set : KindSet) (kind : Kind) : Bool :=
  set.bits &&& bit kind != 0

def toList (set : KindSet) : List Kind :=
  Kind.all.filter set.contains

/-- The written form of a set shows its word as a decimal number. -/
def description (set : KindSet) : String :=
  "SyntaxSet \x7b bits: " ++ toString set.bits.toNat ++ " \x7d"

end KindSet

end TemplateFrontend
