import TemplateFrontend.Proofs.KindSet
import Mathlib.Combinatorics.Colex

/-!
Contract: a set of kinds is known by its members, however it was put together.

Owns:
- `KindSet.Assembly`, sets of listed kinds and unions of them in any order and
  grouping;
- `Assembly.getLsbD_set`, which says what every bit of the word of a set stands for;
- `assembled_sets`: membership, the value of the word, and equality of sets.
-/

namespace TemplateFrontend.KindSet

/-! ## The bits of a word -/

/-- No kind is shifted out of the word. -/
theorem toNat_bit (kind : Kind) : (bit kind).toNat = 2 ^ kind.index := by
  rw [bit, ← BitVec.twoPow_eq, BitVec.toNat_twoPow]
  exact Nat.mod_eq_of_lt (Nat.pow_lt_pow_right (by decide) (index_lt_width kind))

theorem getLsbD_bit (kind : Kind) (place : Nat) :
    (bit kind).getLsbD place = true ↔ kind.index = place := by
  rw [bit, ← BitVec.twoPow_eq, BitVec.getLsbD_twoPow]
  simp [index_lt_width kind]

theorem getLsbD_union (left right : KindSet) (place : Nat) :
    (left.union right).bits.getLsbD place = true ↔
      left.bits.getLsbD place = true ∨ right.bits.getLsbD place = true := by
  rw [union, BitVec.getLsbD_or, Bool.or_eq_true]

theorem getLsbD_foldl (kinds : List Kind) (gathered : KindSet) (place : Nat) :
    (kinds.foldl (fun gathered kind => gathered.union (singleton kind)) gathered).bits.getLsbD
        place = true ↔
      gathered.bits.getLsbD place = true ∨ ∃ kind ∈ kinds, kind.index = place := by
  induction kinds generalizing gathered with
  | nil => simp
  | cons first later inductionHypothesis =>
      rw [List.foldl_cons, inductionHypothesis, getLsbD_union, singleton, getLsbD_bit, or_assoc]
      simp only [List.mem_cons, exists_eq_or_imp]

theorem getLsbD_ofList (kinds : List Kind) (place : Nat) :
    (ofList kinds).bits.getLsbD place = true ↔ ∃ kind ∈ kinds, kind.index = place := by
  simp [ofList, getLsbD_foldl, empty]

/-! ## Sets put together -/

/-- Listed sets and their unions, in any order and grouping. -/
inductive Assembly where
  | listed (kinds : List Kind)
  | union (left right : Assembly)

namespace Assembly

def set : Assembly → KindSet
  | listed kinds => .ofList kinds
  | union left right => left.set.union right.set

/-- The lists from which the set is put together. -/
def lists : Assembly → List (List Kind)
  | listed kinds => [kinds]
  | union left right => left.lists ++ right.lists

/-- The kinds that occur in one of the lists, each one once. -/
def members (assembly : Assembly) : Finset Kind := assembly.lists.flatten.toFinset

theorem mem_members {assembly : Assembly} {kind : Kind} :
    kind ∈ assembly.members ↔ ∃ kinds ∈ assembly.lists, kind ∈ kinds := by
  rw [members, List.mem_toFinset, List.mem_flatten]

theorem mem_members_union {left right : Assembly} {kind : Kind} :
    kind ∈ (union left right).members ↔ kind ∈ left.members ∨ kind ∈ right.members := by
  simp [members, lists]

/-- The bits that are set are those of the members. -/
theorem getLsbD_set (assembly : Assembly) (place : Nat) :
    assembly.set.bits.getLsbD place = true ↔ ∃ kind ∈ assembly.members, kind.index = place := by
  induction assembly with
  | listed kinds => simp [set, getLsbD_ofList, members, lists]
  | union left right leftHypothesis rightHypothesis =>
      rw [set, getLsbD_union, leftHypothesis, rightHypothesis, ← exists_or]
      simp only [mem_members_union, or_and_right]

theorem contains_set (assembly : Assembly) (kind : Kind) :
    assembly.set.contains kind = true ↔ kind ∈ assembly.members := by
  rw [contains_eq_getLsbD, getLsbD_set]
  constructor
  · rintro ⟨member, listed, sameIndex⟩
    rw [← Kind.index_injective sameIndex]
    exact listed
  · exact fun listed => ⟨kind, listed, rfl⟩

/-- The places of the bits of the word are the indices of the members. -/
theorem bitIndices_set (assembly : Assembly) :
    assembly.set.bits.toNat.bitIndices.toFinset = assembly.members.image Kind.index := by
  ext place
  rw [List.mem_toFinset, Nat.mem_bitIndices, Finset.mem_image, ← getLsbD_set,
    BitVec.testBit_toNat]

/-- The word is the sum of the bits of the members. -/
theorem toNat_set (assembly : Assembly) :
    assembly.set.bits.toNat = ∑ kind ∈ assembly.members, 2 ^ kind.index := by
  calc assembly.set.bits.toNat
      = ∑ place ∈ assembly.set.bits.toNat.bitIndices.toFinset, 2 ^ place :=
        (Finset.sum_toFinset_bitIndices_two_pow _).symm
    _ = ∑ place ∈ assembly.members.image Kind.index, 2 ^ place := by rw [bitIndices_set]
    _ = ∑ kind ∈ assembly.members, 2 ^ kind.index :=
        Finset.sum_image fun _ _ _ _ sameIndex => Kind.index_injective sameIndex

/-- No bit is left that does not stand for a member. -/
theorem set_eq_of_contains_eq {left right : Assembly}
    (same : ∀ kind, left.set.contains kind = right.set.contains kind) : left.set = right.set := by
  have sameMembers : left.members = right.members := by
    ext kind
    rw [← contains_set, ← contains_set, same kind]
  have sameWords : left.set.bits.toNat = right.set.bits.toNat := by
    rw [toNat_set, toNat_set, sameMembers]
  exact congrArg KindSet.mk (BitVec.eq_of_toNat_eq sameWords)

end Assembly

/-- A set that is put together from lists by unions, in any order and grouping, holds the
kinds that occur in one of the lists. Its word is the sum of their bits, none of which
is shifted out of the word, and sets with the same members are equal. -/
theorem assembled_sets (assembly : Assembly) :
    (∀ kind, assembly.set.contains kind = true ↔ ∃ kinds ∈ assembly.lists, kind ∈ kinds) ∧
      (∀ kind : Kind, kind.index < 128 ∧ (bit kind).toNat = 2 ^ kind.index) ∧
      assembly.set.bits.toNat = ∑ kind ∈ assembly.members, 2 ^ kind.index ∧
      ∀ other : Assembly, assembly.set = other.set ↔
        ∀ kind, assembly.set.contains kind = other.set.contains kind := by
  refine ⟨?_, ?_, assembly.toNat_set, ?_⟩
  · intro kind
    rw [assembly.contains_set, Assembly.mem_members]
  · exact fun kind => ⟨index_lt_width kind, toNat_bit kind⟩
  · intro other
    exact ⟨fun same kind => by rw [same], Assembly.set_eq_of_contains_eq⟩

end TemplateFrontend.KindSet
