import TemplateFrontend.KindSet

/-!
Contract: membership in packed sets of kinds.

Owns:
- membership as a bit of the word;
- the members of listed kinds (`contains_ofList`).
-/

namespace TemplateFrontend.KindSet

theorem index_lt_width (kind : Kind) : kind.index < 128 :=
  Nat.lt_of_lt_of_le kind.index_lt_all_length (by decide)

theorem contains_eq_getLsbD (set : KindSet) (kind : Kind) :
    set.contains kind = set.bits.getLsbD kind.index := by
  rw [contains, bit, ← BitVec.twoPow_eq, BitVec.and_twoPow]
  cases isSet : set.bits.getLsbD kind.index with
  | false => rfl
  | true =>
      rw [if_pos rfl, bne_iff_ne]
      intro isZero
      have bitZero := congrArg (·.getLsbD kind.index) isZero
      simp [index_lt_width kind] at bitZero

@[simp] theorem contains_empty (kind : Kind) : empty.contains kind = false := by
  simp [contains_eq_getLsbD, empty]

@[simp] theorem contains_singleton (member kind : Kind) :
    (singleton member).contains kind = decide (kind = member) := by
  rw [contains_eq_getLsbD, singleton, bit, ← BitVec.twoPow_eq, BitVec.getLsbD_twoPow]
  simp only [index_lt_width member, decide_true, Bool.true_and, decide_eq_decide]
  exact ⟨fun same => (Kind.index_injective same).symm, fun same => by rw [same]⟩

@[simp] theorem contains_union (left right : KindSet) (kind : Kind) :
    (left.union right).contains kind = (left.contains kind || right.contains kind) := by
  simp [contains_eq_getLsbD, union]

theorem contains_foldl (kinds : List Kind) (gathered : KindSet) (kind : Kind) :
    (kinds.foldl (fun gathered kind => gathered.union (singleton kind)) gathered).contains kind =
      (gathered.contains kind || kinds.contains kind) := by
  induction kinds generalizing gathered with
  | nil => simp
  | cons first later inductionHypothesis =>
      rw [List.foldl_cons, inductionHypothesis, contains_union, contains_singleton,
        List.contains_cons, Bool.or_assoc]
      rfl

@[simp] theorem contains_ofList (kinds : List Kind) (kind : Kind) :
    (ofList kinds).contains kind = kinds.contains kind := by
  rw [ofList, contains_foldl, contains_empty, Bool.false_or]

end TemplateFrontend.KindSet
