import TemplateFrontend.Text.Slice
import Mathlib.Data.List.Basic

/-!
Contract: the windows that are slices of a text.

Owns:
- `Text.IsBoundary`, the offsets between two characters;
- `Text.Admits`, the windows whose ends are boundaries in order;
- the agreement of `Text.slice` with both.
-/

namespace TemplateFrontend.Text

@[simp] theorem byteLength_nil : byteLength [] = 0 := rfl

@[simp] theorem byteLength_cons (char : Char) (text : Text) :
    byteLength (char :: text) = char.utf8Size + byteLength text :=
  rfl

@[simp] theorem byteLength_append (left right : Text) :
    byteLength (left ++ right) = byteLength left + byteLength right := by
  induction left with
  | nil => simp
  | cons char rest inductionHypothesis =>
      rw [List.cons_append, byteLength_cons, byteLength_cons, inductionHypothesis, Nat.add_assoc]

theorem eq_nil_of_byteLength_eq_zero {text : Text} (empty : byteLength text = 0) :
    text = [] := by
  cases text with
  | nil => rfl
  | cons char rest =>
      have positive := char.utf8Size_pos
      rw [byteLength_cons] at empty
      omega

/-! ## Boundaries and windows -/

/-- An offset at which a text can be cut without cutting a character. -/
def IsBoundary (text : Text) (offset : Nat) : Prop :=
  ∃ before after, text = before ++ after ∧ offset = byteLength before

/-- A window in bounds, with both ends on boundaries. -/
structure Admits (text : Text) (window : Span) : Prop where
  ordered : window.start ≤ window.stop
  start_boundary : text.IsBoundary window.start
  stop_boundary : text.IsBoundary window.stop

/-- Of two cuts of one text, the earlier one leaves a shorter front. -/
theorem front_prefix_of_byteLength_le {first second firstRest secondRest : Text}
    (sameText : first ++ firstRest = second ++ secondRest)
    (ordered : byteLength first ≤ byteLength second) :
    ∃ middle, second = first ++ middle := by
  rcases List.append_eq_append_iff.mp sameText with ⟨middle, extended, _⟩ | ⟨middle, cut, _⟩
  · exact ⟨middle, extended⟩
  · rw [cut, byteLength_append] at ordered
    have middleEmpty := eq_nil_of_byteLength_eq_zero (by omega : byteLength middle = 0)
    exact ⟨[], by rw [cut, middleEmpty, List.append_nil, List.append_nil]⟩

/-- An admitted window splits its text into the part before it, the part
inside and the part after it. -/
theorem Admits.split {text : Text} {window : Span} (admitted : text.Admits window) :
    ∃ before inside after, text = before ++ (inside ++ after) ∧
      window = ⟨byteLength before, byteLength before + byteLength inside⟩ := by
  obtain ⟨before, rest, textEq, startEq⟩ := admitted.start_boundary
  obtain ⟨front, after, frontEq, stopEq⟩ := admitted.stop_boundary
  obtain ⟨inside, rfl⟩ := front_prefix_of_byteLength_le (textEq.symm.trans frontEq)
    (by rw [← startEq, ← stopEq]; exact admitted.ordered)
  refine ⟨before, inside, after, by rw [frontEq, List.append_assoc], ?_⟩
  rw [← byteLength_append, ← startEq, ← stopEq]

/-! ## Cutting at a boundary -/

theorem cutOnto_append (taken front rest : Text) :
    cutOnto taken (byteLength front) (front ++ rest) = some (taken.reverse ++ front, rest) := by
  induction front generalizing taken with
  | nil => simp [cutOnto]
  | cons char front inductionHypothesis =>
      have positive := char.utf8Size_pos
      obtain ⟨bytes, bytesEq⟩ : ∃ bytes, byteLength (char :: front) = bytes + 1 :=
        ⟨byteLength (char :: front) - 1, by rw [byteLength_cons]; omega⟩
      have left : bytes + 1 - char.utf8Size = byteLength front := by
        rw [← bytesEq, byteLength_cons]
        omega
      have fits : char.utf8Size ≤ bytes + 1 := by
        rw [← bytesEq, byteLength_cons]
        omega
      rw [bytesEq, List.cons_append, cutOnto, if_pos fits, left, inductionHypothesis]
      simp

theorem cut?_append (front rest : Text) :
    cut? (front ++ rest) (byteLength front) = some (front, rest) :=
  cutOnto_append [] front rest

theorem slice_append (before inside after : Text) :
    slice (before ++ (inside ++ after)) ⟨byteLength before, byteLength before + byteLength inside⟩ =
      .ok inside := by
  simp [slice, slice?, cut?_append, Span.length]

theorem admits_slice (before inside after : Text) :
    (before ++ (inside ++ after)).Admits
      ⟨byteLength before, byteLength before + byteLength inside⟩ where
  ordered := Nat.le_add_right _ _
  start_boundary := ⟨before, inside ++ after, rfl, rfl⟩
  stop_boundary := ⟨before ++ inside, after, by rw [List.append_assoc],
    by rw [byteLength_append]⟩

/-- Only whole characters are cut off, as many as the bytes say. -/
theorem eq_append_of_cutOnto {taken rest front back : Text} {bytes : Nat}
    (cut : cutOnto taken bytes rest = some (front, back)) :
    ∃ middle, front = taken.reverse ++ middle ∧ rest = middle ++ back ∧
      bytes = byteLength middle := by
  induction rest generalizing taken bytes with
  | nil =>
      cases bytes with
      | zero =>
          cases cut
          exact ⟨[], (List.append_nil _).symm, rfl, rfl⟩
      | succ bytes => cases cut
  | cons char rest inductionHypothesis =>
      cases bytes with
      | zero =>
          cases cut
          exact ⟨[], (List.append_nil _).symm, rfl, rfl⟩
      | succ bytes =>
          rw [cutOnto] at cut
          split at cut
          · next fits =>
              obtain ⟨middle, rfl, rfl, bytesEq⟩ := inductionHypothesis cut
              refine ⟨char :: middle, by simp, rfl, ?_⟩
              rw [byteLength_cons]
              omega
          · cases cut

theorem eq_append_of_cut? {text front back : Text} {bytes : Nat}
    (cut : text.cut? bytes = some (front, back)) :
    text = front ++ back ∧ bytes = byteLength front := by
  obtain ⟨middle, rfl, textEq, bytesEq⟩ := eq_append_of_cutOnto cut
  exact ⟨textEq, bytesEq⟩

/-- A slice is a stretch of the text that the span covers. -/
theorem slice_eq_ok_iff {text inside : Text} {span : Span} :
    text.slice span = .ok inside ↔ ∃ before after, text = before ++ (inside ++ after) ∧
      span = ⟨byteLength before, byteLength before + byteLength inside⟩ := by
  constructor
  · intro sliced
    have slicedOption : text.slice? span = some inside := by
      unfold slice at sliced
      split at sliced
      · next found slicedEq =>
          cases sliced
          exact slicedEq
      · cases sliced
    unfold slice? at slicedOption
    split at slicedOption
    · next ordered =>
        obtain ⟨⟨before, fromStart⟩, frontCut, slicedOption⟩ :=
          Option.bind_eq_some_iff.mp slicedOption
        obtain ⟨⟨found, after⟩, insideCut, foundEq⟩ := Option.bind_eq_some_iff.mp slicedOption
        cases foundEq
        obtain ⟨rfl, startEq⟩ := eq_append_of_cut? frontCut
        obtain ⟨rfl, lengthEq⟩ := eq_append_of_cut? insideCut
        refine ⟨before, after, rfl, ?_⟩
        rw [← startEq, ← lengthEq, Span.length, Nat.add_sub_cancel' ordered]
    · cases slicedOption
  · rintro ⟨before, after, rfl, rfl⟩
    exact slice_append before inside after

/-- The admitted windows are those that can be sliced. -/
theorem admits_iff_slice {text : Text} {window : Span} :
    text.Admits window ↔ ∃ inside, text.slice window = .ok inside := by
  constructor
  · intro admitted
    obtain ⟨before, inside, after, rfl, rfl⟩ := admitted.split
    exact ⟨inside, slice_append before inside after⟩
  · rintro ⟨inside, sliced⟩
    obtain ⟨before, after, rfl, rfl⟩ := slice_eq_ok_iff.mp sliced
    exact admits_slice before inside after

theorem admits_whole (text : Text) : text.Admits text.whole where
  ordered := Nat.zero_le _
  start_boundary := ⟨[], text, rfl, rfl⟩
  stop_boundary := ⟨text, [], (List.append_nil text).symm, rfl⟩

end TemplateFrontend.Text
