import TemplateFrontend.Proofs.Lexeme.Greedy

/-!
Contract: the scan of a number finds the longest number.

Owns:
- `numbers`, the language of numbers;
- `greedy_numbers` and `noFront_numbers`, which compare it with the lengths that the
  scan works out.

The parts of a number are taken one after the other, each as long as it gets. That loses
nothing, since an exponent begins with no character of a mantissa, and the letter for
the type with none of an exponent.
-/

namespace TemplateFrontend.Lexeme

open scoped Computability

/-! ## The language -/

def IsDigit (char : Char) : Prop := '0' ≤ char ∧ char ≤ '9'

instance (char : Char) : Decidable (IsDigit char) := inferInstanceAs (Decidable (_ ∧ _))

def digits : Language Char := run IsDigit IsDigit

def point : Language Char := oneOf (· = '.')

/-- Digits with or without a point and further digits, or a point and digits. -/
def mantissa : Language Char :=
  digits * optional (point * (oneOf IsDigit)∗) + point * digits

def exponentMark (char : Char) : Prop := char = 'e' ∨ char = 'E'

instance (char : Char) : Decidable (exponentMark char) := inferInstanceAs (Decidable (_ ∨ _))

def sign (char : Char) : Prop := char = '+' ∨ char = '-'

instance (char : Char) : Decidable (sign char) := inferInstanceAs (Decidable (_ ∨ _))

def exponent : Language Char := oneOf exponentMark * optional (oneOf sign) * digits

def typeLetters : List Char := ['f', 'F', 'd', 'D', 'l', 'L']

/-- The letter that names the type of a number. -/
def typeLetter : Language Char := oneOf (· ∈ typeLetters)

def numbers : Language Char := mantissa * (optional exponent * optional typeLetter)

theorem isDigit_iff (char : Char) : char.isDigit = true ↔ IsDigit char := by
  simp [Char.isDigit, IsDigit, Char.le_def]

theorem not_isDigit {char : Char} (notDigit : ¬ char.isDigit = true) : ¬ IsDigit char :=
  fun isDigit => notDigit ((isDigit_iff char).mpr isDigit)

/-! ## Digits -/

theorem isDigit_of_digits {char : Char} {later : Text} (member : char :: later ∈ digits) :
    IsDigit char := by
  obtain ⟨first, rest, wordEq, isDigit, _⟩ := mem_run_iff.mp member
  rwa [(List.cons.inj wordEq).1]

theorem nil_notMem_digits : [] ∉ digits := by
  intro member
  obtain ⟨first, rest, wordEq, _⟩ := mem_run_iff.mp member
  cases wordEq

theorem greedy_digits {text : Text} (someDigits : digitRun text ≠ 0) :
    Greedy digits IsDigit text (digitRun text) := by
  cases text with
  | nil => exact absurd rfl someDigits
  | cons char rest =>
      by_cases isDigit : char.isDigit = true
      · have lengthEq : digitRun (char :: rest) = 1 + runLength Char.isDigit rest := by
          rw [digitRun, runLength, List.takeWhile_cons_of_pos isDigit, List.length_cons,
            Nat.add_comm, runLength]
        rw [lengthEq]
        exact greedy_run isDigit_iff ((isDigit_iff char).mp isDigit)
      · rw [digitRun, runLength, List.takeWhile_cons_of_neg isDigit] at someDigits
        exact absurd rfl someDigits

theorem noFront_digits {text : Text} (noDigits : digitRun text = 0) : NoFront digits text := by
  cases text with
  | nil => exact noFront_oneOf_nil.mul
  | cons char rest =>
      by_cases isDigit : char.isDigit = true
      · rw [digitRun, runLength, List.takeWhile_cons_of_pos isDigit] at noDigits
        cases noDigits
      · exact (noFront_oneOf (not_isDigit isDigit)).mul

/-! ## The mantissa -/

/-- The characters by which a short mantissa goes on. -/
def mantissaPart (char : Char) : Prop := IsDigit char ∨ char = '.'

instance (char : Char) : Decidable (mantissaPart char) := inferInstanceAs (Decidable (_ ∨ _))

theorem noFront_point {char : Char} {rest : Text} (notPoint : char ≠ '.') :
    NoFront point (char :: rest) :=
  noFront_oneOf notPoint

theorem eq_point_of_mem {words : Language Char} {char : Char} {later : Text}
    (member : char :: later ∈ point * words) : char = '.' := by
  obtain ⟨_, ⟨first, isPoint, rfl⟩, right, _, wordEq⟩ := member
  rw [← (List.cons.inj wordEq).1, isPoint]

theorem greedy_fraction (text : Text) :
    Greedy (optional (point * (oneOf IsDigit)∗)) mantissaPart text (fractionLength text) := by
  by_cases dot : ∃ body, text = '.' :: body
  · obtain ⟨body, rfl⟩ := dot
    have behindPoint : Greedy (point * (oneOf IsDigit)∗) IsDigit ('.' :: body)
        (1 + digitRun body) := .cons rfl (greedy_kstar isDigit_iff)
    exact (behindPoint.mono fun _ => Or.inl).optional ⟨'.', rfl, Or.inr rfl⟩ (by omega)
  · rw [fractionLength_eq_zero fun body textEq => dot ⟨body, textEq⟩]
    apply NoFront.optional
    apply NoFront.mul
    cases text with
    | nil => exact noFront_oneOf_nil
    | cons char rest => exact noFront_point fun isPoint => dot ⟨rest, by rw [isPoint]⟩

theorem not_isDigit_point : ¬ IsDigit '.' := by decide

theorem greedy_mantissa {first : Char} {rest : Text} {length : Nat}
    (found : mantissa? first rest = some length) :
    Greedy mantissa mantissaPart (first :: rest) (1 + length) := by
  unfold mantissa? at found
  split at found
  · next isDigit =>
      cases found
      have isFirst := (isDigit_iff first).mp isDigit
      have whole : Greedy digits IsDigit (first :: rest) (1 + digitRun rest) :=
        greedy_run isDigit_iff isFirst
      have fraction := greedy_fraction ((first :: rest).drop (1 + digitRun rest))
      have both := whole.mul fraction fun char later member isInner => by
        rcases member with empty | inFraction
        · cases empty
        · rw [eq_point_of_mem inFraction] at isInner
          exact not_isDigit_point isInner
      have dropEq : (first :: rest).drop (1 + digitRun rest) = rest.drop (digitRun rest) := by
        rw [Nat.add_comm, List.drop_succ_cons]
      have noPoint : NoFront (point * digits) (first :: rest) := by
        refine (noFront_point ?_).mul
        rintro rfl
        exact not_isDigit_point isFirst
      rw [dropEq, Nat.add_assoc] at both
      exact (both.mono fun _ isInner => isInner.elim Or.inl id).add_left noPoint
  · next notDigit =>
      split at found
      · next pointed =>
          cases found
          simp only [Bool.and_eq_true, decide_eq_true_eq, bne_iff_ne] at pointed
          obtain ⟨rfl, someDigits⟩ := pointed
          have behindPoint : Greedy (point * digits) IsDigit ('.' :: rest) (1 + digitRun rest) :=
            .cons rfl (greedy_digits someDigits)
          have noDigits : NoFront (digits * optional (point * (oneOf IsDigit)∗)) ('.' :: rest) :=
            NoFront.mul (NoFront.mul (noFront_oneOf not_isDigit_point))
          rw [mantissa, add_comm]
          exact (behindPoint.mono fun _ => Or.inl).add_left noDigits
      · cases found

theorem noFront_mantissa {first : Char} {rest : Text} (missing : mantissa? first rest = none) :
    NoFront mantissa (first :: rest) := by
  unfold mantissa? at missing
  split at missing
  · cases missing
  · next notDigit =>
      split at missing
      · cases missing
      · next notPointed =>
          apply NoFront.add
          · exact (noFront_oneOf (not_isDigit notDigit)).mul.mul
          · by_cases isPoint : first = '.'
            · subst isPoint
              have noDigits : digitRun rest = 0 := by simpa using notPointed
              have pointed : Greedy point (fun _ => False) ('.' :: rest) 1 := greedy_oneOf rfl
              exact pointed.noFront_mul (noFront_digits noDigits) nil_notMem_digits fun _ _ _ => id
            · exact (noFront_point isPoint).mul

/-! ## Exponent and type -/

/-- The characters by which a short exponent goes on. -/
def exponentPart (char : Char) : Prop := IsDigit char ∨ sign char ∨ exponentMark char

instance (char : Char) : Decidable (exponentPart char) := inferInstanceAs (Decidable (_ ∨ _))

theorem greedy_sign (text : Text) : Greedy (optional (oneOf sign)) sign text (signLength text) := by
  cases text with
  | nil => exact noFront_oneOf_nil.optional
  | cons char rest =>
      rw [signLength]
      split
      · next isSign =>
          have signed : sign char := by simpa [sign] using isSign
          exact ((greedy_oneOf signed).mono fun _ => False.elim).optional ⟨char, rfl, signed⟩
            Nat.one_pos
      · next notSign =>
          exact (noFront_oneOf (by simpa [sign] using notSign)).optional

theorem not_sign_of_isDigit {char : Char} (isDigit : IsDigit char) : ¬ sign char := by
  rintro (rfl | rfl) <;> exact absurd isDigit (by decide)

theorem greedy_exponent (text : Text) :
    Greedy (optional exponent) exponentPart text (exponentLength text) := by
  cases text with
  | nil => exact noFront_oneOf_nil.mul.mul.optional
  | cons mark rest =>
      rw [exponentLength]
      split
      · next isMark =>
          have marked : exponentMark mark := by simpa [exponentMark] using isMark
          have head := Greedy.cons marked (greedy_sign rest)
          have apart : ∀ char later, char :: later ∈ digits → ¬ sign char :=
            fun char later member => not_sign_of_isDigit (isDigit_of_digits member)
          have dropEq : (mark :: rest).drop (1 + signLength rest) =
              rest.drop (signLength rest) := by
            rw [Nat.add_comm, List.drop_succ_cons]
          dsimp only
          split
          · next noDigits =>
              apply NoFront.optional
              refine head.noFront_mul ?_ nil_notMem_digits apart
              rw [dropEq]
              exact noFront_digits noDigits
          · next someDigits =>
              have tail := greedy_digits someDigits
              rw [← dropEq] at tail
              have whole := head.mul tail apart
              rw [dropEq] at whole
              refine (whole.mono ?_).optional ⟨mark, rfl, Or.inr (Or.inr marked)⟩ (by omega)
              exact fun _ isInner => isInner.elim (fun signed => Or.inr (Or.inl signed)) Or.inl
      · next notMark =>
          exact (noFront_oneOf (by simpa [exponentMark] using notMark)).mul.mul.optional

theorem greedy_typeLetter (text : Text) :
    Greedy (optional typeLetter) (fun _ => True) text (suffixLength text) := by
  cases text with
  | nil => exact noFront_oneOf_nil.optional
  | cons char rest =>
      rw [suffixLength]
      split
      · next isLetter =>
          have listed : char ∈ typeLetters := by simpa [typeLetters] using isLetter
          exact ((greedy_oneOf listed).mono fun _ _ => trivial).optional ⟨char, rfl, trivial⟩
            Nat.one_pos
      · next notLetter => exact (noFront_oneOf (by simpa [typeLetters] using notLetter)).optional

/-! ## Numbers -/

theorem exponentMark_of_mem {char : Char} {later : Text} (member : char :: later ∈ exponent) :
    exponentMark char := by
  obtain ⟨_, ⟨_, ⟨mark, isMark, rfl⟩, _, _, rfl⟩, _, _, wordEq⟩ := member
  rwa [← (List.cons.inj wordEq).1]

/-- What follows the mantissa begins with the mark of an exponent or names the type. -/
theorem exponentMark_or_mem_typeLetters {char : Char} {later : Text}
    (member : char :: later ∈ optional exponent * optional typeLetter) :
    exponentMark char ∨ char ∈ typeLetters := by
  obtain ⟨left, leftMember, right, rightMember, wordEq⟩ := member
  cases left with
  | nil =>
      rcases rightMember with rfl | ⟨letter, listed, rfl⟩
      · cases wordEq
      · exact Or.inr ((List.cons.inj wordEq).1 ▸ listed)
  | cons head left =>
      rcases leftMember with empty | inExponent
      · cases empty
      · exact Or.inl ((List.cons.inj wordEq).1 ▸ exponentMark_of_mem inExponent)

theorem not_mantissaPart_of_exponentMark {char : Char} (isMark : exponentMark char) :
    ¬ mantissaPart char := by
  rcases isMark with rfl | rfl <;> decide

theorem typeLetters_apart {char : Char} (listed : char ∈ typeLetters) :
    ¬ mantissaPart char ∧ ¬ exponentPart char := by
  simp only [typeLetters, List.mem_cons, List.not_mem_nil, or_false] at listed
  rcases listed with rfl | rfl | rfl | rfl | rfl | rfl <;> decide

theorem greedy_numberTail (text : Text) :
    Greedy (optional exponent * optional typeLetter) (fun _ => True) text
      (numberTailLength text) := by
  have parts := (greedy_exponent text).mul (greedy_typeLetter _) fun char later member => by
    rcases member with empty | ⟨letter, listed, single⟩
    · cases empty
    · cases single
      exact (typeLetters_apart listed).2
  exact parts.mono fun _ _ => trivial

/-- What the scan takes for a number is the longest number at the front of the text. -/
theorem greedy_numbers {first : Char} {rest : Text} {length : Nat}
    (found : mantissa? first rest = some length) :
    Greedy numbers (fun _ => True) (first :: rest)
      (1 + (length + numberTailLength (rest.drop length))) := by
  have tail := greedy_numberTail (rest.drop length)
  have dropEq : rest.drop length = (first :: rest).drop (1 + length) := by
    rw [Nat.add_comm, List.drop_succ_cons]
  rw [dropEq] at tail
  rw [← Nat.add_assoc, dropEq]
  have parts := (greedy_mantissa found).mul tail fun char later member => by
    rcases exponentMark_or_mem_typeLetters member with isMark | listed
    · exact not_mantissaPart_of_exponentMark isMark
    · exact (typeLetters_apart listed).1
  exact parts.mono fun _ _ => trivial

theorem noFront_numbers {first : Char} {rest : Text} (missing : mantissa? first rest = none) :
    NoFront numbers (first :: rest) :=
  (noFront_mantissa missing).mul

end TemplateFrontend.Lexeme
