import TemplateFrontend.Proofs.Lexeme.Local
import Mathlib.Computability.Language

/-!
Contract: when a scan that never turns back finds the longest word of a language.

Owns:
- languages over characters, put together from single characters;
- `Greedy`, the longest word of a language at the front of a text, with the characters
  by which every shorter one goes on;
- `Greedy.mul`: the longest words of two languages in a row are the longest word of
  their product, where no word of the second begins as a short word of the first goes on.

Without the last condition a scan would have to turn back: a shorter first word may
leave room for a longer second one.
-/

namespace TemplateFrontend.Lexeme

open scoped Computability

/-! ## Languages -/

/-- One character that belongs. -/
def oneOf (belongs : Char → Prop) : Language Char := {word | ∃ char, belongs char ∧ word = [char]}

def optional (words : Language Char) : Language Char := 1 + words

/-- A character that starts and any number of characters that continue. -/
def run (starts continues : Char → Prop) : Language Char := oneOf starts * (oneOf continues)∗

theorem mem_kstar_oneOf_iff {belongs : Char → Prop} {word : Text} :
    word ∈ (oneOf belongs)∗ ↔ ∀ char ∈ word, belongs char := by
  constructor
  · intro member
    obtain ⟨pieces, rfl, each⟩ := Language.mem_kstar.mp member
    intro char inPieces
    obtain ⟨piece, listed, inPiece⟩ := List.mem_flatten.mp inPieces
    obtain ⟨single, isMember, rfl⟩ := each piece listed
    rwa [List.mem_singleton.mp inPiece]
  · intro each
    refine Language.mem_kstar.mpr ⟨word.map fun char => [char], ?_, ?_⟩
    · rw [← List.flatMap_def, List.flatMap_singleton']
    · intro piece listed
      obtain ⟨char, member, rfl⟩ := List.mem_map.mp listed
      exact ⟨char, each char member, rfl⟩

/-- A word of a run starts with a character that starts and goes on with others. -/
theorem mem_run_iff {starts continues : Char → Prop} {word : Text} :
    word ∈ run starts continues ↔
      ∃ first rest, word = first :: rest ∧ starts first ∧ ∀ char ∈ rest, continues char := by
  constructor
  · rintro ⟨_, ⟨first, isStart, rfl⟩, rest, member, rfl⟩
    exact ⟨first, rest, rfl, isStart, mem_kstar_oneOf_iff.mp member⟩
  · rintro ⟨first, rest, rfl, isStart, each⟩
    exact ⟨[first], ⟨first, isStart, rfl⟩, rest, mem_kstar_oneOf_iff.mpr each, rfl⟩

/-! ## Fronts -/

/-- No word of the language stands at the front of the text. -/
def NoFront (words : Language Char) (text : Text) : Prop :=
  ∀ word later, word ∈ words → text ≠ word ++ later

/-- The front of that length is a word, and every other word at the front of the text is
shorter and goes on with a character of `inner`. -/
structure Greedy (words : Language Char) (inner : Char → Prop) (text : Text) (length : Nat) :
    Prop where
  belongs : text.take length ∈ words
  fits : length ≤ text.length
  others : ∀ word later, word ∈ words → text = word ++ later →
    word.length = length ∨ word.length < length ∧ ∃ char ∈ later.head?, inner char

variable {words front back : Language Char} {inner outer : Char → Prop} {text : Text}
  {length more : Nat}

/-- A front that is a word is no longer than the longest. -/
theorem Greedy.length_le (greedy : Greedy words inner text length) {word : Text}
    (member : word ∈ words) (isFront : word <+: text) : word.length ≤ length := by
  obtain ⟨later, textEq⟩ := isFront
  rcases greedy.others word later member textEq.symm with same | ⟨shorter, _⟩
  · exact Nat.le_of_eq same
  · exact Nat.le_of_lt shorter

theorem Greedy.mono (greedy : Greedy words inner text length)
    (weaker : ∀ char, inner char → outer char) : Greedy words outer text length where
  belongs := greedy.belongs
  fits := greedy.fits
  others := by
    intro word later member textEq
    rcases greedy.others word later member textEq with same | ⟨shorter, char, isHead, isInner⟩
    · exact Or.inl same
    · exact Or.inr ⟨shorter, char, isHead, weaker char isInner⟩

/-- A word of the second language that follows a word of the first one follows the
longest word of the first one, or it is empty. -/
theorem Greedy.follows (first : Greedy front inner text length)
    (apart : ∀ char later, char :: later ∈ back → ¬ inner char) {left right later : Text}
    (leftMember : left ∈ front) (rightMember : right ∈ back)
    (textEq : text = left ++ (right ++ later)) :
    (left.length = length ∧ text.drop length = right ++ later) ∨
      right = [] ∧ left.length < length ∧ ∃ char ∈ later.head?, inner char := by
  rcases first.others left _ leftMember textEq with same | ⟨shorter, char, isHead, isInner⟩
  · exact Or.inl ⟨same, by rw [textEq, ← same, List.drop_left]⟩
  · right
    cases right with
    | nil => exact ⟨rfl, shorter, char, isHead, isInner⟩
    | cons head right =>
        cases isHead
        exact absurd isInner (apart char right rightMember)

theorem Greedy.mul (first : Greedy front inner text length)
    (second : Greedy back outer (text.drop length) more)
    (apart : ∀ char later, char :: later ∈ back → ¬ inner char) :
    Greedy (front * back) (fun char => inner char ∨ outer char) text (length + more) where
  belongs := by
    rw [List.take_add]
    exact ⟨_, first.belongs, _, second.belongs, rfl⟩
  fits := by
    have firstFits := first.fits
    have secondFits := second.fits
    rw [List.length_drop] at secondFits
    omega
  others := by
    rintro _ later ⟨left, leftMember, right, rightMember, rfl⟩ textEq
    dsimp only at textEq ⊢
    rw [List.append_assoc] at textEq
    rw [List.length_append]
    rcases first.follows apart leftMember rightMember textEq with
      ⟨same, dropEq⟩ | ⟨rfl, shorter, char, isHead, isInner⟩
    · rcases second.others right later rightMember dropEq with
        sameMore | ⟨shorter, char, isHead, isOuter⟩
      · exact Or.inl (by rw [same, sameMore])
      · exact Or.inr ⟨by omega, char, isHead, Or.inr isOuter⟩
    · exact Or.inr ⟨by rw [List.length_nil]; omega, char, isHead, Or.inl isInner⟩

/-- Where no word of the second language stands behind the longest word of the first one,
no word of the product stands at the front. -/
theorem Greedy.noFront_mul (first : Greedy front inner text length)
    (nothing : NoFront back (text.drop length)) (nonempty : [] ∉ back)
    (apart : ∀ char later, char :: later ∈ back → ¬ inner char) : NoFront (front * back) text := by
  rintro _ later ⟨left, leftMember, right, rightMember, rfl⟩ textEq
  dsimp only at textEq
  rw [List.append_assoc] at textEq
  rcases first.follows apart leftMember rightMember textEq with ⟨_, dropEq⟩ | ⟨rfl, _⟩
  · exact nothing right later rightMember dropEq
  · exact nonempty rightMember

theorem NoFront.mul (nothing : NoFront front text) : NoFront (front * back) text := by
  rintro _ later ⟨left, leftMember, right, _, rfl⟩ textEq
  dsimp only at textEq
  rw [List.append_assoc] at textEq
  exact nothing left (right ++ later) leftMember textEq

theorem NoFront.add (left : NoFront front text) (right : NoFront back text) :
    NoFront (front + back) text := by
  rintro word later (member | member) textEq
  · exact left word later member textEq
  · exact right word later member textEq

theorem Greedy.add_left (greedy : Greedy front inner text length)
    (nothing : NoFront back text) : Greedy (front + back) inner text length where
  belongs := Or.inl greedy.belongs
  fits := greedy.fits
  others := by
    rintro word later (member | member) textEq
    · exact greedy.others word later member textEq
    · exact absurd textEq (nothing word later member)

/-! ## Optional words -/

theorem NoFront.optional (nothing : NoFront words text) : Greedy (optional words) inner text 0 where
  belongs := by
    rw [List.take_zero]
    exact Or.inl rfl
  fits := Nat.zero_le _
  others := by
    rintro word later (rfl | member) textEq
    · exact Or.inl rfl
    · exact absurd textEq (nothing word later member)

/-- A word that is there is taken, when the empty word goes on with its first character. -/
theorem Greedy.optional (greedy : Greedy words inner text length)
    (opens : ∃ char ∈ text.head?, inner char) (positive : 0 < length) :
    Greedy (optional words) inner text length where
  belongs := Or.inr greedy.belongs
  fits := greedy.fits
  others := by
    rintro word later (rfl | member) textEq
    · rw [textEq] at opens
      exact Or.inr ⟨positive, opens⟩
    · exact greedy.others word later member textEq

/-! ## Single characters and runs -/

variable {belongs starts continues : Char → Prop} {test : Char → Bool} {char : Char} {rest : Text}

theorem noFront_oneOf (notMember : ¬ belongs char) : NoFront (oneOf belongs) (char :: rest) := by
  rintro word later ⟨other, isMember, rfl⟩ textEq
  rw [(List.cons.inj textEq).1] at notMember
  exact notMember isMember

theorem noFront_oneOf_nil : NoFront (oneOf belongs) [] := by
  rintro word later ⟨other, _, rfl⟩ textEq
  cases textEq

theorem greedy_oneOf (isMember : belongs char) :
    Greedy (oneOf belongs) (fun _ => False) (char :: rest) 1 where
  belongs := ⟨char, isMember, rfl⟩
  fits := Nat.le_add_left 1 rest.length
  others := by
    rintro word later ⟨other, _, rfl⟩ _
    exact Or.inl rfl

/-- Characters that belong are taken as long as there are any. -/
theorem greedy_kstar (same : ∀ char, test char = true ↔ belongs char) :
    Greedy (oneOf belongs)∗ belongs text (runLength test text) where
  belongs := by
    rw [take_runLength, mem_kstar_oneOf_iff]
    exact fun char member => (same char).mp (List.mem_takeWhile_imp member)
  fits := (List.takeWhile_prefix test).length_le
  others := by
    rintro word later member rfl
    have each : ∀ char ∈ word, test char = true :=
      fun char inWord => (same char).mpr (mem_kstar_oneOf_iff.mp member char inWord)
    rw [runLength, List.takeWhile_append_of_pos each, List.length_append]
    cases later with
    | nil => exact Or.inl rfl
    | cons next later =>
        by_cases goesOn : test next = true
        · rw [List.takeWhile_cons_of_pos goesOn, List.length_cons]
          exact Or.inr ⟨by omega, next, rfl, (same next).mp goesOn⟩
        · rw [List.takeWhile_cons_of_neg goesOn]
          exact Or.inl rfl

/-- A single character leaves nothing open for what follows it. -/
theorem Greedy.cons (isMember : belongs char) (greedy : Greedy back outer rest more) :
    Greedy (oneOf belongs * back) outer (char :: rest) (1 + more) :=
  ((greedy_oneOf isMember).mul greedy fun _ _ _ => id).mono
    fun _ isInner => isInner.elim False.elim id

theorem greedy_run (same : ∀ char, test char = true ↔ continues char) (isStart : starts char) :
    Greedy (run starts continues) continues (char :: rest) (1 + runLength test rest) :=
  .cons isStart (greedy_kstar same)

end TemplateFrontend.Lexeme
