import TemplateFrontend.Fault
import TemplateFrontend.Limits

/-!
Contract: everything that would stop a recording, and sums and differences of words.

Owns:
- the type `Breach`, one constructor for each way in which a recording can break
  off;
- `Word.of`, `Word.add` and `Word.sub`, which refuse results that are no words.

Lengths, offsets, counters and positions are words of 32 bits.
-/

namespace TemplateFrontend

/-- A way in which a recording breaks off. -/
inductive Breach where
  /-- A rule of the library is broken. -/
  | fault (fault : Fault)
  /-- The sum is greater than the greatest word. -/
  | overflow (left right : Nat)
  /-- The difference is below zero. -/
  | underflow (left right : Nat)
  /-- The marker has been completed or abandoned before. -/
  | spentMarker (serial : Nat)
  /-- No event has the position of the completed marker. -/
  | positionOutside (position : Nat)
  /-- The event at the position of the completed marker starts no node. -/
  | noStart (position : Nat)
  /-- The last event is not what the abandoned marker has put there. -/
  | foreignEvent (position : Nat)
  /-- A marker is neither completed nor abandoned at the end. -/
  | lostMarker (serial : Nat)
deriving DecidableEq, Repr

/-- The answer of the library, with its fault as a breach. -/
def Breach.ofFault {Answer : Type} (answer : Except Fault Answer) : Except Breach Answer :=
  match answer with
  | .ok value => .ok value
  | .error broken => .error (.fault broken)

namespace Word

/-- A number, if it is a word. -/
def of (number : Nat) : Except Breach Nat :=
  if number ≤ Limits.greatest then .ok number else .error (.overflow number 0)

def add (left right : Nat) : Except Breach Nat :=
  if left + right ≤ Limits.greatest then .ok (left + right) else .error (.overflow left right)

def sub (left right : Nat) : Except Breach Nat :=
  if right ≤ left then .ok (left - right) else .error (.underflow left right)

theorem of_of_le {number : Nat} (le : number ≤ Limits.greatest) : of number = .ok number :=
  if_pos le

theorem add_of_le {left right : Nat} (le : left + right ≤ Limits.greatest) :
    add left right = .ok (left + right) :=
  if_pos le

theorem sub_of_le {left right : Nat} (le : right ≤ left) : sub left right = .ok (left - right) :=
  if_pos le

/-- A difference that is taken back from a sum. -/
theorem sub_of_add_eq {left right difference : Nat} (sum : difference + right = left) :
    sub left right = .ok difference := by
  rw [sub_of_le (by omega), ← sum, Nat.add_sub_cancel]

end Word

end TemplateFrontend
