import TemplateFrontend.Grammar.Draft

/-!
Contract: loops with a ceiling.

Every loop of the grammar is an instance of `repeatWhile`. The ceiling counts
turns; it is noticed only when the loop would take one turn too many, so a loop
that ends by itself right at the ceiling leaves no trace.
-/

namespace TemplateFrontend.Grammar

/-- How a turn of a loop ends. -/
inductive Turn (State : Type) where
  | again (state : State)
  | done (state : State)

/-- Takes turns while `wanted` holds and no turn says that it is done. `capped`
is applied when a turn is wanted but `budget` turns have been taken. -/
def repeatWhile {State : Type} (wanted : State → Bool) (turn : State → Turn State)
    (capped : State → State) : (budget : Nat) → State → State
  | 0, state => if wanted state then capped state else state
  | budget + 1, state =>
      if wanted state then
        match turn state with
        | .again next => repeatWhile wanted turn capped budget next
        | .done last => last
      else
        state

end TemplateFrontend.Grammar
