import Mathlib

/-! A machine that performs calls, and an abstract state updated beside it.

One step lemma about a representation relation yields the same over a run of any length.
-/

set_option autoImplicit false

namespace Library.Refinement

variable {State Abstract Call Reply : Type}

def runFrom (perform : State → Call → State × Reply) (start : State) (calls : List Call) : State :=
  calls.foldl (fun state call => (perform state call).1) start

theorem runFrom_cons (perform : State → Call → State × Reply) (start : State) (call : Call)
    (calls : List Call) :
    runFrom perform start (call :: calls) = runFrom perform (perform start call).1 calls := rfl

/-- One call keeps the machine's state a representation of the abstract one. -/
def Simulates (perform : State → Call → State × Reply) (update : Abstract → Call → Abstract)
    (Represents : State → Abstract → Prop) : Prop :=
  ∀ state abstract call, Represents state abstract →
    Represents (perform state call).1 (update abstract call)

theorem Simulates.run {perform : State → Call → State × Reply} {update : Abstract → Call → Abstract}
    {Represents : State → Abstract → Prop} (simulates : Simulates perform update Represents)
    {start : State} {abstract : Abstract} (represents : Represents start abstract) (calls : List Call) :
    Represents (runFrom perform start calls) (calls.foldl update abstract) := by
  induction calls generalizing start abstract with
  | nil => exact represents
  | cons call calls ih =>
    rw [runFrom_cons, List.foldl_cons]
    apply ih
    exact simulates start abstract call represents

end Library.Refinement
