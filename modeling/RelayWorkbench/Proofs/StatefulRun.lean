import Mathlib

/-! Running stateful steps one after the other. -/

namespace RelayWorkbench

variable {State α β : Type}

theorem run_bind (first : StateM State α) (next : α → StateM State β) (state : State) :
    (first >>= next).run state = (next (first.run state).1).run (first.run state).2 := rfl

theorem run_pure (value : α) (state : State) :
    (pure value : StateM State α).run state = (value, state) := rfl

end RelayWorkbench
