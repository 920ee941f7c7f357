/-! Work that may fail, one piece after another.

The state is kept on both ways: a piece that fails leaves what was done before it.
-/

set_option autoImplicit false

namespace ReplyFlow

theorem run_bind {σ ε α β : Type} (state : σ) (first : ExceptT ε (StateM σ) α)
    (next : α → ExceptT ε (StateM σ) β) :
    (first >>= next).run.run state =
      match first.run.run state with
      | (.ok value, after) => (next value).run.run after
      | (.error fault, after) => (.error fault, after) := by
  unfold ExceptT.run StateT.run
  simp only [bind, ExceptT.bind, ExceptT.mk, StateT.bind]
  cases first state with
  | mk result after => cases result <;> rfl

theorem run_get_bind {σ ε β : Type} (state : σ) (next : σ → ExceptT ε (StateM σ) β) :
    (get >>= next).run.run state = (next state).run.run state := rfl

end ReplyFlow
