import LittleComputer.Dialogue

namespace LittleComputer

/-! Stateful actions -/

/-- Works on a state, may converse, and may fail. A failure keeps the state it was
reached in. -/
def Action (σ ε α : Type) : Type :=
  σ → Dialogue (Except ε α × σ)

namespace Action

variable {σ ε δ α β γ : Type}

def done (value : α) : Action σ ε α :=
  fun state => .done (.ok value, state)

def fail (error : ε) : Action σ ε α :=
  fun state => .done (.error error, state)

def andThen (action : Action σ ε α) (after : α → Action σ ε β) : Action σ ε β :=
  fun state => (action state).bind fun
    | (.ok value, state) => after value state
    | (.error error, state) => .done (.error error, state)

instance : Monad (Action σ ε) where
  pure := done
  bind := andThen

def inspect (view : σ → α) : Action σ ε α :=
  fun state => .done (.ok (view state), state)

def update (change : σ → σ) : Action σ ε Unit :=
  fun state => .done (.ok (), change state)

def note (event : Event) : Action σ ε Unit :=
  fun state => .note event (.done (.ok (), state))

def ask (request : Request) : Action σ ConsoleFailure request.Reply :=
  fun state => .ask request fun answer => .done (answer, state)

def mapError (convert : ε → δ) (action : Action σ ε α) : Action σ δ α :=
  fun state => (action state).bind fun (result, state) =>
    .done (result.mapError convert, state)

/-! Equations -/

@[simp] theorem pure_apply (value : α) (state : σ) :
    (pure value : Action σ ε α) state = .done (.ok value, state) := rfl

@[simp] theorem bind_apply (action : Action σ ε α) (after : α → Action σ ε β)
    (state : σ) :
    (action >>= after) state = (action state).bind fun
      | (.ok value, state) => after value state
      | (.error error, state) => .done (.error error, state) := rfl

@[simp] theorem fail_apply (error : ε) (state : σ) :
    (fail error : Action σ ε α) state = .done (.error error, state) := rfl

@[simp] theorem inspect_apply (view : σ → α) (state : σ) :
    (inspect view : Action σ ε α) state = .done (.ok (view state), state) := rfl

@[simp] theorem update_apply (change : σ → σ) (state : σ) :
    (update change : Action σ ε Unit) state = .done (.ok (), change state) := rfl

@[simp] theorem note_apply (event : Event) (state : σ) :
    (note event : Action σ ε Unit) state = .note event (.done (.ok (), state)) := rfl

@[simp] theorem ask_apply (request : Request) (state : σ) :
    (ask request : Action σ ConsoleFailure request.Reply) state =
      .ask request fun answer => .done (answer, state) := rfl

theorem bind_assoc (action : Action σ ε α) (after : α → Action σ ε β)
    (last : β → Action σ ε γ) :
    (action >>= after) >>= last = action >>= fun value => after value >>= last := by
  funext state
  simp only [bind_apply, Dialogue.bind_assoc]
  congr 1
  funext outcome
  rcases outcome with ⟨error | value, between⟩ <;> rfl

@[simp] theorem mapError_apply (convert : ε → δ) (action : Action σ ε α) (state : σ) :
    action.mapError convert state = (action state).bind fun (result, state) =>
      .done (result.mapError convert, state) := rfl

end Action

end LittleComputer
