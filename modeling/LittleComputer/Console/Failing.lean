import LittleComputer.Dialogue

namespace LittleComputer

/-! Consoles that fail as planned -/

inductive RequestKind where
  | poll
  | read
  | write
  | flush
  | interrupt
  deriving DecidableEq

def Request.kind : Request → RequestKind
  | poll => .poll
  | read => .read
  | write _ => .write
  | flush => .flush
  | interrupt => .interrupt

structure PlannedFailure where
  kind : RequestKind
  /-- How many requests of the kind still go through. -/
  after : Nat
  error : ConsoleFailure
  deriving DecidableEq

namespace PlannedFailure

def charge (kind : RequestKind) :
    List PlannedFailure → Option ConsoleFailure × List PlannedFailure
  | [] => (none, [])
  | plan :: plans =>
      if plan.kind = kind then
        match plan.after with
        | 0 => (some plan.error, plans)
        | after + 1 => (none, { plan with after := after } :: plans)
      else
        let (error, plans) := charge kind plans
        (error, plan :: plans)

end PlannedFailure

structure Failing (σ : Type) where
  inner : σ
  plans : List PlannedFailure

namespace Console

variable {σ : Type}

/-- A request that fails does not reach the console. -/
def failing (console : Console σ) : Console (Failing σ) where
  answer request state :=
    match PlannedFailure.charge request.kind state.plans with
    | (some error, plans) => (.error error, { state with plans := plans })
    | (none, plans) =>
        let (answer, inner) := console.answer request state.inner
        (answer, ⟨inner, plans⟩)

/-- Never breaks off a run: the console is not asked. -/
def uninterrupted (console : Console σ) : Console σ where
  answer
    | .interrupt, state => (.ok (), state)
    | request, state => console.answer request state

end Console

end LittleComputer
