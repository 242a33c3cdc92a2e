import LittleComputer.Journal.Event

namespace LittleComputer

/-! Conversations with a console

What a machine does with its console is a tree: it asks, and goes on in a way that
depends on the answer. The tree does not depend on who answers. -/

inductive Request where
  | poll
  | read
  | write (bytes : List Byte)
  | flush
  | interrupt
  deriving DecidableEq

abbrev Request.Reply : Request → Type
  | poll => Option Byte
  | read => Byte
  | write _ => Unit
  | flush => Unit
  | interrupt => Unit

abbrev Answer (request : Request) : Type :=
  Except ConsoleFailure request.Reply

inductive Dialogue (α : Type) where
  | done (value : α)
  | note (event : Event) (rest : Dialogue α)
  | ask (request : Request) (next : Answer request → Dialogue α)

structure Console (σ : Type) where
  answer : (request : Request) → σ → Answer request × σ

namespace Dialogue

variable {α β γ σ : Type}

def bind : Dialogue α → (α → Dialogue β) → Dialogue β
  | done value, after => after value
  | note event rest, after => note event (rest.bind after)
  | ask request next, after => ask request fun answer => (next answer).bind after

@[simp] theorem bind_done (value : α) (after : α → Dialogue β) :
    (done value).bind after = after value := rfl

@[simp] theorem bind_note (event : Event) (rest : Dialogue α) (after : α → Dialogue β) :
    (note event rest).bind after = note event (rest.bind after) := rfl

@[simp] theorem bind_ask (request : Request) (next : Answer request → Dialogue α)
    (after : α → Dialogue β) :
    (ask request next).bind after =
      ask request fun answer => (next answer).bind after := rfl

theorem bind_assoc (dialogue : Dialogue α) (after : α → Dialogue β)
    (last : β → Dialogue γ) :
    (dialogue.bind after).bind last =
      dialogue.bind fun value => (after value).bind last := by
  induction dialogue with
  | done value => rfl
  | note event rest ih => simp [ih]
  | ask request next ih => simp [ih]

def notes (events : List Event) (rest : Dialogue α) : Dialogue α :=
  events.foldr note rest

def converse (console : Console σ) : Dialogue α → σ → α × σ
  | done value, state => (value, state)
  | note _ rest, state => rest.converse console state
  | ask request next, state =>
      let (answer, state) := console.answer request state
      (next answer).converse console state

@[simp] theorem converse_done (console : Console σ) (value : α) (state : σ) :
    (done value).converse console state = (value, state) := rfl

@[simp] theorem converse_note (console : Console σ) (event : Event) (rest : Dialogue α)
    (state : σ) :
    (note event rest).converse console state = rest.converse console state := rfl

@[simp] theorem converse_ask (console : Console σ) (request : Request)
    (next : Answer request → Dialogue α) (state : σ) :
    (ask request next).converse console state =
      (next (console.answer request state).1).converse console
        (console.answer request state).2 := rfl

theorem converse_notes (console : Console σ) (events : List Event) (rest : Dialogue α)
    (state : σ) :
    (notes events rest).converse console state = rest.converse console state := by
  induction events with
  | nil => rfl
  | cons event events ih => exact ih

theorem converse_bind (console : Console σ) (dialogue : Dialogue α)
    (after : α → Dialogue β) (state : σ) :
    (dialogue.bind after).converse console state =
      (after (dialogue.converse console state).1).converse console
        (dialogue.converse console state).2 := by
  induction dialogue generalizing state with
  | done value => rfl
  | note event rest ih => simp [ih]
  | ask request next ih => simp [ih]

/-- Holds the conversation and adds the events that `keep` selects to a journal. -/
def record (console : Console σ) (keep : Event → Bool) :
    Dialogue α → σ → Array Event → (α × σ) × Array Event
  | done value, state, journal => ((value, state), journal)
  | note event rest, state, journal =>
      rest.record console keep state (if keep event then journal.push event else journal)
  | ask request next, state, journal =>
      let (answer, state) := console.answer request state
      (next answer).record console keep state journal

theorem record_fst (console : Console σ) (keep : Event → Bool) (dialogue : Dialogue α)
    (state : σ) (journal : Array Event) :
    (dialogue.record console keep state journal).1 = dialogue.converse console state := by
  induction dialogue generalizing state journal with
  | done value => rfl
  | note event rest ih => simp [record, ih]
  | ask request next ih => simp [record, ih]

end Dialogue

end LittleComputer
