import LittleComputer.Action

namespace LittleComputer

/-! What is said in a conversation

A transcript holds the exchanges with a console and the events noted between them.
What every transcript of a dialogue has in common holds whoever answers. -/

abbrev Call : Type := (request : Request) × Answer request

namespace Call

def Fails (call : Call) : Prop :=
  ∃ failure, call.2 = .error failure

@[simp] theorem fails_error (request : Request) (failure : ConsoleFailure) :
    Fails ⟨request, .error failure⟩ :=
  ⟨failure, rfl⟩

@[simp] theorem not_fails_ok (request : Request) (reply : request.Reply) :
    ¬ Fails ⟨request, .ok reply⟩ := by
  intro ⟨failure, hfailure⟩
  cases hfailure

end Call

inductive Moment where
  | note (event : Event)
  | exchange (request : Request) (answer : Answer request)

namespace Moment

def call? : Moment → Option Call
  | note _ => none
  | exchange request answer => some ⟨request, answer⟩

def calls (moments : List Moment) : List Call :=
  moments.filterMap call?

@[simp] theorem calls_nil : calls [] = [] := rfl

@[simp] theorem calls_note (event : Event) (moments : List Moment) :
    calls (note event :: moments) = calls moments := rfl

@[simp] theorem calls_exchange (request : Request) (answer : Answer request)
    (moments : List Moment) :
    calls (exchange request answer :: moments) = ⟨request, answer⟩ :: calls moments := rfl

@[simp] theorem calls_append (first second : List Moment) :
    calls (first ++ second) = calls first ++ calls second :=
  List.filterMap_append

end Moment

namespace Dialogue

variable {α β σ : Type}

def transcript (console : Console σ) : Dialogue α → σ → List Moment
  | done _, _ => []
  | note event rest, state => .note event :: rest.transcript console state
  | ask request next, state =>
      let (answer, after) := console.answer request state
      .exchange request answer :: (next answer).transcript console after

@[simp] theorem transcript_done (console : Console σ) (value : α) (state : σ) :
    (done value).transcript console state = [] := rfl

@[simp] theorem transcript_note (console : Console σ) (event : Event)
    (rest : Dialogue α) (state : σ) :
    (note event rest).transcript console state =
      .note event :: rest.transcript console state := rfl

@[simp] theorem transcript_ask (console : Console σ) (request : Request)
    (next : Answer request → Dialogue α) (state : σ) :
    (ask request next).transcript console state =
      .exchange request (console.answer request state).1 ::
        (next (console.answer request state).1).transcript console
          (console.answer request state).2 := rfl

theorem transcript_bind (console : Console σ) (dialogue : Dialogue α)
    (after : α → Dialogue β) (state : σ) :
    (dialogue.bind after).transcript console state =
      dialogue.transcript console state ++
        (after (dialogue.converse console state).1).transcript console
          (dialogue.converse console state).2 := by
  induction dialogue generalizing state with
  | done value => rfl
  | note event rest ih => simp [ih]
  | ask request next ih => simp [ih]

def calls (console : Console σ) (dialogue : Dialogue α) (state : σ) : List Call :=
  Moment.calls (dialogue.transcript console state)

@[simp] theorem calls_done (console : Console σ) (value : α) (state : σ) :
    (done value).calls console state = [] := rfl

@[simp] theorem calls_note (console : Console σ) (event : Event) (rest : Dialogue α)
    (state : σ) : (note event rest).calls console state = rest.calls console state := rfl

@[simp] theorem calls_ask (console : Console σ) (request : Request)
    (next : Answer request → Dialogue α) (state : σ) :
    (ask request next).calls console state =
      ⟨request, (console.answer request state).1⟩ ::
        (next (console.answer request state).1).calls console
          (console.answer request state).2 := rfl

theorem calls_bind (console : Console σ) (dialogue : Dialogue α) (after : α → Dialogue β)
    (state : σ) :
    (dialogue.bind after).calls console state =
      dialogue.calls console state ++
        (after (dialogue.converse console state).1).calls console
          (dialogue.converse console state).2 := by
  rw [calls, transcript_bind, Moment.calls_append]
  rfl

def Quiet (console : Console σ) (dialogue : Dialogue α) (state : σ) : Prop :=
  ∀ call ∈ dialogue.calls console state, ¬ call.Fails

@[simp] theorem quiet_done (console : Console σ) (value : α) (state : σ) :
    (done value).Quiet console state :=
  nofun

@[simp] theorem quiet_note (console : Console σ) (event : Event) (rest : Dialogue α)
    (state : σ) :
    (note event rest).Quiet console state ↔ rest.Quiet console state := Iff.rfl

theorem quiet_ask (console : Console σ) (request : Request)
    (next : Answer request → Dialogue α) (state : σ) :
    (ask request next).Quiet console state ↔
      (∃ reply, (console.answer request state).1 = .ok reply) ∧
        (next (console.answer request state).1).Quiet console
          (console.answer request state).2 := by
  simp only [Quiet, calls_ask, List.forall_mem_cons]
  cases (console.answer request state).1 with
  | error error => simp
  | ok reply => simp

theorem quiet_bind (console : Console σ) (dialogue : Dialogue α)
    (after : α → Dialogue β) (state : σ) :
    (dialogue.bind after).Quiet console state ↔
      dialogue.Quiet console state ∧
        (after (dialogue.converse console state).1).Quiet console
          (dialogue.converse console state).2 := by
  simp only [Quiet, calls_bind, List.forall_mem_append]

/-- Whatever the answers are, the transcript and the value have the property. -/
def Ensures (property : List Moment → α → Prop) : Dialogue α → Prop
  | done value => property [] value
  | note event rest => rest.Ensures fun moments => property (.note event :: moments)
  | ask request next => ∀ answer : Answer request,
      (next answer).Ensures fun moments => property (.exchange request answer :: moments)

@[simp] theorem ensures_done (property : List Moment → α → Prop) (value : α) :
    (done value).Ensures property ↔ property [] value := Iff.rfl

@[simp] theorem ensures_note (property : List Moment → α → Prop) (event : Event)
    (rest : Dialogue α) :
    (note event rest).Ensures property ↔
      rest.Ensures fun moments => property (.note event :: moments) := Iff.rfl

@[simp] theorem ensures_ask (property : List Moment → α → Prop) (request : Request)
    (next : Answer request → Dialogue α) :
    (ask request next).Ensures property ↔
      ∀ answer : Answer request, (next answer).Ensures fun moments =>
        property (.exchange request answer :: moments) := Iff.rfl

theorem ensures_bind (dialogue : Dialogue α) (after : α → Dialogue β)
    (property : List Moment → β → Prop) :
    (dialogue.bind after).Ensures property ↔
      dialogue.Ensures fun before value =>
        (after value).Ensures fun moments => property (before ++ moments) := by
  induction dialogue generalizing property with
  | done value => rfl
  | note event rest ih => exact ih _
  | ask request next ih => exact forall_congr' fun answer => ih answer _

theorem Ensures.mono {dialogue : Dialogue α} {property weaker : List Moment → α → Prop}
    (hensures : dialogue.Ensures property)
    (himp : ∀ moments value, property moments value → weaker moments value) :
    dialogue.Ensures weaker := by
  induction dialogue generalizing property weaker with
  | done value => exact himp _ _ hensures
  | note event rest ih => exact ih hensures fun _ value => himp _ value
  | ask request next ih =>
      exact fun answer => ih answer (hensures answer) fun _ value => himp _ value

theorem Ensures.and {dialogue : Dialogue α} {first second : List Moment → α → Prop}
    (hfirst : dialogue.Ensures first) (hsecond : dialogue.Ensures second) :
    dialogue.Ensures fun moments value => first moments value ∧ second moments value := by
  induction dialogue generalizing first second with
  | done value => exact ⟨hfirst, hsecond⟩
  | note event rest ih => exact ih hfirst hsecond
  | ask request next ih => exact fun answer => ih answer (hfirst answer) (hsecond answer)

theorem ensures_of_forall {property : List Moment → α → Prop}
    (hproperty : ∀ moments value, property moments value) (dialogue : Dialogue α) :
    dialogue.Ensures property := by
  induction dialogue generalizing property with
  | done value => exact hproperty _ _
  | note event rest ih => exact ih fun _ value => hproperty _ value
  | ask request next ih => exact fun answer => ih answer fun _ value => hproperty _ value

theorem Ensures.converse {dialogue : Dialogue α} {property : List Moment → α → Prop}
    (hensures : dialogue.Ensures property) (console : Console σ) (state : σ) :
    property (dialogue.transcript console state) (dialogue.converse console state).1 := by
  induction dialogue generalizing property state with
  | done value => exact hensures
  | note event rest ih => exact ih hensures state
  | ask request next ih => exact ih _ (hensures _) _

end Dialogue

/-! A console that keeps a log of its calls -/

namespace Console

variable {σ : Type}

def logged (console : Console σ) : Console (σ × List Call) where
  answer request state :=
    let (answer, after) := console.answer request state.1
    (answer, after, state.2 ++ [⟨request, answer⟩])

@[simp] theorem answer_logged (console : Console σ) (request : Request)
    (state : σ × List Call) :
    console.logged.answer request state =
      ((console.answer request state.1).1, (console.answer request state.1).2,
        state.2 ++ [⟨request, (console.answer request state.1).1⟩]) := rfl

end Console

theorem Dialogue.converse_logged {α σ : Type} (console : Console σ) (dialogue : Dialogue α)
    (state : σ) (log : List Call) :
    dialogue.converse console.logged (state, log) =
      ((dialogue.converse console state).1, (dialogue.converse console state).2,
        log ++ dialogue.calls console state) := by
  induction dialogue generalizing state log with
  | done value => simp
  | note event rest ih => simp [ih]
  | ask request next ih => simp [ih]

namespace Action

variable {σ ε δ α β : Type}

def Ensures (action : Action σ ε α)
    (relation : σ → List Moment → Except ε α → σ → Prop) : Prop :=
  ∀ before, (action before).Ensures fun moments outcome =>
    relation before moments outcome.1 outcome.2

theorem Ensures.bind {action : Action σ ε α} {after : α → Action σ ε β}
    {first : σ → List Moment → Except ε α → σ → Prop}
    {second whole : σ → List Moment → Except ε β → σ → Prop}
    (haction : action.Ensures first)
    (hafter : ∀ value, (after value).Ensures second)
    (hok : ∀ start before value middle moments result finish,
      first start before (.ok value) middle → second middle moments result finish →
        whole start (before ++ moments) result finish)
    (herror : ∀ start before error finish,
      first start before (.error error) finish →
        whole start before (.error error) finish) :
    (action >>= after).Ensures whole := by
  intro start
  rw [bind_apply, Dialogue.ensures_bind]
  apply (haction start).mono
  intro before outcome hfirst
  obtain ⟨result, middle⟩ := outcome
  cases result with
  | ok value =>
      exact (hafter value middle).mono fun moments outcome hsecond =>
        hok start before value middle moments outcome.1 outcome.2 hfirst hsecond
  | error error =>
      simpa using herror start before error middle hfirst

theorem Ensures.mapError {action : Action σ ε α}
    {relation : σ → List Moment → Except ε α → σ → Prop}
    {mapped : σ → List Moment → Except δ α → σ → Prop} (convert : ε → δ)
    (haction : action.Ensures relation)
    (himp : ∀ start moments result finish, relation start moments result finish →
      mapped start moments (result.mapError convert) finish) :
    (action.mapError convert).Ensures mapped := by
  intro start
  rw [mapError_apply, Dialogue.ensures_bind]
  apply (haction start).mono
  intro moments outcome hrelation
  obtain ⟨result, finish⟩ := outcome
  simpa using himp start moments result finish hrelation

theorem Ensures.mono {action : Action σ ε α}
    {relation weaker : σ → List Moment → Except ε α → σ → Prop}
    (haction : action.Ensures relation)
    (himp : ∀ start moments result finish, relation start moments result finish →
      weaker start moments result finish) :
    action.Ensures weaker :=
  fun start => (haction start).mono fun moments outcome =>
    himp start moments outcome.1 outcome.2

end Action

end LittleComputer
