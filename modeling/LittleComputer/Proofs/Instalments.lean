import LittleComputer.Proofs.ReportedFailures
import LittleComputer.Proofs.Simulation

namespace LittleComputer

/-! Input that arrives in instalments -/

namespace Call

def Served (call : Call) : Prop :=
  ¬ call.Fails ∧ call.found? ≠ some none

theorem served_of_unfailed {calls : List Call} (hunfailed : ∀ call ∈ calls, ¬ Fails call)
    (hfound : none ∉ found calls) : ∀ call ∈ calls, Served call :=
  fun call hmem => ⟨hunfailed call hmem,
    fun hnone => hfound (List.mem_filterMap.mpr ⟨call, hmem, hnone⟩)⟩

end Call

namespace Dialogue

variable {α σ τ : Type}

theorem converse_map {console : Console σ} {other : Console τ} {view : σ → τ}
    (allowed : Call → Prop)
    (hanswer : ∀ request state, allowed ⟨request, (console.answer request state).1⟩ →
      other.answer request (view state) =
        ((console.answer request state).1, view (console.answer request state).2))
    {dialogue : Dialogue α} {state : σ}
    (hcalls : ∀ call ∈ dialogue.calls console state, allowed call) :
    dialogue.converse other (view state) =
      ((dialogue.converse console state).1, view (dialogue.converse console state).2) := by
  have himitates : other.Imitates console (fun state elsewhere => elsewhere = view state)
      allowed := by
    rintro request state _ rfl hallowed
    rw [hanswer request state hallowed]
    exact ⟨rfl, rfl⟩
  obtain ⟨hvalue, _, hview⟩ := converse_imitated himitates rfl hcalls
  exact Prod.ext hvalue hview

end Dialogue

namespace Script

def following (said : Array Byte) (flushes : Nat) (script : Script) : Script :=
  { script with output := said ++ script.output, flushes := flushes + script.flushes }

def told (bytes : List Byte) (flushes : Nat) (script : Script) : Script :=
  { script with output := script.output ++ bytes, flushes := flushes }

theorem told_nothing (script : Script) : script.told [] script.flushes = script := by
  rw [told, Array.appendList_nil]

theorem told_told (script : Script) (first second : List Byte) (between flushes : Nat) :
    (script.told first between).told second flushes = script.told (first ++ second) flushes := by
  have houtput : script.output ++ first ++ second = script.output ++ (first ++ second) :=
    Array.ext' (by simp)
  simp only [told, houtput]

theorem answer_following (said : Array Byte) (flushes : Nat) (request : Request) (script : Script) :
    console.answer request (script.following said flushes) =
      ((console.answer request script).1,
        (console.answer request script).2.following said flushes) := by
  rcases script with ⟨input, output, interruptPending, count⟩
  cases request with
  | poll | read => cases input <;> rfl
  | write bytes =>
      have hwritten : said ++ output ++ bytes = said ++ (output ++ bytes) :=
        Array.ext' (by simp)
      simp only [console, answer, following, hwritten]
  | flush => rfl
  | interrupt => cases interruptPending <;> rfl

theorem answer_feed (more : List Byte) {request : Request} {script : Script}
    (hserved : Call.Served ⟨request, (console.answer request script).1⟩) :
    console.answer request (script.feed more) =
      ((console.answer request script).1, (console.answer request script).2.feed more) := by
  rcases script with ⟨input, output, interruptPending, count⟩
  cases request with
  | poll =>
      cases input with
      | nil => exact absurd rfl hserved.2
      | cons key input => rfl
  | read =>
      cases input with
      | nil => exact absurd (Call.fails_error .read .closed) hserved.1
      | cons key input => rfl
  | write | flush => rfl
  | interrupt => cases interruptPending <;> rfl

theorem read_of_closed {α : Type} {dialogue : Dialogue α} {script : Script} {request : Request}
    (hmem : ⟨request, .error .closed⟩ ∈ dialogue.calls console script) : request = .read := by
  obtain hread | hinterrupt := failing_call hmem (Call.fails_error request .closed)
  · exact congrArg Sigma.fst hread
  · cases hinterrupt

theorem converse_following {α : Type} (dialogue : Dialogue α) (said : Array Byte)
    (flushes : Nat) (script : Script) :
    dialogue.converse console (script.following said flushes) =
      ((dialogue.converse console script).1,
        (dialogue.converse console script).2.following said flushes) :=
  Dialogue.converse_map (fun _ => True)
    (fun request script _ => answer_following said flushes request script) fun _ _ => trivial

theorem converse_feed {α : Type} (more : List Byte) {dialogue : Dialogue α} {script : Script}
    (hserved : ∀ call ∈ dialogue.calls console script, Call.Served call) :
    dialogue.converse console (script.feed more) =
      ((dialogue.converse console script).1, (dialogue.converse console script).2.feed more) :=
  Dialogue.converse_map Call.Served (fun _ _ hcall => answer_feed more hcall) hserved

end Script

namespace Effect

variable {script : Script}

theorem converse_getc (machine : Machine) (hinput : script.input = []) :
    (service .getc machine).converse Script.console script =
      ((.error (.console .closed), machine), script) := by
  rcases script with ⟨input, output, interruptPending, flushes⟩
  cases hinput
  rfl

theorem converse_input (machine : Machine) (hinput : script.input = []) :
    (service .input machine).converse Script.console script =
      ((.error (.console .closed), machine),
        script.told TrapService.prompt.toUTF8.data.toList (script.flushes + 1)) := by
  rcases script with ⟨input, output, interruptPending, flushes⟩
  cases hinput
  rfl

theorem converse_served {requested : TrapService} (machine : Machine)
    (hreader : requested = .getc ∨ requested = .input) (hinput : script.input ≠ []) :
    ∃ final left, (service requested machine).converse Script.console script =
      ((.ok .completed, final), left) := by
  rcases script with ⟨_ | ⟨key, input⟩, output, interruptPending, flushes⟩
  · exact absurd rfl hinput
  · rcases hreader with rfl | rfl <;> exact ⟨_, _, rfl⟩

end Effect

namespace Machine

section

variable {machine : Machine} {script : Script}

/-- A step that misses input to read is undone, and has said no more than the prompt. -/
theorem step_closed {final : Machine} {after : Script} {pc : Word}
    (hstep : (step machine).converse Script.console script =
      ((.error ⟨pc, .console .closed⟩, final), after)) :
    final = machine ∧ ∃ prompt flushes, after = script.told prompt flushes ∧
      (machine.Requests .getc ∧ prompt = [] ∨
        machine.Requests .input ∧ prompt = TrapService.prompt.toUTF8.data.toList) := by
  have hreported := step_reported Script.console machine script
  rw [hstep] at hreported
  obtain ⟨request, hmem⟩ := (hreported.console_iff .closed).mp ⟨_, rfl, rfl⟩
  obtain rfl := Script.read_of_closed hmem
  by_cases hservice : ∃ requested, machine.Requests requested
  · obtain ⟨requested, hrequests⟩ := hservice
    rw [step_requested hrequests] at hstep hmem
    simp only [Dialogue.calls_note, Dialogue.calls_bind, Dialogue.calls_done,
      List.append_nil] at hmem
    have hreader := Effect.reader_of_read hmem
    rw [Dialogue.converse_note, Dialogue.converse_bind] at hstep
    by_cases hinput : script.input = []
    · rcases hreader with rfl | rfl
      · rw [Effect.converse_getc _ hinput] at hstep
        cases hstep
        exact ⟨rfl, [], _, script.told_nothing.symm, .inl ⟨hrequests, rfl⟩⟩
      · rw [Effect.converse_input _ hinput] at hstep
        cases hstep
        exact ⟨rfl, _, _, rfl, .inr ⟨hrequests, rfl⟩⟩
    · obtain ⟨_, _, hserved⟩ := Effect.converse_served machine.serving hreader hinput
      rw [hserved] at hstep
      cases hstep
  · have hfootprint := step_footprint Script.console (not_exists.mp hservice) script
    cases hfootprint.poll_of_mem hmem

theorem steps_feed (more : List Byte) {count : Nat} {reached : Machine} {left : Script}
    (hsteps : (steps count machine).converse Script.console script = ((.ok (), reached), left))
    (hfound : none ∉ Call.found ((steps count machine).calls Script.console script)) :
    (steps count machine).converse Script.console (script.feed more) =
      ((.ok (), reached), left.feed more) := by
  have hreported := (failures_law.steps count machine).converse Script.console script
  rw [hsteps] at hreported
  rw [Script.converse_feed more (Call.served_of_unfailed hreported.unfailed_of_ok hfound), hsteps]

end

theorem attempts_told (machine : Machine) (script : Script) (bytes : List Byte)
    (flushes further : Nat) :
    let resumed := (attempts further machine).converse Script.console (script.told bytes flushes)
    let continued := (attempts further machine).converse Script.console script
    resumed.1 = continued.1 ∧
      ((step resumed.1).converse Script.console resumed.2).1 =
        ((step continued.1).converse Script.console continued.2).1 ∧
      resumed.2.input = continued.2.input ∧
      ∃ later, resumed.2.output = script.output ++ bytes ++ later ∧
        continued.2.output = script.output ++ later := by
  intro resumed continued
  -- Both scripts are a fresh one with something said before it.
  let fresh : Script := { input := script.input, interruptPending := script.interruptPending }
  have hresumed := Script.converse_following (attempts further machine)
    (script.output ++ bytes) flushes fresh
  have hcontinued := Script.converse_following (attempts further machine)
    script.output script.flushes fresh
  have htold : fresh.following (script.output ++ bytes) flushes = script.told bytes flushes := by
    simp [fresh, Script.following, Script.told]
  have hscript : fresh.following script.output script.flushes = script := by
    simp [fresh, Script.following]
  rw [htold] at hresumed
  rw [hscript] at hcontinued
  simp only [resumed, continued, hresumed, hcontinued, Script.converse_following]
  exact ⟨trivial, trivial, rfl, _, rfl, rfl⟩

/-- Input that comes later changes nothing that is done before it is missing. A step that found
none to read is undone, and when there is more the machine goes on as if all had been there from
the beginning, but for a prompt that it shows again. -/
theorem input_in_instalments (machine : Machine) (script : Script) (count : Nat)
    (reached : Machine) (left : Script) (more : List Byte)
    (hsteps : (steps count machine).converse Script.console script = ((.ok (), reached), left))
    (hfound : none ∉ Call.found ((steps count machine).calls Script.console script)) :
    (∀ fewer ≤ count, ∃ middle between,
      (steps fewer machine).converse Script.console script = ((.ok (), middle), between) ∧
        (steps fewer machine).converse Script.console (script.feed more) =
          ((.ok (), middle), between.feed more)) ∧
    ∀ pc final after,
      (step reached).converse Script.console left =
          ((.error ⟨pc, .console .closed⟩, final), after) →
        final = reached ∧
        ∃ prompt : List Byte,
          (reached.Requests .getc ∧ prompt = [] ∨
            reached.Requests .input ∧ prompt = TrapService.prompt.toUTF8.data.toList) ∧
          ∀ further,
            let resumed := (attempts further final).converse Script.console (after.feed more)
            let continued := (attempts further reached).converse Script.console (left.feed more)
            resumed.1 = continued.1 ∧
              ((step resumed.1).converse Script.console resumed.2).1 =
                ((step continued.1).converse Script.console continued.2).1 ∧
              resumed.2.input = continued.2.input ∧
              ∃ later, resumed.2.output = left.output ++ prompt ++ later ∧
                continued.2.output = left.output ++ later := by
  refine ⟨fun fewer hle => ?_, fun pc final after hstep => ?_⟩
  · obtain ⟨middle, between, later, hfewer, hcalls⟩ := steps_of_le hle hsteps
    rw [hcalls, Call.found_append] at hfound
    have hearlier := fun hnone => hfound (List.mem_append_left _ hnone)
    exact ⟨middle, between, hfewer, steps_feed more hfewer hearlier⟩
  · obtain ⟨rfl, prompt, flushes, rfl, hprompt⟩ := step_closed hstep
    exact ⟨rfl, prompt, hprompt, attempts_told final (left.feed more) prompt flushes⟩

theorem second_character_late :
    ∃ reached left,
      (steps 1 (holding {} [0xF020, 0xF023])).converse Script.console { input := [0x61] } =
          ((.ok (), reached), left) ∧
        (steps 1 (holding {} [0xF020, 0xF023])).converse Script.console
            { input := [0x61, 0x62] } = ((.ok (), reached), left.feed [0x62]) ∧
        ∃ pc after, (step reached).converse Script.console left =
            ((.error ⟨pc, .console .closed⟩, reached), after) ∧
          ((step reached).converse Script.console (after.feed [0x62])).1 =
            ((step reached).converse Script.console (left.feed [0x62])).1 := by
  let machine := holding {} [0xF020, 0xF023]
  have hwords : machine.memory.peek 0x3000 = 0xF020 ∧ machine.memory.peek 0x3001 = 0xF023 := by
    simp [machine, holding, ofConfig, Memory.writeWords, Region.first, Memory.peek_write]
  have hfirst : machine.Requests .getc :=
    ⟨rfl, show (0x3000 : Word) ≠ _ by decide, (congrArg _ hwords.1).trans (by decide)⟩
  obtain ⟨reached, left, hsteps, hcalls, hrunning, hpc, hmemory, hinput⟩ : ∃ reached left,
      (steps 1 machine).converse Script.console { input := [0x61] } =
          ((.ok (), reached), left) ∧
        (steps 1 machine).calls Script.console { input := [0x61] } = [⟨.read, .ok 0x61⟩] ∧
        reached.status = .running ∧ reached.registers.pc = 0x3001 ∧
        reached.memory = machine.memory ∧ left.input = [] := by
    rw [steps, Action.bind_apply, step_requested hfirst]
    exact ⟨_, _, rfl, rfl, rfl, rfl, rfl, rfl⟩
  have hsecond : reached.Requests .input := by
    refine ⟨hrunning, ?_, ?_⟩
    · rw [hpc]
      decide
    · rw [hpc, hmemory, hwords.2]
      decide
  have hfault : (step reached).converse Script.console left =
      ((.error ⟨reached.registers.pc, .console .closed⟩, reached),
        left.told TrapService.prompt.toUTF8.data.toList (left.flushes + 1)) := by
    rw [step_requested hsecond, Dialogue.converse_note, Dialogue.converse_bind,
      Effect.converse_input _ hinput]
    rfl
  obtain ⟨hbefore, hresumes⟩ := input_in_instalments machine { input := [0x61] } 1 reached left
    [0x62] hsteps (by rw [hcalls]; decide)
  obtain ⟨_, _, _, hresumed⟩ := hresumes _ _ _ hfault
  obtain ⟨_, hnext, _⟩ := hresumed 0
  obtain ⟨middle, between, hfewer, hfed⟩ := hbefore 1 (Nat.le_refl 1)
  rw [hsteps] at hfewer
  cases hfewer
  exact ⟨reached, left, hsteps, hfed, _, _, hfault, hnext⟩

end Machine

end LittleComputer
