import LittleComputer.Console.Scripted
import LittleComputer.Proofs.Attempts
import LittleComputer.Proofs.FailingCalls
import LittleComputer.Proofs.Loop
import LittleComputer.Proofs.ServiceCalls

namespace LittleComputer

/-! Failures of the console and what a machine reports -/

namespace Action

variable {σ ε δ α β : Type}

/-- The action tells of every call that fails, by failing there itself. -/
def Reports (cause : ε → Fault.Cause) (action : Action σ ε α) : Prop :=
  action.Ensures fun _ moments result _ => Call.Reported cause (Moment.calls moments) result

theorem Reports.bind {cause : ε → Fault.Cause} {action : Action σ ε α}
    {after : α → Action σ ε β} (haction : action.Reports cause)
    (hafter : ∀ value, (after value).Reports cause) : (action >>= after).Reports cause := by
  refine Ensures.bind haction hafter ?_ fun _ _ _ _ hfirst => hfirst.error
  intro _ before _ _ moments _ _ hfirst hsecond
  rw [Moment.calls_append]
  exact hfirst.append hsecond

end Action

namespace Effect

theorem ask_reports (request : Request) : (ask request).Reports id := by
  intro machine answer
  cases answer with
  | error failure => exact .failed [] nofun rfl
  | ok reply => exact .unfailed (Call.unfailed_single request reply) nofun

theorem load_reports (address : Word) : (load address).Reports id := by
  intro machine
  by_cases hstatus : address = DeviceCell.keyboardStatus.address
  · subst hstatus
    rw [load_status]
    intro answer
    rcases answer with failure | _ | key
    · exact .failed [] nofun rfl
    · exact .unfailed (Call.unfailed_single .poll none) nofun
    · exact .unfailed (Call.unfailed_single .poll (some key)) nofun
  · rw [load_plain hstatus]
    exact .unfailed nofun nofun

theorem parts_report : CycleParts fun effect => effect.Reports id where
  pure _ _ := .unfailed nofun nofun
  bind := .bind
  registers _ := .unfailed nofun nofun
  changeRegisters _ _ := .unfailed nofun nofun
  string _ := .unfailed nofun nofun
  packedString _ := .unfailed nofun nofun
  banner _ := .unfailed nofun nofun
  write _ := ask_reports _
  flush := ask_reports _
  read := ask_reports _
  load := load_reports
  store _ _ _ := .unfailed nofun nofun
  note _ _ := .unfailed nofun nofun

theorem fail_reports {cause : Fault.Cause} (hkind : cause.kind = .program) :
    (Action.fail cause : Effect StepResult).Reports id := by
  intro machine
  refine .unfailed nofun fun error herror => ?_
  cases herror
  exact hkind

def Accepted {α : Type} (effect : Effect α) : Prop :=
  effect.Ensures fun _ _ result _ => ∀ cause, result = .error cause → cause.kind = .console

theorem ask_accepted (request : Request) : Accepted (ask request) := by
  intro machine answer cause hcause
  cases answer with
  | error failure =>
      cases hcause
      rfl
  | ok reply => cases hcause

theorem load_accepted (address : Word) : Accepted (load address) := by
  intro machine
  rw [load_eq, Dialogue.ensures_bind]
  refine Dialogue.ensures_of_forall (fun moments outcome => ?_) _
  intro cause hcause
  rcases outcome with ⟨failure | word, memory⟩
  · cases hcause
    rfl
  · cases hcause

theorem parts_accepted : CycleParts fun effect => Accepted effect where
  pure _ _ := nofun
  bind heffect hafter := by
    refine Action.Ensures.bind heffect hafter (fun _ _ _ _ _ _ _ _ hsecond => hsecond) ?_
    intro _ _ error _ hfirst cause hcause
    cases hcause
    exact hfirst error rfl
  registers _ := nofun
  changeRegisters _ _ := nofun
  string _ := nofun
  packedString _ := nofun
  banner _ := nofun
  write _ := ask_accepted _
  flush := ask_accepted _
  read := ask_accepted _
  load := load_accepted
  store _ _ _ := nofun
  note _ _ := nofun

end Effect

theorem Fault.Cause.exists_failure {cause : Fault.Cause} (hkind : cause.kind = .console) :
    ∃ failure, cause = .console failure := by
  cases cause with
  | console failure => exact ⟨failure, rfl⟩
  | illegal | undefinedTrap => cases hkind

namespace Machine

variable {σ : Type}

theorem settle_reported (before : RegisterFile) {outcome : Except Fault.Cause StepResult × Machine}
    {calls : List Call} (hreported : Call.Reported id calls outcome.1) :
    Call.Reported Fault.cause calls (settle before outcome).1 := by
  rcases outcome with ⟨cause | result, after⟩
  · cases hreported with
    | unfailed hcalls hresult =>
        refine .unfailed hcalls fun fault hfault => ?_
        cases hfault
        exact hresult cause rfl
    | failed _ hearlier hcause => exact .failed _ hearlier hcause
  · exact .unfailed hreported.unfailed_of_ok nofun

theorem step_reports : step.Reports Fault.cause := by
  intro machine
  cases hstatus : machine.status with
  | running =>
      rw [step_running hstatus, Dialogue.ensures_bind]
      apply (Effect.parts_report.cycle (fun _ => Effect.fail_reports) machine).mono
      intro moments outcome hreported
      rw [Dialogue.ensures_done, List.append_nil]
      exact settle_reported machine.registers hreported
  | halted =>
      rw [step_halted hstatus]
      exact .unfailed nofun nofun

theorem round_reports : round.Reports Fault.cause := by
  intro machine answer
  cases answer with
  | error failure => exact .failed [] nofun rfl
  | ok reply =>
      have hasked : Call.Reported Fault.cause [⟨.interrupt, .ok reply⟩] (.ok ()) :=
        .unfailed (Call.unfailed_single .interrupt reply) nofun
      exact (step_reports machine).mono fun moments outcome hreported => hasked.append hreported

theorem failures_law : StepLaw fun action => action.Reports Fault.cause where
  pure _ _ := .unfailed nofun nofun
  bind := .bind
  step := step_reports
  round := round_reports

section

variable (console : Console σ) (machine : Machine) (state : σ)

theorem step_reported :
    Call.Reported Fault.cause ((step machine).calls console state)
      ((step machine).converse console state).1.1 :=
  (step_reports machine).converse console state

theorem run_reported :
    Call.Reported Fault.cause ((run machine).calls console state)
      ((run machine).converse console state).1.1 :=
  (run_of_rounds fun count => (failures_law.rounds count machine).converse console state).of_map

end

section

variable {machine : Machine} {console : Console σ} {state : σ}

theorem accepted_step_plain (hrunning : machine.status = .running)
    (hplain : machine.registers.pc ≠ DeviceCell.keyboardStatus.address)
    (haccepted : Effect.refusal?
      (Instruction.decode (machine.memory.peek machine.registers.pc))
      (machine.memory.peek machine.registers.pc) = none) :
    (step machine).Ensures fun _ outcome =>
      ∀ fault, outcome.1 = .error fault → fault.cause.kind = .console := by
  rw [step_plain hrunning hplain rfl, Dialogue.ensures_note, Dialogue.ensures_bind]
  have hexecute := Effect.parts_accepted.execute _ _ fun cause hrefused =>
    nomatch haccepted.symm.trans hrefused
  apply (hexecute _).mono
  intro moments outcome hkind
  rcases outcome with ⟨cause | result, after⟩
  · intro fault hfault
    cases hfault
    exact hkind cause rfl
  · exact nofun

theorem calls_step_refused (hrunning : machine.status = .running)
    (hplain : machine.registers.pc ≠ DeviceCell.keyboardStatus.address) {cause : Fault.Cause}
    (hrefused : Effect.refusal?
      (Instruction.decode (machine.memory.peek machine.registers.pc))
      (machine.memory.peek machine.registers.pc) = some cause) :
    (step machine).calls console state = [] := by
  rw [step_plain hrunning hplain rfl, Effect.execute_refused hrefused]
  rfl

theorem step_lenient {call : Call} (hmem : call ∈ (step machine).calls console state)
    (hfails : call.Fails) :
    ∃ result final left,
      (step machine).converse console.lenient state = ((.ok result, final), left) := by
  cases hstatus : machine.status with
  | halted =>
      rw [step_halted hstatus] at hmem
      cases hmem
  | running =>
      by_cases hplain : machine.registers.pc = DeviceCell.keyboardStatus.address
      · rw [calls_step_status hstatus hplain] at hmem
        obtain rfl := List.mem_singleton.mp hmem
        obtain ⟨failure, hfailure⟩ := hfails
        rw [converse_step_status hstatus hplain]
        rcases hanswer : console.answer .poll state with ⟨answer, after⟩
        simp only [hanswer] at hfailure
        subst hfailure
        simp [Console.lenient, hanswer]
      · cases hrefusal : Effect.refusal?
          (Instruction.decode (machine.memory.peek machine.registers.pc))
          (machine.memory.peek machine.registers.pc) with
        | some cause =>
            rw [calls_step_refused hstatus hplain hrefusal] at hmem
            cases hmem
        | none =>
            rcases hstep : (step machine).converse console.lenient state with
              ⟨⟨fault | result, final⟩, left⟩
            · -- A fault of an instruction that is not refused comes from a failing call.
              have hkind := (accepted_step_plain hstatus hplain hrefusal).converse
                console.lenient state
              have hreported := step_reported console.lenient machine state
              rw [hstep] at hkind hreported
              obtain ⟨failure, hcause⟩ := Fault.Cause.exists_failure (hkind fault rfl)
              obtain ⟨request, hcall⟩ := (hreported.console_iff failure).mp ⟨fault, rfl, hcause⟩
              exact absurd (Call.fails_error request failure)
                (Dialogue.unfailed_lenient console (step machine) state _ hcall)
            · exact ⟨result, final, left, rfl⟩

end

structure ShowsFailures {α : Type} (console : Console σ)
    (dialogue : Dialogue (Except Fault α × Machine)) (state : σ) : Prop where
  reported_iff : ∀ failure,
    (∃ pc final left, dialogue.converse console state =
        ((.error ⟨pc, .console failure⟩, final), left)) ↔
      ∃ request, ⟨request, .error failure⟩ ∈ dialogue.calls console state
  last : ∀ earlier request failure later,
    dialogue.calls console state = earlier ++ ⟨request, .error failure⟩ :: later → later = []
  /-- What came before is what comes first wherever it is answered alike. -/
  resumed : ∀ earlier request failure,
    dialogue.calls console state = earlier ++ [⟨request, .error failure⟩] →
      ∀ {τ : Type} (other : Console τ) (elsewhere : τ), other.Repeats elsewhere earlier →
        ∃ answer later, dialogue.calls other elsewhere = earlier ++ ⟨request, answer⟩ :: later
  program : ∀ fault final left,
    dialogue.converse console state = ((.error fault, final), left) →
      fault.cause.kind = .program → ∀ call ∈ dialogue.calls console state, ¬ call.Fails
  completed : ∀ value final left,
    dialogue.converse console state = ((.ok value, final), left) →
      ∀ call ∈ dialogue.calls console state, ¬ call.Fails

theorem showsFailures {α : Type} {console : Console σ}
    {dialogue : Dialogue (Except Fault α × Machine)} {state : σ}
    (hreported : Call.Reported Fault.cause (dialogue.calls console state)
      (dialogue.converse console state).1.1) : ShowsFailures console dialogue state where
  reported_iff failure := by
    rw [← hreported.console_iff]
    rcases dialogue.converse console state with ⟨⟨result, final⟩, left⟩
    constructor
    · intro ⟨pc, _, _, hresult⟩
      cases hresult
      exact ⟨_, rfl, rfl⟩
    · rintro ⟨⟨pc, cause⟩, rfl, rfl⟩
      exact ⟨pc, final, left, rfl⟩
  last earlier request failure later hcalls :=
    (hreported.last hcalls (Call.fails_error request failure)).1
  resumed _ _ _ hcalls _ _ _ hrepeats := Dialogue.calls_of_repeats hcalls hrepeats
  program fault final left hconverse hkind := by
    rw [hconverse] at hreported
    exact hreported.unfailed_of_program rfl hkind
  completed value final left hconverse := by
    rw [hconverse] at hreported
    exact hreported.unfailed_of_ok

/-- A console call that fails ends the step or the run there and is what it reports, and nothing
else is reported as a failure of the console. Had it not failed, the step would have made the
same calls before it and succeeded. -/
theorem failures_reported (console : Console σ) (machine : Machine) (state : σ) :
    ShowsFailures console (step machine) state ∧
    ShowsFailures console (run machine) state ∧
    ∀ earlier request failure,
      (step machine).calls console state = earlier ++ [⟨request, .error failure⟩] →
        console.lenient.Repeats state earlier ∧
        (∃ reply later, (step machine).calls console.lenient state =
          earlier ++ ⟨request, .ok reply⟩ :: later) ∧
        ∃ result final left,
          (step machine).converse console.lenient state = ((.ok result, final), left) := by
  have hreported := step_reported console machine state
  refine ⟨showsFailures hreported, showsFailures (run_reported console machine state), ?_⟩
  intro earlier request failure hcalls
  obtain ⟨_, hearlier⟩ := hreported.last hcalls (Call.fails_error request failure)
  have hrepeats := Console.repeats_lenient (Dialogue.repeats_calls hcalls) hearlier
  obtain ⟨answer, later, hlenient⟩ := Dialogue.calls_of_repeats hcalls hrepeats
  have hmem : (⟨request, .error failure⟩ : Call) ∈ (step machine).calls console state :=
    hcalls ▸ List.mem_append_right _ (List.mem_singleton_self _)
  refine ⟨hrepeats, ?_, step_lenient hmem (Call.fails_error request failure)⟩
  cases answer with
  | ok reply => exact ⟨reply, later, hlenient⟩
  | error again =>
      have hunfailed := Dialogue.unfailed_lenient console (step machine) state
      rw [hlenient] at hunfailed
      exact absurd (Call.fails_error request again)
        (hunfailed _ (List.mem_append_right _ List.mem_cons_self))

theorem closed_read_reported :
    (∃ pc final left, (step (holding {} [0xF020])).converse Script.console { input := [] } =
        ((.error ⟨pc, .console .closed⟩, final), left)) ∧
    (∃ request, ⟨request, .error .closed⟩ ∈
        (run (holding {} [0xF020])).calls Script.console { input := [] }) ∧
    ∃ result final left,
      (step (holding {} [0xF020])).converse Script.console.lenient { input := [] } =
        ((.ok result, final), left) := by
  let machine := holding {} [0xF020]
  have hrequests : machine.Requests .getc := requests_holding (by decide)
  have hstep : (step machine).calls Script.console { input := [] } =
      [⟨.read, .error .closed⟩] := by
    rw [step_requested hrequests]
    rfl
  have hrun : (run machine).converse Script.console { input := [] } =
      ((.error ⟨0x3000, .console .closed⟩, machine), { input := [] }) := by
    rw [run_eq_runFor, show machine.config.budget = UInt64.size - 1 + 1 from rfl,
      runFor_succ rfl, converse_round rfl, step_requested hrequests]
    rfl
  obtain ⟨hsteps, hruns, hlenient⟩ :=
    failures_reported Script.console machine { input := [] }
  refine ⟨(hsteps.reported_iff .closed).mpr ⟨.read, ?_⟩,
    (hruns.reported_iff .closed).mp ⟨_, _, _, hrun⟩, (hlenient [] .read .closed hstep).2.2⟩
  rw [hstep]
  exact List.mem_singleton_self _

end Machine

end LittleComputer
