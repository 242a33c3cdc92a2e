import LittleComputer.Console.Scripted
import LittleComputer.Proofs.Attempts
import LittleComputer.Proofs.ServiceCalls

namespace LittleComputer

/-! The keyboard cells and the polls -/

namespace Memory

def statusAfter (initial : Word) (found : List (Option Byte)) : Word :=
  match found.getLast? with
  | none => initial
  | some last => statusWord last

def dataAfter (initial : Word) (found : List (Option Byte)) : Word :=
  match (found.filterMap id).getLast? with
  | none => initial
  | some key => key.toUInt16

@[simp] theorem statusAfter_nil (initial : Word) : statusAfter initial [] = initial := rfl

@[simp] theorem dataAfter_nil (initial : Word) : dataAfter initial [] = initial := rfl

theorem statusAfter_append (initial : Word) (first second : List (Option Byte)) :
    statusAfter initial (first ++ second) = statusAfter (statusAfter initial first) second := by
  simp only [statusAfter, List.getLast?_append]
  cases second.getLast? <;> rfl

theorem dataAfter_append (initial : Word) (first second : List (Option Byte)) :
    dataAfter initial (first ++ second) = dataAfter (dataAfter initial first) second := by
  simp only [dataAfter, List.filterMap_append, List.getLast?_append]
  cases (second.filterMap id).getLast? <;> rfl

theorem dataAfter_found (initial : Word) {earlier later : List (Option Byte)} (key : Byte)
    (hlater : ∀ found ∈ later, found = none) :
    dataAfter initial (earlier ++ some key :: later) = key.toUInt16 := by
  have hnone : later.filterMap id = [] := List.filterMap_eq_nil_iff.mpr hlater
  have hkey : (some key :: later).filterMap id = key :: later.filterMap id := rfl
  rw [dataAfter, List.filterMap_append, hkey, hnone, List.getLast?_append]
  rfl

section

variable {ε : Type} {memory after : Memory} {stores : Word → Word → Prop}
  {fault : ConsoleFailure → ε} {calls : List Call} {result : Except ε StepResult}

theorem Polls.cells (hpolls : memory.Polls calls after) :
    after.peek DeviceCell.keyboardStatus.address =
        statusAfter (memory.peek DeviceCell.keyboardStatus.address) (Call.found calls) ∧
      after.peek DeviceCell.keyboardData.address =
        dataAfter (memory.peek DeviceCell.keyboardData.address) (Call.found calls) := by
  cases hpolls with
  | unasked => exact ⟨rfl, rfl⟩
  | answered found =>
      cases found with
      | none =>
          exact ⟨peek_write_self memory _ 0, peek_write_of_ne memory 0 (by decide)⟩
      | some key => exact ⟨peek_latchKey_status memory key, peek_latchKey_data memory key⟩

theorem Footprint.cells (hfootprint : memory.Footprint stores fault calls result after)
    (hstatus : ∀ value, ¬ stores DeviceCell.keyboardStatus.address value)
    (hdata : ∀ value, ¬ stores DeviceCell.keyboardData.address value) :
    after.peek DeviceCell.keyboardStatus.address =
        statusAfter (memory.peek DeviceCell.keyboardStatus.address) (Call.found calls) ∧
      after.peek DeviceCell.keyboardData.address =
        dataAfter (memory.peek DeviceCell.keyboardData.address) (Call.found calls) := by
  cases hfootprint with
  | polled _ hpolls => exact hpolls.cells
  | failed error => exact ⟨rfl, rfl⟩
  | @stored _ _ address value hpolls hstored _ =>
      have hnotStatus : DeviceCell.keyboardStatus.address ≠ address := by
        rintro rfl
        exact hstatus value hstored
      have hnotData : DeviceCell.keyboardData.address ≠ address := by
        rintro rfl
        exact hdata value hstored
      rw [peek_write_of_ne _ _ hnotStatus, peek_write_of_ne _ _ hnotData]
      exact hpolls.cells

theorem read_data (memory : Memory) :
    read DeviceCell.keyboardData.address memory =
      .done (.ok (memory.peek DeviceCell.keyboardData.address), memory) :=
  read_plain (by decide) memory

theorem read_ready {σ : Type} {console : Console σ} {state left : σ}
    (hread : (read DeviceCell.keyboardStatus.address memory).converse console state =
      ((.ok keyReady, after), left)) :
    ∃ key, (read DeviceCell.keyboardStatus.address memory).calls console state =
        [⟨.poll, .ok (some key)⟩] ∧
      read DeviceCell.keyboardData.address after = .done (.ok key.toUInt16, after) := by
  rw [read_status, Dialogue.converse_ask] at hread
  rw [read_status, Dialogue.calls_ask, read_data]
  generalize console.answer .poll state = reply at hread ⊢
  rcases reply with ⟨error | _ | key, between⟩
  · cases hread
  · have hidle : (0 : Word) = keyReady := Except.ok.inj (congrArg (·.1.1) hread)
    exact absurd hidle (by decide)
  · obtain rfl : memory.latchKey key = after := congrArg (·.1.2) hread
    exact ⟨key, rfl, by rw [peek_latchKey_data]⟩

theorem Polls.unfailed (hpolls : memory.Polls calls after) (error : ConsoleFailure) :
    ⟨.poll, .error error⟩ ∉ calls := by
  cases hpolls <;> simp

theorem Footprint.of_failed (hfootprint : memory.Footprint stores fault calls result after)
    {error : ConsoleFailure} (hfailed : ⟨.poll, .error error⟩ ∈ calls) : after = memory := by
  cases hfootprint with
  | polled _ hpolls | stored hpolls => exact absurd hfailed (hpolls.unfailed error)
  | failed => rfl

end

end Memory

namespace Machine

variable {σ : Type} {console : Console σ} {machine : Machine} {state : σ}

def SparesKeyboard (console : Console σ) (machine : Machine) (state : σ) : Prop :=
  ∀ cell : DeviceCell, ∀ value, ¬ Stores console machine state cell.address value

theorem sparesKeyboard_of_status_fetch
    (hstatus : machine.registers.pc = DeviceCell.keyboardStatus.address) :
    SparesKeyboard console machine state :=
  fun _ _ hstores => hstores.plain hstatus

theorem step_cells (hspares : SparesKeyboard console machine state) :
    let after := ((step machine).converse console state).1.2.memory
    let found := Call.found ((step machine).calls console state)
    after.peek DeviceCell.keyboardStatus.address =
        Memory.statusAfter (machine.memory.peek DeviceCell.keyboardStatus.address) found ∧
      after.peek DeviceCell.keyboardData.address =
        Memory.dataAfter (machine.memory.peek DeviceCell.keyboardData.address) found := by
  by_cases hservice : ∃ requested, machine.Requests requested
  · obtain ⟨requested, hrequests⟩ := hservice
    obtain ⟨hheard, hmemory⟩ := step_heard console hrequests state
    simp only [hmemory, Call.found_of_unpolled hheard.unpolled]
    exact ⟨rfl, rfl⟩
  · exact (step_footprint console (not_exists.mp hservice) state).cells
      (hspares .keyboardStatus) (hspares .keyboardData)

theorem memory_of_failed_poll {error : ConsoleFailure}
    (hfailed : ⟨.poll, .error error⟩ ∈ (step machine).calls console state) :
    ((step machine).converse console state).1.2.memory = machine.memory := by
  by_cases hservice : ∃ requested, machine.Requests requested
  · obtain ⟨requested, hrequests⟩ := hservice
    exact (step_heard console hrequests state).2
  · exact (step_footprint console (not_exists.mp hservice) state).of_failed hfailed

theorem attempts_cells (count : Nat)
    (hspares : ∀ earlier < count,
      SparesKeyboard console ((attempts earlier machine).converse console state).1
        ((attempts earlier machine).converse console state).2) :
    let reached := ((attempts count machine).converse console state).1.memory
    let found := Call.found ((attempts count machine).calls console state)
    reached.peek DeviceCell.keyboardStatus.address =
        Memory.statusAfter (machine.memory.peek DeviceCell.keyboardStatus.address) found ∧
      reached.peek DeviceCell.keyboardData.address =
        Memory.dataAfter (machine.memory.peek DeviceCell.keyboardData.address) found := by
  induction count with
  | zero => exact ⟨rfl, rfl⟩
  | succ count ih =>
      obtain ⟨hstatus, hdata⟩ := ih fun earlier hearlier =>
        hspares earlier (Nat.lt_succ_of_lt hearlier)
      -- The next step's polls act on the cells as the earlier ones have left them.
      obtain ⟨hnextStatus, hnextData⟩ := step_cells (hspares count (Nat.lt_succ_self count))
      simp only [converse_attempts_succ, calls_attempts_succ, Call.found_append,
        Memory.statusAfter_append, Memory.dataAfter_append]
      rw [← hstatus, ← hdata]
      exact ⟨hnextStatus, hnextData⟩

/-- As long as no instruction stores to the keyboard cells they hold what the polls have
found. A key once found stays in the keyboard data, where reading asks for nothing, until a
poll finds another one. A poll that fails changes no cell at all. -/
theorem keyboard_cells_follow_polls (console : Console σ) (machine : Machine) (state : σ)
    (count : Nat)
    (hspares : ∀ earlier < count,
      SparesKeyboard console ((attempts earlier machine).converse console state).1
        ((attempts earlier machine).converse console state).2) :
    let reached := ((attempts count machine).converse console state).1
    let between := ((attempts count machine).converse console state).2
    let found := Call.found ((attempts count machine).calls console state)
    reached.memory.peek 0xFE00 = Memory.statusAfter (machine.memory.peek 0xFE00) found ∧
    reached.memory.peek 0xFE02 = Memory.dataAfter (machine.memory.peek 0xFE02) found ∧
    (∀ after left,
      (Memory.read 0xFE00 reached.memory).converse console between =
          ((.ok 0x8000, after), left) →
        ∃ key, (Memory.read 0xFE00 reached.memory).calls console between =
            [⟨.poll, .ok (some key)⟩] ∧
          Memory.read 0xFE02 after = .done (.ok key.toUInt16, after)) ∧
    (∀ earlier key later, found = earlier ++ some key :: later →
      (∀ answer ∈ later, answer = none) →
        Memory.read 0xFE02 reached.memory = .done (.ok key.toUInt16, reached.memory)) ∧
    (∀ error, ⟨.poll, .error error⟩ ∈ (step reached).calls console between →
      ((step reached).converse console between).1.2.memory = reached.memory) := by
  intro reached between found
  obtain ⟨hstatus, hdata⟩ := attempts_cells count hspares
  refine ⟨hstatus, hdata, fun after left hread => ?_, fun earlier key later hfound hlater => ?_,
    fun error hfailed => memory_of_failed_poll hfailed⟩
  · exact Memory.read_ready hread
  · have hkey : reached.memory.peek DeviceCell.keyboardData.address = key.toUInt16 := by
      rw [← Memory.dataAfter_found (machine.memory.peek DeviceCell.keyboardData.address) key
        hlater, ← hfound]
      exact hdata
    rw [← hkey]
    exact Memory.read_data reached.memory

theorem key_kept_after_status_fetches :
    let reached := ((attempts 2 (ofConfig { entry := 0xFE00 })).converse Script.console
      { input := [0x61] }).1
    reached.memory.peek 0xFE00 = 0 ∧ reached.memory.peek 0xFE02 = (0x61 : Byte).toUInt16 ∧
      Memory.read 0xFE02 reached.memory = .done (.ok (0x61 : Byte).toUInt16, reached.memory) := by
  have hrunning : (ofConfig { entry := 0xFE00 }).status = .running := rfl
  have hpc : (ofConfig { entry := 0xFE00 }).registers.pc = DeviceCell.keyboardStatus.address :=
    rfl
  have hmachine : (attempts 1 (ofConfig { entry := 0xFE00 })).converse Script.console
      { input := [0x61] } =
      ({ ofConfig { entry := 0xFE00 } with
        memory := (ofConfig { entry := 0xFE00 }).memory.latchKey 0x61 }, { input := [] }) := by
    simp only [converse_attempts_succ, attempts_zero, Dialogue.converse_done,
      converse_step_status hrunning hpc]
    rfl
  have hcalls : (attempts 2 (ofConfig { entry := 0xFE00 })).calls Script.console
      { input := [0x61] } = [⟨.poll, .ok (some 0x61)⟩, ⟨.poll, .ok none⟩] := by
    simp only [@calls_attempts_succ _ _ _ _ 1, hmachine]
    simp only [calls_attempts_succ, attempts_zero, Dialogue.converse_done, Dialogue.calls_done,
      calls_step_status hrunning hpc]
    exact congrArg (List.cons _) (calls_step_status rfl rfl Script.console { input := [] })
  have hspares (earlier : Nat) (hearlier : earlier < 2) :
      SparesKeyboard Script.console
        ((attempts earlier (ofConfig { entry := 0xFE00 })).converse Script.console
          { input := [0x61] }).1
        ((attempts earlier (ofConfig { entry := 0xFE00 })).converse Script.console
          { input := [0x61] }).2 := by
    rcases Nat.le_one_iff_eq_zero_or_eq_one.mp (Nat.le_of_lt_succ hearlier) with rfl | rfl
    · exact sparesKeyboard_of_status_fetch rfl
    · rw [hmachine]
      exact sparesKeyboard_of_status_fetch rfl
  obtain ⟨hstatus, hdata, _, hkept, _⟩ := keyboard_cells_follow_polls Script.console
    (ofConfig { entry := 0xFE00 }) { input := [0x61] } 2 hspares
  rw [hcalls] at hstatus hdata hkept
  exact ⟨hstatus, hdata, hkept [] 0x61 [none] rfl (by simp)⟩

end Machine

end LittleComputer
