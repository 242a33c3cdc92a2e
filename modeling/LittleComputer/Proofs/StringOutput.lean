import LittleComputer.Proofs.Consecutive
import LittleComputer.Proofs.Flushing
import LittleComputer.Proofs.UnreadMemory

namespace LittleComputer

/-! Strings that trap services write -/

namespace Memory

/-- The words stand from `address` upward, at most `limit` of them. If they are fewer, a zero
stands behind them. -/
structure Terminated (memory : Memory) (address : Word) (limit : Nat) (words : List Word) :
    Prop where
  cells : words = (address.upward words.length).map memory.peek
  ends : words.length = limit ∨
    words.length < limit ∧ memory.peek (address + UInt16.ofNat words.length) = 0

/-- The words that stand from `address` upward, at most `limit` of them, up to the first
zero. -/
structure StringAt (memory : Memory) (address : Word) (limit : Nat) (words : List Word) : Prop
    extends memory.Terminated address limit words where
  nonzero : ∀ word ∈ words, word ≠ 0

theorem StringAt.length_le {memory : Memory} {address : Word} {limit : Nat} {words : List Word}
    (hstring : memory.StringAt address limit words) : words.length ≤ limit := by
  obtain heq | ⟨hlt, _⟩ := hstring.ends
  · exact Nat.le_of_eq heq
  · exact Nat.le_of_lt hlt

theorem stringAt_zero_iff {memory : Memory} {address : Word} {words : List Word} :
    memory.StringAt address 0 words ↔ words = [] := by
  constructor
  · intro hstring
    exact List.length_eq_zero_iff.mp (Nat.le_zero.mp hstring.length_le)
  · rintro rfl
    exact ⟨⟨rfl, .inl rfl⟩, nofun⟩

theorem stringAt_nil_iff {memory : Memory} {address : Word} {limit : Nat} :
    memory.StringAt address (limit + 1) [] ↔ memory.peek address = 0 := by
  constructor
  · intro hstring
    obtain heq | ⟨_, hzero⟩ := hstring.ends
    · cases heq
    · simpa using hzero
  · intro hzero
    exact ⟨⟨rfl, .inr ⟨Nat.succ_pos limit, by simpa using hzero⟩⟩, nofun⟩

theorem stringAt_cons_iff {memory : Memory} {address word : Word} {limit : Nat}
    {words : List Word} :
    memory.StringAt address (limit + 1) (word :: words) ↔
      memory.peek address = word ∧ word ≠ 0 ∧ memory.StringAt (address + 1) limit words := by
  have hcells : word :: words = (address.upward (words.length + 1)).map memory.peek ↔
      memory.peek address = word ∧
        words = ((address + 1).upward words.length).map memory.peek := by
    rw [Word.upward_succ, List.map_cons, List.cons.injEq, eq_comm (a := word)]
  have hends : (words.length + 1 = limit + 1 ∨ words.length + 1 < limit + 1 ∧
      memory.peek (address + UInt16.ofNat (words.length + 1)) = 0) ↔
      (words.length = limit ∨ words.length < limit ∧
        memory.peek (address + 1 + UInt16.ofNat words.length) = 0) := by
    rw [Word.add_one_add_ofNat, Nat.succ_inj, Nat.succ_lt_succ_iff]
  constructor
  · rintro ⟨⟨hstands, hend⟩, hnonzero⟩
    obtain ⟨hfirst, hrest⟩ := hcells.mp hstands
    obtain ⟨hword, hwords⟩ := List.forall_mem_cons.mp hnonzero
    exact ⟨hfirst, hword, ⟨hrest, hends.mp hend⟩, hwords⟩
  · rintro ⟨hfirst, hword, ⟨hrest, hend⟩, hwords⟩
    exact ⟨⟨hcells.mpr ⟨hfirst, hrest⟩, hends.mpr hend⟩,
      List.forall_mem_cons.mpr ⟨hword, hwords⟩⟩

theorem wordsUntilZero_eq_iff {memory : Memory} {address : Word} {limit : Nat}
    {words : List Word} :
    memory.wordsUntilZero address limit = words ↔ memory.StringAt address limit words := by
  induction limit generalizing address words with
  | zero => rw [stringAt_zero_iff, wordsUntilZero, eq_comm]
  | succ limit ih =>
      rw [wordsUntilZero]
      cases words with
      | nil =>
          rw [stringAt_nil_iff]
          split
          next hzero => simp [hzero]
          next hword => simp [hword]
      | cons word words =>
          rw [stringAt_cons_iff, ← ih]
          split
          next hzero =>
            refine iff_of_false (List.cons_ne_nil word words).symm ?_
            rintro ⟨rfl, hword, _⟩
            exact hword hzero
          next hword =>
            rw [List.cons.injEq]
            constructor
            · rintro ⟨rfl, hrest⟩
              exact ⟨rfl, hword, hrest⟩
            · rintro ⟨hfirst, _, hrest⟩
              exact ⟨hfirst, hrest⟩

end Memory

namespace Call

def written (byte : Byte) : Call := ⟨.write [byte], .ok ()⟩

/-- Calls that write `bytes` one by one and then flush once, up to the first that fails. -/
inductive Spells {ε : Type} (bytes : List Byte) (fault : ConsoleFailure → ε) :
    List Call → Except ε StepResult → Prop
  | flushed : Spells bytes fault (bytes.map written ++ [⟨.flush, .ok ()⟩]) (.ok .completed)
  | unflushed (failure : ConsoleFailure) :
      Spells bytes fault (bytes.map written ++ [⟨.flush, .error failure⟩]) (.error (fault failure))
  | unwritten (earlier later : List Byte) (byte : Byte) (failure : ConsoleFailure)
      (hbytes : bytes = earlier ++ byte :: later) :
      Spells bytes fault (earlier.map written ++ [⟨.write [byte], .error failure⟩])
        (.error (fault failure))

section

variable {ε δ : Type} {bytes : List Byte} {fault : ConsoleFailure → ε} {calls : List Call}
  {result : Except ε StepResult}

theorem Spells.cons (byte : Byte) (hspells : Spells bytes fault calls result) :
    Spells (byte :: bytes) fault (written byte :: calls) result := by
  cases hspells with
  | flushed => exact .flushed
  | unflushed failure => exact .unflushed failure
  | unwritten earlier later failing failure hbytes =>
      exact .unwritten (byte :: earlier) later failing failure (congrArg (List.cons byte) hbytes)

theorem Spells.convert (convert : ε → δ) (hspells : Spells bytes fault calls result) :
    Spells bytes (fun failure => convert (fault failure)) calls (result.mapError convert) := by
  cases hspells with
  | flushed => exact .flushed
  | unflushed failure => exact .unflushed failure
  | unwritten earlier later byte failure hbytes =>
      exact .unwritten earlier later byte failure hbytes

theorem Spells.ends (hspells : Spells bytes fault calls result) :
    result = .ok .completed ∨ ∃ failure, result = .error (fault failure) := by
  cases hspells with
  | flushed => exact .inl rfl
  | unflushed failure | unwritten _ _ _ failure => exact .inr ⟨failure, rfl⟩

theorem Spells.isOutput (hspells : Spells bytes fault calls result) :
    ∀ call ∈ calls, call.isOutput = true := by
  have hall {written : List Byte} {request : Request} {answer : Answer request}
      (hlast : Call.isOutput ⟨request, answer⟩ = true) :
      ∀ call ∈ written.map Call.written ++ [⟨request, answer⟩], Call.isOutput call = true := by
    rintro call hmem
    rcases List.mem_append.mp hmem with hmem | hmem
    · obtain ⟨byte, _, rfl⟩ := List.mem_map.mp hmem
      rfl
    · rw [List.mem_singleton.mp hmem]
      exact hlast
  cases hspells with
  | flushed | unflushed | unwritten => exact hall rfl

theorem Spells.unfailed (hspells : Spells bytes fault calls result)
    (hcalls : ∀ call ∈ calls, ¬ call.Fails) :
    calls = bytes.map written ++ [⟨.flush, .ok ()⟩] ∧ result = .ok .completed := by
  cases hspells with
  | flushed => exact ⟨rfl, rfl⟩
  | unflushed failure | unwritten _ _ _ failure =>
      have hlast := hcalls _ (List.mem_append_right _ (List.mem_singleton_self _))
      exact absurd (fails_error _ failure) hlast

end

structure Display {ε : Type} (bytes : List Byte) (fault : ConsoleFailure → ε)
    (calls : List Call) (result : Except ε StepResult) : Prop where
  complete : (∀ call ∈ calls, call.isOutput = true → ¬ call.Fails) →
    calls = bytes.map written ++ [⟨.flush, .ok ()⟩] ∧ result = .ok .completed
  spelled : Spells bytes fault calls result
  silent : inputs calls = 0

theorem isInput_of_isOutput {call : Call} (houtput : call.isOutput = true) :
    call.isInput = false := by
  rcases call with ⟨request, answer⟩
  cases request <;> first | rfl | cases houtput

theorem Spells.display {ε : Type} {bytes : List Byte} {fault : ConsoleFailure → ε}
    {calls : List Call} {result : Except ε StepResult}
    (hspells : Spells bytes fault calls result) : Display bytes fault calls result where
  complete htaken := hspells.unfailed fun call hmem => htaken call hmem (hspells.isOutput call hmem)
  spelled := hspells
  silent := inputs_eq_zero_iff.mpr fun call hmem => isInput_of_isOutput (hspells.isOutput call hmem)

end Call

namespace Effect

def spellOut (bytes : List Byte) : Effect StepResult := do
  writeEach bytes
  ask .flush
  return .completed

theorem spellOut_cons (byte : Byte) (bytes : List Byte) :
    spellOut (byte :: bytes) = ask (.write [byte]) >>= fun _ => spellOut bytes := by
  rw [spellOut, writeEach, Action.bind_assoc]
  rfl

theorem spellOut_spells (bytes : List Byte) :
    (spellOut bytes).Ensures fun before moments result after =>
      Call.Spells bytes Fault.Cause.console (Moment.calls moments) result ∧ after = before := by
  induction bytes with
  | nil =>
      intro machine answer
      rcases answer with failure | ⟨⟩
      · exact ⟨.unflushed failure, rfl⟩
      · exact ⟨.flushed, rfl⟩
  | cons byte bytes ih =>
      rw [spellOut_cons]
      intro machine answer
      rcases answer with failure | ⟨⟩
      · exact ⟨.unwritten [] bytes byte failure rfl, rfl⟩
      · exact (ih machine).mono fun moments outcome ⟨hspells, hmachine⟩ =>
          ⟨hspells.cons byte, hmachine⟩

theorem trap_service (requested : TrapService) (machine : Machine) :
    trap requested.vector machine =
      service requested (machine.mapRegisters fun file => file.write .link file.pc) := by
  rw [trap, TrapService.ofVector?_vector]
  rfl

end Effect

namespace Machine

variable {σ : Type}

/-- Calling the service, or executing the trap for it, writes `bytes`, links the return address
and changes nothing else. -/
structure WritesOut (console : Console σ) (machine : Machine) (state : σ)
    (requested : TrapService) (bytes : List Byte) : Prop where
  trap : Call.Display bytes Fault.Cause.console
    ((Effect.trap requested.vector machine).calls console state)
    ((Effect.trap requested.vector machine).converse console state).1.1
  linked : ((Effect.trap requested.vector machine).converse console state).1.2 =
    machine.mapRegisters fun file => file.write .link file.pc
  step : machine.Requests requested →
    Call.Display bytes (fun failure => (⟨machine.registers.pc, .console failure⟩ : Fault))
      ((Machine.step machine).calls console state)
      ((Machine.step machine).converse console state).1.1
  completed : machine.Requests requested →
    ((Machine.step machine).converse console state).1.1 = .ok .completed →
      ((Machine.step machine).converse console state).1.2 =
        { machine with
          registers := machine.registers.advance.write .link machine.registers.advance.pc
          retired := machine.retired + 1 }
  withdrawn : machine.Requests requested → ∀ fault,
    ((Machine.step machine).converse console state).1.1 = .error fault →
      ((Machine.step machine).converse console state).1.2 = machine

theorem step_spellOut {machine : Machine} {requested : TrapService} {bytes : List Byte}
    (hrequests : machine.Requests requested)
    (hserving : Effect.service requested machine.serving =
      Effect.spellOut bytes machine.serving) (console : Console σ) (state : σ) :
    ∃ result left,
      Call.Spells bytes Fault.Cause.console ((step machine).calls console state) result ∧
        (step machine).converse console state =
          (settle machine.registers (result, machine.serving), left) := by
  have houtcome := (Effect.spellOut_spells bytes machine.serving).converse console state
  rcases hconverse : (Effect.spellOut bytes machine.serving).converse console state with
    ⟨⟨result, served⟩, left⟩
  rw [hconverse] at houtcome
  obtain ⟨hspells, rfl⟩ := houtcome
  refine ⟨result, left, ?_, ?_⟩
  · rw [step_requested hrequests, hserving, Dialogue.calls_note, Dialogue.calls_bind,
      Dialogue.calls_done, List.append_nil]
    exact hspells
  · rw [step_requested hrequests, hserving, Dialogue.converse_note, Dialogue.converse_bind,
      hconverse, Dialogue.converse_done]

theorem writesOut_of_service (console : Console σ) (machine : Machine) (state : σ)
    {requested : TrapService} {bytes : List Byte}
    (hservice : ∀ file : RegisterFile, file.read .r0 = machine.registers.read .r0 →
      Effect.service requested { machine with registers := file } =
        Effect.spellOut bytes { machine with registers := file }) :
    machine.WritesOut console state requested bytes := by
  have hread (file : RegisterFile) (value : Word) :
      (file.write .link value).read .r0 = file.read .r0 :=
    (RegisterFile.read_write ..).trans (if_neg (by decide))
  have htrap : Effect.trap requested.vector machine = Effect.spellOut bytes
      (machine.mapRegisters fun file => file.write .link file.pc) := by
    rw [Effect.trap_service]
    exact hservice _ (hread _ _)
  obtain ⟨hspells, hlinked⟩ := (Effect.spellOut_spells bytes
    (machine.mapRegisters fun file => file.write .link file.pc)).converse console state
  rw [← htrap] at hspells hlinked
  refine ⟨hspells.display, hlinked, fun hrequests => ?step, fun hrequests => ?completed,
    fun hrequests fault => ?withdrawn⟩
  all_goals
    obtain ⟨result, left, hspells, hconverse⟩ :=
      step_spellOut hrequests (hservice _ (hread _ _)) console state
    rw [hconverse]
  case step =>
    rw [settle_result]
    exact (hspells.convert _).display
  case completed =>
    obtain rfl | ⟨failure, rfl⟩ := hspells.ends
    · exact fun _ => rfl
    · exact nofun
  case withdrawn =>
    obtain rfl | ⟨failure, rfl⟩ := hspells.ends
    · exact nofun
    · exact fun _ => rfl

/-- The words of a string are written by their low bytes, from the address in the first register
up to the first zero. If there is none, every cell is written once. -/
theorem puts_writes_string (console : Console σ) (machine : Machine) (state : σ) :
    ∃ words, machine.memory.StringAt (machine.registers.read .r0) Memory.size words ∧
      ((∀ cell, machine.memory.peek cell ≠ 0) → words.length = Memory.size ∧
        ∀ cell, ((machine.registers.read .r0).upward words.length).count cell = 1) ∧
      machine.WritesOut console state .puts (words.map Word.lowByte) := by
  have hstring := Memory.wordsUntilZero_eq_iff.mp
    (rfl : machine.memory.wordsUntilZero (machine.registers.read .r0) Memory.size = _)
  refine ⟨_, hstring, fun hfull => ?_, writesOut_of_service console machine state ?_⟩
  · obtain hlength | ⟨_, hzero⟩ := hstring.ends
    · rw [hlength]
      exact ⟨rfl, Word.count_upward_size _⟩
    · exact absurd hzero (hfull _)
  · intro file hfile
    rw [Effect.service_puts, Memory.string, hfile]
    rfl

theorem script_takes_output {α : Type} (dialogue : Dialogue α) (script : Script) :
    ∀ call ∈ dialogue.calls Script.console script, call.isOutput = true → ¬ call.Fails := by
  refine Dialogue.forall_calls (fun request script houtput => ?_) dialogue script
  cases request with
  | write | flush => exact Call.not_fails_ok _ _
  | poll | read | interrupt => cases houtput

theorem endless_string_written_once :
    let machine : Machine := { ofConfig {} with memory := ⟨Vector.replicate 65536 0xF022⟩ }
    machine.Requests .puts ∧
      (step machine).calls Script.console { input := [0x61] } =
        (List.replicate 65536 0x22).map Call.written ++ [⟨.flush, .ok ()⟩] := by
  intro machine
  have hpeek (cell : Word) : machine.memory.peek cell = 0xF022 := Vector.getElem_replicate _
  have hrequests : machine.Requests .puts :=
    ⟨rfl, show (0x3000 : Word) ≠ _ by decide, by rw [hpeek]; decide⟩
  obtain ⟨words, hstring, hfull, hwrites⟩ :=
    puts_writes_string Script.console machine { input := [0x61] }
  obtain ⟨hlength, _⟩ := hfull fun cell => by rw [hpeek]; decide
  have hwords : words = List.replicate 65536 0xF022 := by
    refine List.eq_replicate_iff.mpr ⟨hlength, fun word hmem => ?_⟩
    rw [hstring.cells] at hmem
    obtain ⟨cell, _, rfl⟩ := List.mem_map.mp hmem
    exact hpeek cell
  obtain ⟨hcalls, _⟩ := (hwrites.step hrequests).complete (script_takes_output _ _)
  rw [hwords, List.map_replicate] at hcalls
  exact ⟨hrequests, hcalls⟩

end Machine

end LittleComputer
