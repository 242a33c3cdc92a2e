import LittleComputer.Console.Typing
import LittleComputer.Dialogue
import LittleComputer.SystemError

namespace LittleComputer

/-! Standard input and output as a console -/

inductive InputSource where
  /-- Always readable, also at its end. -/
  | file (bytes : List Byte)
  | directory
  /-- Readable as long as bytes are pending. It never ends. -/
  | live (pending : List Byte)
  deriving DecidableEq

/-- Keys typed at a terminal before the program takes it over. -/
def InputSource.typed (keys : List Byte) : InputSource :=
  live (Typing.ofKeys keys).bytes

/-- An interrupt signal under way. It comes while the process waits for input, or else
once `afterOutput` bytes are shown and `patience` more instructions have begun. -/
structure Signal where
  afterOutput : Nat
  patience : Nat := 10000
  deriving DecidableEq

structure Streams where
  input : InputSource
  outputFull : Bool := false
  signal : Option Signal := none
  buffered : Array Byte := #[]
  shown : Array Byte := #[]
  interrupted : Bool := false
  deriving DecidableEq

namespace Streams

/-- Nothing but a signal ends the wait for a key that never comes. -/
def readKey (streams : Streams) : Except ConsoleFailure Byte × Streams :=
  match streams.input with
  | .file [] => (.error .closed, streams)
  | .file (key :: bytes) => (.ok key, { streams with input := .file bytes })
  | .directory => (.error (.device SystemError.isDirectory.text), streams)
  | .live [] => (.error .interrupted, { streams with interrupted := true })
  | .live (key :: pending) => (.ok key, { streams with input := .live pending })

def pollKey (streams : Streams) : Except ConsoleFailure (Option Byte) × Streams :=
  if streams.input = .live [] then
    (.ok none, streams)
  else
    let (key, streams) := streams.readKey
    (key.map some, streams)

def flush (streams : Streams) : Except ConsoleFailure Unit × Streams :=
  if streams.outputFull && !streams.buffered.isEmpty then
    (.error (.device SystemError.noSpace.text), streams)
  else
    (.ok (), { streams with
      shown := streams.shown ++ streams.buffered
      buffered := #[] })

def capacity : Nat := 8192

def makeRoom (bytes : List Byte) (streams : Streams) : Except ConsoleFailure Unit × Streams :=
  if capacity < streams.buffered.size + bytes.length then streams.flush else (.ok (), streams)

/-- So many bytes at once that no buffer holds them go straight out. -/
def hold (bytes : List Byte) (streams : Streams) : Except ConsoleFailure Unit × Streams :=
  let streams := { streams with buffered := streams.buffered ++ bytes }
  if bytes.length < capacity then (.ok (), streams) else streams.flush

def write (bytes : List Byte) (streams : Streams) : Except ConsoleFailure Unit × Streams :=
  match streams.makeRoom bytes with
  | (.error failure, streams) => (.error failure, streams)
  | (.ok (), streams) => streams.hold bytes

def awaitSignal (streams : Streams) : Streams :=
  match streams.signal with
  | none => streams
  | some signal =>
      if signal.afterOutput ≤ streams.shown.size then
        match signal.patience with
        | 0 => { streams with interrupted := true }
        | patience + 1 => { streams with signal := some { signal with patience := patience } }
      else
        streams

def heedSignal (streams : Streams) : Except ConsoleFailure Unit × Streams :=
  let streams := streams.awaitSignal
  (if streams.interrupted then .error .interrupted else .ok (), streams)

def answer : (request : Request) → Streams → Answer request × Streams
  | .poll, streams => streams.pollKey
  | .read, streams => streams.readKey
  | .write bytes, streams => streams.write bytes
  | .flush, streams => streams.flush
  | .interrupt, streams => streams.heedSignal

def console : Console Streams where
  answer := answer

/-! What a write leaves alone, and what it does where there is room -/

structure Emits (before after : Streams) : Prop where
  input : after.input = before.input
  outputFull : after.outputFull = before.outputFull
  signal : after.signal = before.signal
  interrupted : after.interrupted = before.interrupted

theorem Emits.trans {first second third : Streams} (hfirst : first.Emits second)
    (hsecond : second.Emits third) : first.Emits third where
  input := hsecond.input.trans hfirst.input
  outputFull := hsecond.outputFull.trans hfirst.outputFull
  signal := hsecond.signal.trans hfirst.signal
  interrupted := hsecond.interrupted.trans hfirst.interrupted

theorem emits_flush (streams : Streams) : streams.Emits streams.flush.2 := by
  unfold flush
  split <;> exact ⟨rfl, rfl, rfl, rfl⟩

theorem emits_makeRoom (bytes : List Byte) (streams : Streams) :
    streams.Emits (streams.makeRoom bytes).2 := by
  unfold makeRoom
  split
  · exact streams.emits_flush
  · exact ⟨rfl, rfl, rfl, rfl⟩

theorem emits_hold (bytes : List Byte) (streams : Streams) :
    streams.Emits (streams.hold bytes).2 := by
  have hheld : streams.Emits { streams with buffered := streams.buffered ++ bytes } :=
    ⟨rfl, rfl, rfl, rfl⟩
  unfold hold
  dsimp only
  split
  · exact hheld
  · exact hheld.trans (emits_flush _)

theorem emits_write (bytes : List Byte) (streams : Streams) :
    streams.Emits (streams.write bytes).2 := by
  have hroom := streams.emits_makeRoom bytes
  unfold write
  rcases hmade : streams.makeRoom bytes with ⟨_ | _, made⟩
  · rwa [hmade] at hroom
  · rw [hmade] at hroom
    exact hroom.trans (made.emits_hold bytes)

def written (streams : Streams) : Array Byte :=
  streams.shown ++ streams.buffered

theorem flush_of_room {streams : Streams} (hroom : streams.outputFull = false) :
    streams.flush.1 = .ok () ∧ streams.flush.2.written = streams.written := by
  rw [flush, if_neg (by simp [hroom])]
  exact ⟨rfl, Array.append_empty⟩

theorem makeRoom_of_room {streams : Streams} (hroom : streams.outputFull = false)
    (bytes : List Byte) :
    (streams.makeRoom bytes).1 = .ok () ∧
      (streams.makeRoom bytes).2.written = streams.written := by
  unfold makeRoom
  split
  · exact flush_of_room hroom
  · exact ⟨rfl, rfl⟩

theorem hold_of_room {streams : Streams} (hroom : streams.outputFull = false)
    (bytes : List Byte) :
    (streams.hold bytes).1 = .ok () ∧
      (streams.hold bytes).2.written = streams.written ++ bytes := by
  have hheld : { streams with buffered := streams.buffered ++ bytes }.written =
      streams.written ++ bytes := Array.ext' (by simp [written])
  unfold hold
  dsimp only
  rw [← hheld]
  split
  · exact ⟨rfl, rfl⟩
  · exact flush_of_room hroom

theorem write_of_room {streams : Streams} (hroom : streams.outputFull = false)
    (bytes : List Byte) :
    (streams.write bytes).1 = .ok () ∧
      (streams.write bytes).2.written = streams.written ++ bytes := by
  obtain ⟨hfits, hwritten⟩ := makeRoom_of_room hroom bytes
  have hemits := streams.emits_makeRoom bytes
  unfold write
  rcases hmade : streams.makeRoom bytes with ⟨failure | _, made⟩
  · rw [hmade] at hfits
    cases hfits
  · rw [hmade] at hwritten hemits
    rw [← hwritten]
    exact hold_of_room (hemits.outputFull.trans hroom) bytes

end Streams

end LittleComputer
