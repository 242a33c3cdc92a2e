import LittleComputer.Image.Stream
import LittleComputer.Proofs.ImageLoading

namespace LittleComputer

/-! Images from streams and files -/

namespace Delivery

/-- Calls of a reader that goes on: together their pieces, none of which is empty, are `bytes`. -/
inductive Delivers : List Delivery → List Byte → Prop
  | nothing : Delivers [] []
  | piece {piece bytes : List Byte} {deliveries : List Delivery} (hpiece : piece ≠ [])
      (hrest : Delivers deliveries bytes) : Delivers (.bytes piece :: deliveries) (piece ++ bytes)
  | interrupted {bytes : List Byte} {deliveries : List Delivery}
      (hrest : Delivers deliveries bytes) : Delivers (.interrupted :: deliveries) bytes

@[simp] theorem gather_nil : gather [] = .ok [] := rfl

@[simp] theorem gather_end (later : List Delivery) : gather (.bytes [] :: later) = .ok [] := rfl

@[simp] theorem gather_failed (reason : String) (later : List Delivery) :
    gather (.failed reason :: later) = .error reason := rfl

theorem gather_interrupted (deliveries : List Delivery) :
    gather (.interrupted :: deliveries) = gather deliveries := rfl

theorem gather_piece {piece : List Byte} (hpiece : piece ≠ []) (deliveries : List Delivery) :
    gather (.bytes piece :: deliveries) = (gather deliveries).map (piece ++ ·) := by
  cases piece with
  | nil => exact absurd rfl hpiece
  | cons byte piece => rfl

theorem Delivers.gather_append {deliveries : List Delivery} {bytes : List Byte}
    (hdelivers : Delivers deliveries bytes) (later : List Delivery) :
    gather (deliveries ++ later) = (gather later).map (bytes ++ ·) := by
  induction hdelivers with
  | nothing =>
      rw [List.nil_append]
      cases gather later <;> rfl
  | piece hpiece _ ih =>
      rw [List.cons_append, gather_piece hpiece, ih]
      cases gather later with
      | error reason => rfl
      | ok rest => exact congrArg Except.ok (List.append_assoc _ _ _).symm
  | interrupted _ ih => rw [List.cons_append, gather_interrupted, ih]

theorem Trouble.failureAt?_of_le {trouble : Trouble} {first later : Nat} {reason : String}
    (hfails : trouble.failureAt? first = some reason) (hle : first ≤ later) :
    trouble.failureAt? later = some reason := by
  simp only [failureAt?, Option.bind_eq_some_iff, Option.ite_none_right_eq_some] at hfails ⊢
  obtain ⟨failure, hfailure, hfirst, hreason⟩ := hfails
  exact ⟨failure, hfailure, Nat.le_trans hfirst hle, hreason⟩

/-- The pace of a reader and its pause do not matter: the bytes are gathered unless it fails
before their end. -/
theorem gather_paced (size : Nat) (trouble : Trouble) (position : Nat) (bytes : List Byte) :
    gather (paced (size + 1) trouble position bytes) =
      match trouble.failureAt? (position + bytes.length) with
      | none => .ok bytes
      | some reason => .error reason := by
  generalize hsize : size + 1 = pace
  fun_induction paced pace trouble position bytes with
  | case1 pace trouble position bytes hinterrupted ih =>
      rw [gather_interrupted, ih hsize]
      rfl
  | case2 pace trouble position bytes _ reason hfails =>
      rw [Trouble.failureAt?_of_le hfails (Nat.le_add_right _ _), gather_failed]
  | case3 trouble position _ _ pace byte bytes piece ih =>
      have hend : position + piece.length + (bytes.drop pace).length =
          position + (byte :: bytes).length := by
        simp only [piece, List.length_cons, List.length_take, List.length_drop]
        omega
      rw [gather_piece (List.cons_ne_nil _ _), ih hsize, hend]
      cases trouble.failureAt? (position + (byte :: bytes).length) with
      | some reason => rfl
      | none =>
          exact congrArg (fun rest => Except.ok (byte :: rest)) (List.take_append_drop pace bytes)
  | case4 pace trouble position bytes _ hfails hdone =>
      cases bytes with
      | nil => simp [hfails]
      | cons byte bytes => exact (hdone size byte bytes hsize.symm rfl).elim

end Delivery

namespace Memory

open Delivery (Delivers gather)

theorem loadStream_ok {deliveries : List Delivery} {bytes : List Byte}
    (hgathers : gather deliveries = .ok bytes) : loadStream deliveries = loadBytes bytes := by
  rw [loadStream, hgathers]

theorem loadStream_error {deliveries : List Delivery} {reason : String}
    (hgathers : gather deliveries = .error reason) (memory : Memory) :
    loadStream deliveries memory = .done (.error (.unreadableStream reason), memory) := by
  rw [loadStream, hgathers]
  rfl

theorem loadStream_paced (size : Nat) (trouble : Delivery.Trouble) (bytes : List Byte) :
    loadStream (Delivery.paced (size + 1) trouble 0 bytes) =
      match trouble.failureAt? bytes.length with
      | none => loadBytes bytes
      | some reason => Action.fail (.unreadableStream reason) := by
  rw [loadStream, Delivery.gather_paced, Nat.zero_add]
  cases trouble.failureAt? bytes.length <;> rfl

theorem converse_loadFile {σ : Type} (console : Console σ) (state : σ) (path : String)
    (bytes : List Byte) (memory : Memory) :
    (loadFile path (.ok bytes) memory).converse console state =
      (loadBytes bytes memory).converse console state := by
  rw [loadFile, Action.bind_apply, Dialogue.converse_bind]
  rcases (loadBytes bytes memory).converse console state with ⟨⟨error | placement, after⟩, left⟩ <;>
    rfl

/-- A stream that comes to its end is loaded as its bytes are at once, into how many pieces it
was cut and however often it paused. One that fails leaves the memory, also behind a complete
image. The same holds of a file, and a file that cannot be opened leaves the memory too. -/
theorem stream_loaded_as_bytes {deliveries : List Delivery} {bytes : List Byte}
    (hdelivers : Delivers deliveries bytes) :
    (loadStream deliveries = loadBytes bytes ∧
      ∀ later, loadStream (deliveries ++ .bytes [] :: later) = loadBytes bytes) ∧
    (∀ reason later memory,
      loadStream (deliveries ++ .failed reason :: later) memory =
        .done (.error (.unreadableStream reason), memory)) ∧
    ∀ path,
      (∀ later (σ : Type) (console : Console σ) state memory,
        (loadFile path (gather (deliveries ++ .bytes [] :: later)) memory).converse console state =
          (loadBytes bytes memory).converse console state) ∧
      (∀ reason later memory,
        loadFile path (gather (deliveries ++ .failed reason :: later)) memory =
          .done (.error (.unreadableFile path reason), memory)) ∧
      ∀ reason memory, loadFile path (.error reason) memory =
        .done (.error (.unreadableFile path reason), memory) := by
  have hended {later : List Delivery} (hlater : gather later = .ok []) :
      gather (deliveries ++ later) = .ok bytes := by
    rw [hdelivers.gather_append, hlater]
    exact congrArg Except.ok (List.append_nil bytes)
  have hexhausted : gather deliveries = .ok bytes := by
    simpa using hended Delivery.gather_nil
  have hfailed (reason : String) (later : List Delivery) :
      gather (deliveries ++ .failed reason :: later) = .error reason :=
    hdelivers.gather_append (.failed reason :: later)
  refine ⟨⟨loadStream_ok hexhausted, fun later => loadStream_ok (hended rfl)⟩,
    fun reason later => loadStream_error (hfailed reason later), fun path => ⟨?_, ?_, ?_⟩⟩
  · intro later σ console state memory
    rw [hended rfl, converse_loadFile]
  · intro reason later memory
    rw [hfailed]
    rfl
  · exact fun _ _ => rfl

theorem image_cut_within_words :
    Delivers [.bytes [0x30], .interrupted, .bytes [0x00, 0x12], .bytes [0x34]]
        [0x30, 0x00, 0x12, 0x34] ∧
      loadStream [.bytes [0x30], .interrupted, .bytes [0x00, 0x12], .bytes [0x34], .bytes []] =
        loadBytes [0x30, 0x00, 0x12, 0x34] ∧
      loadStream [.bytes [0x30], .interrupted, .bytes [0x00, 0x12], .bytes [0x34],
          .failed "disk on fire"] empty =
        .done (.error (.unreadableStream "disk on fire"), empty) := by
  have hdelivers : Delivers [.bytes [0x30], .interrupted, .bytes [0x00, 0x12], .bytes [0x34]]
      [0x30, 0x00, 0x12, 0x34] :=
    .piece (List.cons_ne_nil _ _) (.interrupted (.piece (List.cons_ne_nil _ _)
      (.piece (List.cons_ne_nil _ _) .nothing)))
  obtain ⟨⟨_, hended⟩, hfailed, _⟩ := stream_loaded_as_bytes hdelivers
  exact ⟨hdelivers, hended [], hfailed "disk on fire" [] empty⟩

end Memory

end LittleComputer
