import LittleComputer.Memory.Listing
import LittleComputer.Proofs.ImageLoading

namespace LittleComputer

/-! Consecutive cells -/

namespace Word

/-- So many addresses from `address` upward. After the last address comes zero. -/
def upward (address : Word) (count : Nat) : List Word :=
  (List.range count).map fun index => address + UInt16.ofNat index

@[simp] theorem length_upward (address : Word) (count : Nat) :
    (address.upward count).length = count := by
  simp [upward]

@[simp] theorem upward_zero (address : Word) : address.upward 0 = [] := rfl

theorem upward_succ (address : Word) (count : Nat) :
    address.upward (count + 1) = address :: (address + 1).upward count := by
  simp only [upward, List.range_succ_eq_map, List.map_cons, List.map_map]
  congr 1
  · simp
  · apply List.map_congr_left
    intro index _
    exact (add_one_add_ofNat address index).symm

theorem getElem?_upward (address : Word) {count index : Nat} (hindex : index < count) :
    (address.upward count)[index]? = some (address + UInt16.ofNat index) := by
  simp [upward, hindex]

theorem mem_upward {address cell : Word} {count : Nat} :
    cell ∈ address.upward count ↔ (cell - address).toNat < count := by
  induction count generalizing address with
  | zero => simp
  | succ count ih =>
      rw [upward_succ, List.mem_cons, ih]
      by_cases hcell : cell = address
      · simp [hcell]
      · rw [Memory.toNat_sub_add_one hcell]
        simp [hcell]

theorem nodup_upward (address : Word) {count : Nat} (hcount : count ≤ Memory.size) :
    (address.upward count).Nodup := by
  induction count generalizing address with
  | zero => exact List.nodup_nil
  | succ count ih =>
      rw [upward_succ, List.nodup_cons]
      refine ⟨?_, ih (address + 1) (Nat.le_of_succ_le hcount)⟩
      -- The next ones would come round to the first one only after all the others.
      rw [mem_upward, Memory.toNat_sub_self_add_one]
      omega

theorem count_upward_size (address cell : Word) :
    (address.upward Memory.size).count cell = 1 := by
  have hmem : cell ∈ address.upward Memory.size := mem_upward.mpr (cell - address).toNat_lt
  rw [(nodup_upward address (Nat.le_refl _)).count, if_pos hmem]

end Word

namespace Memory

theorem rows_eq_map (memory : Memory) (address : Word) (count : Nat) :
    memory.rows address count =
      (address.upward count).map fun cell => Row.ofWord cell (memory.peek cell) := by
  induction count generalizing address with
  | zero => rfl
  | succ count ih => rw [rows, ih, Word.upward_succ, List.map_cons]

end Memory

end LittleComputer
