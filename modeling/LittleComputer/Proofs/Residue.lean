import LittleComputer.Condition
import LittleComputer.Opcode

namespace LittleComputer

/-! Words as residues of integers -/

namespace Word

theorem toNat_add (left right : Word) :
    ((left + right).toNat : Int) = ((left.toNat : Int) + right.toNat) % 65536 := by
  rw [UInt16.toNat_add]
  rfl

theorem toNat_complement (word : Word) :
    ((~~~ word).toNat : Int) = 65535 - (word.toNat : Int) := by
  have hword := word.toNat_lt
  rw [UInt16.toNat_not]
  simp only [UInt16.size]
  omega

theorem toNat_int_inj {left right : Word} :
    (left.toNat : Int) = right.toNat ↔ left = right := by
  rw [Int.natCast_inj, UInt16.toNat_inj]

theorem toNat_emod (word : Word) : (word.toNat : Int) % 65536 = word.toNat := by
  have hword := word.toNat_lt
  omega

@[simp] theorem ofInt_toNat (word : Word) : UInt16.ofInt word.toNat = word := by
  have hword := word.toNat_lt
  apply UInt16.toNat_inj.mp
  rw [UInt16.ofInt, UInt16.toNat_ofNat']
  omega

theorem ofInt_eq_iff (number : Int) (word : Word) :
    UInt16.ofInt number = word ↔ number % 65536 = word.toNat := by
  have hword := word.toNat_lt
  rw [← UInt16.toNat_inj, UInt16.ofInt, UInt16.toNat_ofNat']
  omega

def fieldValue (width : Nat) (word : Word) : Int :=
  (word.toNat : Int).bmod (Nat.pow 2 width)

theorem fieldValue_eq (width : Nat) (word : Word) :
    fieldValue width word =
      if 2 * word.field 0 width < Nat.pow 2 width then (word.field 0 width : Int)
      else (word.field 0 width : Int) - Nat.pow 2 width := by
  have hlow : ((word.toNat : Int) % Nat.pow 2 width) = word.field 0 width := by
    simp [field]
  rw [fieldValue, Int.bmod_def, hlow]
  split <;> split <;> omega

theorem toNat_signExtend (width : Nat) (word : Word) :
    ((signExtend width word).toNat : Int) = fieldValue width word % 65536 := by
  rcases Nat.lt_or_ge width 16 with hnarrow | hwide
  · have hlow := word.field_lt 0 width
    have hpower : Nat.pow 2 width ≤ Nat.pow 2 15 :=
      Nat.pow_le_pow_right (by decide) (Nat.le_of_lt_succ hnarrow)
    simp only [signExtend, if_pos hnarrow, fieldValue_eq]
    split
    · rw [UInt16.toNat_ofNat']
      omega
    · rw [UInt16.toNat_sub, UInt16.toNat_ofNat', UInt16.toNat_ofNat']
      omega
  · have hmultiple : (65536 : Int) ∣ Nat.pow 2 width :=
      Int.natCast_dvd_natCast.mpr (Nat.pow_dvd_pow 2 hwide)
    have hcongruent := Int.dvd_trans hmultiple
      (Int.dvd_bmod_sub_self (x := word.toNat) (m := Nat.pow 2 width))
    have hword := word.toNat_emod
    rw [signExtend_of_le hwide, fieldValue]
    omega

theorem toNat_add_signExtend (base word : Word) (width : Nat) :
    ((base + signExtend width word).toNat : Int) =
      ((base.toNat : Int) + fieldValue width word) % 65536 := by
  rw [toNat_add, toNat_signExtend, Int.add_emod_emod]

/-! Fields as quotients -/

theorem field_eq (word : Word) (start width : Nat) :
    word.field start width = word.toNat / Nat.pow 2 start % Nat.pow 2 width :=
  congrArg (· % Nat.pow 2 width) (Nat.shiftRight_eq_div_pow word.toNat start)

theorem bit_eq (word : Word) (index : Nat) :
    word.bit index = decide (word.toNat / Nat.pow 2 index % 2 = 1) :=
  Nat.testBit_eq_decide_div_mod_eq

end Word

theorem Opcode.number_ofWord (word : Word) :
    ((ofWord word).number : Nat) = word.toNat / 4096 := by
  have hword := word.toNat_lt
  have hfield : word.field 12 4 = word.toNat / 4096 % 16 := word.field_eq 12 4
  rw [ofWord, number_ofNumber]
  show word.field 12 4 = word.toNat / 4096
  omega

theorem Condition.ofWord_eq (word : Word) :
    ofWord word =
      if (word.toNat : Int).bmod 65536 < 0 then negative
      else if (word.toNat : Int).bmod 65536 = 0 then zero else positive := by
  have hword := word.toNat_lt
  have hzero : word = 0 ↔ word.toNat = 0 := UInt16.toNat_inj.symm
  have hsign : word.bit 15 = decide (word.toNat / 32768 % 2 = 1) := word.bit_eq 15
  rw [ofWord, Word.isNegative, hsign, Int.bmod_def]
  simp only [hzero, decide_eq_true_eq]
  grind

theorem Condition.selectedBy_field (condition : Condition) (word : Word) :
    condition.selectedBy (UInt16.ofNat (word.field 9 3)) =
      match condition with
      | negative => decide (word.toNat / 2048 % 2 = 1)
      | zero => decide (word.toNat / 1024 % 2 = 1)
      | positive => decide (word.toNat / 512 % 2 = 1) := by
  have hmask : ∀ mask < 8,
      negative.selectedBy (UInt16.ofNat mask) = decide (mask / 4 % 2 = 1) ∧
        zero.selectedBy (UInt16.ofNat mask) = decide (mask / 2 % 2 = 1) ∧
        positive.selectedBy (UInt16.ofNat mask) = decide (mask % 2 = 1) := by
    decide
  obtain ⟨hnegative, hzero, hpositive⟩ := hmask _ (word.field_lt 9 3)
  have hfield : word.field 9 3 = word.toNat / 512 % 8 := word.field_eq 9 3
  have hbits : word.field 9 3 / 4 % 2 = word.toNat / 2048 % 2 ∧
      word.field 9 3 / 2 % 2 = word.toNat / 1024 % 2 ∧
      word.field 9 3 % 2 = word.toNat / 512 % 2 := by
    omega
  obtain ⟨heleven, hten, hnine⟩ := hbits
  cases condition with
  | negative => rw [hnegative, heleven]
  | zero => rw [hzero, hten]
  | positive => rw [hpositive, hnine]

end LittleComputer
