import Mathlib.Algebra.Order.Ring.Int
import LittleComputer.Proofs.Numerals

namespace LittleComputer

/-! Sign extension

What extending a field does to its bits, how masks do it, and which integers come of it. -/

namespace Word

/-! Two's complement -/

theorem field_succ (word : Word) (width : Nat) :
    word.field 0 (width + 1) =
      word.field 0 width + if word.bit width then 2 ^ width else 0 := by
  have hfield (count : Nat) : word.field 0 count = word.toNat % 2 ^ count := rfl
  rw [hfield, hfield, Nat.mod_pow_succ, bit_eq]
  rcases Nat.mod_two_eq_zero_or_one (word.toNat / 2 ^ width) with hzero | hone
  · simp [hzero]
  · simp [hone]

theorem fieldValue_succ (width : Nat) (word : Word) :
    fieldValue (width + 1) word =
      (word.field 0 width : Int) - (if word.bit width then 2 ^ width else 0 : Nat) := by
  have hlow : word.field 0 width < 2 ^ width := word.field_lt 0 width
  have hdouble : Nat.pow 2 (width + 1) = 2 * 2 ^ width := Nat.pow_succ'
  rw [fieldValue_eq, field_succ, hdouble]
  split <;> omega

theorem fieldValue_bounds {width : Nat} (hwidth : 0 < width) (word : Word) :
    -(2 : Int) ^ (width - 1) ≤ fieldValue width word ∧
      fieldValue width word < (2 : Int) ^ (width - 1) := by
  obtain ⟨count, rfl⟩ := Nat.exists_eq_add_one.mpr hwidth
  have hlow : word.field 0 count < 2 ^ count := word.field_lt 0 count
  have hcast : ((2 ^ count : Nat) : Int) = (2 : Int) ^ count := Int.natCast_pow 2 count
  rw [Nat.add_sub_cancel, fieldValue_succ]
  split <;> omega

/-! Bits -/

theorem ext_bit {left right : Word}
    (hbit : ∀ index < 16, left.bit index = right.bit index) : left = right := by
  apply UInt16.toNat_inj.mp
  apply Nat.eq_of_testBit_eq
  intro index
  rcases Nat.lt_or_ge index 16 with hlt | hge
  · exact hbit index hlt
  · have hpower : 2 ^ 16 ≤ 2 ^ index := Nat.pow_le_pow_right (by decide) hge
    rw [Nat.testBit_lt_two_pow (Nat.lt_of_lt_of_le left.toNat_lt hpower),
      Nat.testBit_lt_two_pow (Nat.lt_of_lt_of_le right.toNat_lt hpower)]

theorem bit_and (left right : Word) (index : Nat) :
    (left &&& right).bit index = (left.bit index && right.bit index) := by
  rw [bit, UInt16.toNat_and, Nat.testBit_and, bit, bit]

theorem bit_or (left right : Word) (index : Nat) :
    (left ||| right).bit index = (left.bit index || right.bit index) := by
  rw [bit, UInt16.toNat_or, Nat.testBit_or, bit, bit]

theorem bit_complement (word : Word) {index : Nat} (hindex : index < 16) :
    (~~~ word).bit index = !word.bit index := by
  have htoNat : (~~~ word).toNat = 2 ^ 16 - (word.toNat + 1) := by
    rw [UInt16.toNat_not, Nat.sub_sub, Nat.add_comm]
    rfl
  rw [bit, htoNat, Nat.testBit_two_pow_sub_succ word.toNat_lt, decide_eq_true hindex,
    Bool.true_and, bit]

theorem shiftRight_and_one_iff (word : Word) {index : Nat} (hindex : index < 16) :
    (word >>> UInt16.ofNat index) &&& 1 = 1 ↔ word.bit index := by
  have hshift : (word >>> UInt16.ofNat index).toNat = word.toNat / 2 ^ index := by
    rw [UInt16.toNat_shiftRight, UInt16.toNat_ofNat_of_lt' (Nat.lt_trans hindex (by decide)),
      Nat.mod_eq_of_lt hindex, Nat.shiftRight_eq_div_pow]
  rw [← UInt16.toNat_inj, UInt16.toNat_and, hshift, UInt16.toNat_one, Nat.and_one_is_mod,
    bit_eq, decide_eq_true_iff]
  rfl

theorem toNat_signExtend_succ {width : Nat} (hwidth : width < 16) (word : Word) :
    (signExtend (width + 1) word).toNat =
      if word.bit width then 2 ^ width * (2 ^ (16 - width) - 1) + word.field 0 width
      else word.field 0 width := by
  have hlow : word.field 0 width < 2 ^ width := word.field_lt 0 width
  have hsplit : 2 ^ width * 2 ^ (16 - width) = 65536 := by
    rw [← Nat.pow_add, Nat.add_sub_cancel' (Nat.le_of_lt hwidth)]
  have hle : 2 ^ width ≤ 65536 := Nat.pow_le_pow_right (by decide) (Nat.le_of_lt hwidth)
  have hvalue := toNat_signExtend (width + 1) word
  rw [fieldValue_succ] at hvalue
  rw [Nat.mul_sub, hsplit, Nat.mul_one]
  cases hsign : word.bit width with
  | false =>
      rw [hsign, if_neg Bool.false_ne_true] at hvalue
      rw [if_neg Bool.false_ne_true]
      omega
  | true =>
      rw [hsign, if_pos rfl] at hvalue
      rw [if_pos rfl]
      omega

theorem bit_signExtend (width : Nat) (word : Word) {index : Nat} (hindex : index < 16) :
    (signExtend (width + 1) word).bit index = word.bit (min index width) := by
  rcases Nat.lt_or_ge width 16 with hnarrow | hwide
  · have hlow : word.field 0 width < 2 ^ width := word.field_lt 0 width
    have hfield : (word.field 0 width).testBit index =
        (decide (index < width) && word.bit index) := Nat.testBit_mod_two_pow _ _ _
    have hones : (2 ^ (16 - width) - 1).testBit (index - width) = true := by
      rw [Nat.testBit_two_pow_sub_one]
      exact decide_eq_true (by omega)
    rw [bit, toNat_signExtend_succ hnarrow]
    rcases Nat.lt_or_ge index width with hbelow | habove
    · rw [Nat.min_eq_left (Nat.le_of_lt hbelow)]
      split
      · rw [Nat.testBit_two_pow_mul_add _ hlow, if_pos hbelow, hfield, decide_eq_true hbelow,
          Bool.true_and]
      · rw [hfield, decide_eq_true hbelow, Bool.true_and]
    · rw [Nat.min_eq_right habove]
      split
      next hsign =>
        rw [Nat.testBit_two_pow_mul_add _ hlow, if_neg (Nat.not_lt.mpr habove), hones, hsign]
      next hsign =>
        rw [hfield, decide_eq_false (Nat.not_lt.mpr habove), Bool.false_and,
          Bool.eq_false_iff.mpr hsign]
  · rw [signExtend_of_le (Nat.le_succ_of_le hwide),
      Nat.min_eq_left (Nat.le_trans (Nat.le_of_lt hindex) hwide)]

/-! Masks -/

def mask (width : Nat) : Word :=
  (1 <<< UInt16.ofNat width) - 1

/-- Cuts the field out, and where its highest bit is set, sets all bits above it. -/
def signExtendMasked (width : Nat) (word : Word) : Word :=
  if width < 16 then
    let low := word &&& mask width
    if (low >>> UInt16.ofNat (width - 1)) &&& 1 = 1 then low ||| ~~~ mask width else low
  else
    word

theorem toNat_mask {width : Nat} (hwidth : width < 16) : (mask width).toNat = 2 ^ width - 1 := by
  have hpower : 2 ^ width < 2 ^ 16 := Nat.pow_lt_pow_right (by decide) hwidth
  have hshift : ((1 : Word) <<< UInt16.ofNat width).toNat = 2 ^ width := by
    rw [UInt16.toNat_shiftLeft, UInt16.toNat_ofNat_of_lt' (Nat.lt_trans hwidth (by decide)),
      Nat.mod_eq_of_lt hwidth, Nat.shiftLeft_eq, UInt16.toNat_one, Nat.one_mul,
      Nat.mod_eq_of_lt hpower]
  have hone : (1 : Word) ≤ 1 <<< UInt16.ofNat width := by
    rw [UInt16.le_iff_toNat_le, hshift]
    exact Nat.one_le_two_pow
  rw [mask, UInt16.toNat_sub_of_le _ _ hone, hshift, UInt16.toNat_one]

theorem bit_mask {width : Nat} (hwidth : width < 16) (index : Nat) :
    (mask width).bit index = decide (index < width) := by
  rw [bit, toNat_mask hwidth, Nat.testBit_two_pow_sub_one]

theorem signExtend_eq_masked {width : Nat} (hwidth : 0 < width) (word : Word) :
    signExtend width word = signExtendMasked width word := by
  obtain ⟨count, rfl⟩ := Nat.exists_eq_add_one.mpr hwidth
  rcases Nat.lt_or_ge (count + 1) 16 with hnarrow | hwide
  · have hlow (index : Nat) : (word &&& mask (count + 1)).bit index =
        (word.bit index && decide (index < count + 1)) := by
      rw [bit_and, bit_mask hnarrow]
    have hsign : (word &&& mask (count + 1)).bit count = word.bit count := by
      rw [hlow, decide_eq_true (Nat.lt_succ_self count), Bool.and_true]
    -- Both sides repeat bit `count` of the word from there upward.
    apply ext_bit
    intro index hindex
    rw [bit_signExtend count word hindex, signExtendMasked, if_pos hnarrow]
    simp only [Nat.add_sub_cancel, shiftRight_and_one_iff _ (Nat.lt_of_succ_lt hnarrow), hsign]
    rcases Nat.lt_or_ge index (count + 1) with hbelow | habove
    · have hinside : decide (index < count + 1) = true := decide_eq_true hbelow
      rw [Nat.min_eq_left (Nat.le_of_lt_succ hbelow)]
      split
      · rw [bit_or, hlow, bit_complement _ hindex, bit_mask hnarrow, hinside, Bool.and_true,
          Bool.not_true, Bool.or_false]
      · rw [hlow, hinside, Bool.and_true]
    · have houtside : decide (index < count + 1) = false :=
        decide_eq_false (Nat.not_lt.mpr habove)
      rw [Nat.min_eq_right (Nat.le_of_succ_le habove)]
      split
      next hset =>
        rw [bit_or, bit_complement _ hindex, bit_mask hnarrow, houtside, Bool.not_false,
          Bool.or_true, hset]
      next hclear =>
        rw [hlow, houtside, Bool.and_false, Bool.eq_false_iff.mpr hclear]
  · rw [signExtend_of_le hwide, signExtendMasked, if_neg (Nat.not_lt.mpr hwide)]

/-! Integers -/

/-- The word has the low bits of a field, and its value is one that the field can hold. -/
structure Extends (width : Nat) (word extended : Word) : Prop where
  congruent : extended.toNat % 2 ^ width = word.toNat % 2 ^ width
  least : -(2 : Int) ^ (width - 1) ≤ extended.signed
  below : extended.signed < (2 : Int) ^ (width - 1)

theorem bmod_two_pow {width : Nat} (hwidth : 0 < width) {value : Int}
    (hleast : -(2 : Int) ^ (width - 1) ≤ value) (hbelow : value < (2 : Int) ^ (width - 1)) :
    value.bmod (2 ^ width) = value := by
  obtain ⟨count, rfl⟩ := Nat.exists_eq_add_one.mpr hwidth
  have hdouble : 2 ^ (count + 1) = 2 * 2 ^ count := Nat.pow_succ'
  have hcast : ((2 ^ count : Nat) : Int) = (2 : Int) ^ count := Int.natCast_pow 2 count
  rw [Nat.add_sub_cancel] at hleast hbelow
  rw [hdouble]
  exact Int.bmod_eq_of_le (by omega) (by omega)

theorem fieldValue_congr {width : Nat} {left right : Word}
    (hcongruent : left.toNat % 2 ^ width = right.toNat % 2 ^ width) :
    fieldValue width left = fieldValue width right := by
  have hresidue : (left.toNat : Int) % (2 ^ width : Nat) = right.toNat % (2 ^ width : Nat) :=
    congrArg Nat.cast hcongruent
  calc
    fieldValue width left = ((left.toNat : Int) % (2 ^ width : Nat)).bmod (2 ^ width) :=
      (Int.emod_bmod _ _).symm
    _ = ((right.toNat : Int) % (2 ^ width : Nat)).bmod (2 ^ width) := by rw [hresidue]
    _ = fieldValue width right := Int.emod_bmod _ _

theorem signed_signExtend {width : Nat} (hwidth : 0 < width) (hnarrow : width ≤ 16)
    (word : Word) : (signExtend width word).signed = fieldValue width word := by
  obtain ⟨hleast, hbelow⟩ := fieldValue_bounds hwidth word
  have hpower : (2 : Int) ^ (width - 1) ≤ 2 ^ 15 := pow_le_pow_right₀ (by decide) (by omega)
  calc
    (signExtend width word).signed = (fieldValue width word % 65536).bmod 65536 :=
      congrArg (Int.bmod · 65536) (toNat_signExtend width word)
    _ = (fieldValue width word).bmod (2 ^ 16) := Int.emod_bmod _ _
    _ = fieldValue width word := bmod_two_pow (by decide) (by omega) (by omega)

theorem signExtend_extends {width : Nat} (hwidth : 0 < width) (hnarrow : width ≤ 16)
    (word : Word) : Extends width word (signExtend width word) where
  congruent := by
    have hdvd : ((2 ^ width : Nat) : Int) ∣ 65536 :=
      Int.natCast_dvd_natCast.mpr (Nat.pow_dvd_pow 2 hnarrow)
    apply Int.natCast_inj.mp
    rw [Int.natCast_emod, Int.natCast_emod, toNat_signExtend, Int.emod_emod_of_dvd _ hdvd]
    exact Int.bmod_emod
  least := by
    rw [signed_signExtend hwidth hnarrow]
    exact (fieldValue_bounds hwidth word).1
  below := by
    rw [signed_signExtend hwidth hnarrow]
    exact (fieldValue_bounds hwidth word).2

namespace Extends

variable {width : Nat} {word extended : Word}

theorem signed_eq (hextends : Extends width word extended) (hwidth : 0 < width)
    (hnarrow : width ≤ 16) : extended.signed = fieldValue width word := by
  calc
    extended.signed = extended.signed.bmod (2 ^ width) :=
      (bmod_two_pow hwidth hextends.least hextends.below).symm
    _ = fieldValue width extended := Int.bmod_bmod_of_dvd (Nat.pow_dvd_pow 2 hnarrow)
    _ = fieldValue width word := fieldValue_congr hextends.congruent

theorem widened (hextends : Extends width word extended) {wider : Nat} (hle : width ≤ wider) :
    Extends wider extended extended where
  congruent := rfl
  least := by
    have hpower : (2 : Int) ^ (width - 1) ≤ 2 ^ (wider - 1) :=
      pow_le_pow_right₀ (by decide) (Nat.sub_le_sub_right hle 1)
    have hleast := hextends.least
    omega
  below := Int.lt_of_lt_of_le hextends.below
    (pow_le_pow_right₀ (by decide) (Nat.sub_le_sub_right hle 1))

theorem of_congruent (hextends : Extends width word extended) {other : Word}
    (hcongruent : other.toNat % 2 ^ width = word.toNat % 2 ^ width) :
    Extends width other extended where
  congruent := hextends.congruent.trans hcongruent.symm
  least := hextends.least
  below := hextends.below

end Extends

theorem extends_iff {width : Nat} (hwidth : 0 < width) (hnarrow : width ≤ 16)
    {word extended : Word} :
    Extends width word extended ↔ extended = signExtend width word := by
  constructor
  · intro hextends
    apply signed_inj.mp
    rw [hextends.signed_eq hwidth hnarrow, signed_signExtend hwidth hnarrow]
  · rintro rfl
    exact signExtend_extends hwidth hnarrow word

/-! Any number of bits -/

theorem signExtend_min (width : Nat) (word : Word) :
    signExtend (min width 16) word = signExtend width word := by
  rcases Nat.le_total width 16 with hnarrow | hwide
  · rw [Nat.min_eq_left hnarrow]
  · rw [Nat.min_eq_right hwide, signExtend_of_le (Nat.le_refl 16), signExtend_of_le hwide]

theorem extends_min_iff {width : Nat} (hwidth : 0 < width) {word extended : Word} :
    Extends (min width 16) word extended ↔ extended = signExtend width word := by
  have hpositive : 0 < min width 16 := Nat.lt_min.mpr ⟨hwidth, by decide⟩
  rw [extends_iff hpositive (Nat.min_le_right width 16), signExtend_min]

section

variable {width wider : Nat} (hwidth : 0 < width) (hle : width ≤ wider) (word : Word)

include hwidth hle

theorem signExtend_wider : signExtend wider (signExtend width word) = signExtend width word := by
  have hextends : Extends (min width 16) word (signExtend width word) :=
    (extends_min_iff hwidth).mpr rfl
  have hmin : min width 16 ≤ min wider 16 := by omega
  exact ((extends_min_iff (Nat.lt_of_lt_of_le hwidth hle)).mp (hextends.widened hmin)).symm

theorem signExtend_narrower :
    signExtend width (signExtend wider word) = signExtend width word := by
  have hextends : Extends (min width 16) word (signExtend width word) :=
    (extends_min_iff hwidth).mpr rfl
  have hwidened : Extends (min wider 16) word (signExtend wider word) :=
    (extends_min_iff (Nat.lt_of_lt_of_le hwidth hle)).mpr rfl
  have hdvd : 2 ^ min width 16 ∣ 2 ^ min wider 16 := Nat.pow_dvd_pow 2 (by omega)
  have hcongruent : (signExtend wider word).toNat % 2 ^ min width 16 =
      word.toNat % 2 ^ min width 16 := by
    rw [← Nat.mod_mod_of_dvd _ hdvd, hwidened.congruent, Nat.mod_mod_of_dvd _ hdvd]
  exact ((extends_min_iff hwidth).mp (hextends.of_congruent hcongruent)).symm

end

/-- The extension of a field is the only word with the bits of the field and a value in its range.
Of two extensions the narrower one decides, and adding the extension adds the value of the field. -/
theorem sign_extension {width : Nat} (hwidth : 0 < width) (word : Word) :
    signExtend width word = signExtendMasked width word ∧
    (∀ extended, Extends (min width 16) word extended ↔ extended = signExtend width word) ∧
    (∀ wider, width ≤ wider →
      signExtend wider (signExtend width word) = signExtend width word ∧
      signExtend width (signExtend wider word) = signExtend width word) ∧
    ∀ base : Word, ((base + signExtend width word).toNat : Int) =
      ((base.toNat : Int) + fieldValue (min width 16) word) % 65536 := by
  refine ⟨signExtend_eq_masked hwidth word, fun extended => extends_min_iff hwidth,
    fun wider hle => ?_, fun base => ?_⟩
  · exact ⟨signExtend_wider hwidth hle word, signExtend_narrower hwidth hle word⟩
  · rw [← signExtend_min, toNat_add_signExtend]

theorem sign_extension_of_fifteen_bits :
    0 < 15 ∧ 15 ≤ 17 ∧ signExtendMasked 15 0x4001 = 0xC001 ∧ Extends 15 0x4001 0xC001 ∧
      signExtend 17 0xC001 = 0xC001 ∧ signExtend 15 (signExtend 17 0x4001) = 0xC001 ∧
      ((0x2000 + (0xC001 : Word)).toNat : Int) = (0x2000 + -16383) % 65536 := by
  have hextended : signExtend 15 0x4001 = 0xC001 := by decide
  obtain ⟨hmasked, hunique, hcomposed, hsum⟩ := sign_extension (by decide : 0 < 15) 0x4001
  obtain ⟨hwider, hnarrower⟩ := hcomposed 17 (by decide)
  rw [hextended] at hmasked hwider hnarrower
  refine ⟨by decide, by decide, hmasked.symm, (hunique 0xC001).mpr hextended.symm, hwider,
    hnarrower, ?_⟩
  have hvalue : fieldValue (min 15 16) 0x4001 = -16383 := by decide
  have haddress := hsum 0x2000
  rw [hextended, hvalue] at haddress
  exact haddress

end Word

end LittleComputer
