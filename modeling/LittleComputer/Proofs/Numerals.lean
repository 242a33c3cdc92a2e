import LittleComputer.Instruction.Text
import LittleComputer.Proofs.Residue

namespace LittleComputer

/-! Numerals are different for different numbers -/

namespace Numeral

theorem decimal_inj {left right : Nat} : decimal left = decimal right ↔ left = right := by
  refine ⟨fun heq => ?_, congrArg decimal⟩
  have hdigits := congrArg (fun digits => Nat.ofDigitChars 10 digits 0)
    (String.ofList_injective heq)
  simpa only [decimalDigits, Nat.ofDigitChars_ten_toDigits] using hdigits

theorem isDigit_of_mem_decimal {value : Nat} {char : Char}
    (hmem : char ∈ (decimal value).toList) : char.isDigit = true := by
  rw [decimal, String.toList_ofList] at hmem
  exact Nat.isDigit_of_mem_toDigits (by decide) (Nat.le_refl 10) hmem

theorem decimal_ne_negative (value : Nat) (text : String) : decimal value ≠ "-" ++ text := by
  intro heq
  have hsign : '-' ∈ (decimal value).toList := by
    rw [heq, String.toList_append]
    exact List.mem_cons_self
  exact absurd (isDigit_of_mem_decimal hsign) (by decide)

theorem signedDecimal_inj {left right : Int} :
    signedDecimal left = signedDecimal right ↔ left = right := by
  refine ⟨fun heq => ?_, congrArg signedDecimal⟩
  cases left with
  | ofNat left =>
      cases right with
      | ofNat right => rw [decimal_inj.mp heq]
      | negSucc right => exact absurd heq (decimal_ne_negative left _)
  | negSucc left =>
      cases right with
      | ofNat right => exact absurd heq.symm (decimal_ne_negative right _)
      | negSucc right =>
          have hdigits := decimal_inj.mp (String.append_right_inj "-" |>.mp heq)
          rw [Nat.succ.inj hdigits]

theorem hexDigit_inj {left right : Nat} (hleft : left < 16) (hright : right < 16)
    (heq : hexDigit left = hexDigit right) : left = right := by
  have hdigits : ∀ left right : Fin 16, hexDigit left = hexDigit right → left = right := by decide
  exact congrArg Fin.val (hdigits ⟨left, hleft⟩ ⟨right, hright⟩ heq)

theorem hexDigits_inj {width left right : Nat} (hleft : left < Nat.pow 16 width)
    (hright : right < Nat.pow 16 width) (heq : hexDigits width left = hexDigits width right) :
    left = right := by
  induction width generalizing left right with
  | zero =>
      change _ < 1 at hleft hright
      omega
  | succ width ih =>
      change _ < Nat.pow 16 width * 16 at hleft hright
      obtain ⟨hhigh, hlow⟩ := List.append_inj' heq rfl
      have hquotient := ih (by omega) (by omega) hhigh
      have hremainder := hexDigit_inj (Nat.mod_lt left (by decide)) (Nat.mod_lt right (by decide))
        (List.cons.inj hlow).1
      omega

end Numeral

/-! Operands are different by their texts -/

theorem Register.name_inj {left right : Register} : left.name = right.name ↔ left = right := by
  refine ⟨fun heq => ?_, congrArg name⟩
  have hindex := Numeral.decimal_inj.mp (String.append_right_inj "R" |>.mp heq)
  exact index_injective (Fin.ext hindex)

theorem Word.signed_eq (word : Word) :
    word.signed = (word.toNat : Int).bmod UInt16.size := rfl

theorem Word.signed_inj {left right : Word} : left.signed = right.signed ↔ left = right := by
  refine ⟨fun heq => ?_, congrArg signed⟩
  have hresidue := congrArg (· % (UInt16.size : Int)) heq
  simp only [signed_eq, Int.bmod_emod] at hresidue
  exact toNat_int_inj.mp (left.toNat_emod.symm.trans (hresidue.trans right.toNat_emod))

theorem Word.offsetText_inj {left right : Word} :
    left.offsetText = right.offsetText ↔ left = right := by
  rw [offsetText, offsetText, String.append_right_inj, Numeral.signedDecimal_inj, signed_inj]

theorem Byte.hex_inj {left right : Byte} : hex left = hex right ↔ left = right := by
  refine ⟨fun heq => ?_, congrArg hex⟩
  have hdigits := String.ofList_injective (String.append_right_inj "x" |>.mp heq)
  have hleft := left.toNat_lt
  have hright := right.toNat_lt
  exact UInt8.toNat_inj.mp (Numeral.hexDigits_inj (by omega) (by omega) hdigits)

theorem Register.name_ne_offsetText (register : Register) (offset : Word) :
    register.name ≠ offset.offsetText := by
  intro heq
  have hfirst := congrArg (fun text => text.toList.head?) heq
  simp [name, Word.offsetText] at hfirst

theorem Operand.text_inj {left right : Operand} : left.text = right.text ↔ left = right := by
  refine ⟨fun heq => ?_, congrArg text⟩
  cases left with
  | register left =>
      cases right with
      | register right => rw [Register.name_inj.mp heq]
      | immediate right => exact absurd heq (left.name_ne_offsetText right)
  | immediate left =>
      cases right with
      | register right => exact absurd heq.symm (right.name_ne_offsetText left)
      | immediate right => rw [Word.offsetText_inj.mp heq]

/-! No operand holds a comma -/

theorem Numeral.comma_notMem_decimal (value : Nat) : ',' ∉ (decimal value).toList :=
  fun hmem => absurd (isDigit_of_mem_decimal hmem) (by decide)

theorem Numeral.comma_notMem_signedDecimal (value : Int) :
    ',' ∉ (signedDecimal value).toList := by
  cases value with
  | ofNat value => exact comma_notMem_decimal value
  | negSucc value =>
      rw [signedDecimal, String.toList_append]
      exact List.not_mem_append (by decide) (comma_notMem_decimal _)

theorem Numeral.comma_notMem_hexDigits (width value : Nat) : ',' ∉ hexDigits width value := by
  induction width generalizing value with
  | zero => exact List.not_mem_nil
  | succ width ih =>
      have hdigit : ∀ digit : Fin 16, ',' ∉ [hexDigit digit] := by decide
      exact List.not_mem_append (ih _) (hdigit ⟨value % 16, Nat.mod_lt value (by decide)⟩)

theorem Register.comma_notMem_name (register : Register) : ',' ∉ register.name.toList := by
  rw [name, String.toList_append]
  exact List.not_mem_append (by decide) (Numeral.comma_notMem_decimal _)

theorem Word.comma_notMem_offsetText (offset : Word) : ',' ∉ offset.offsetText.toList := by
  rw [offsetText, String.toList_append]
  exact List.not_mem_append (by decide) (Numeral.comma_notMem_signedDecimal _)

theorem Byte.comma_notMem_hex (byte : Byte) : ',' ∉ (hex byte).toList := by
  have hlist : (hex byte).toList = 'x' :: Numeral.hexDigits 2 byte.toNat := by
    rw [hex, String.toList_append, @String.toList_ofList (Numeral.hexDigits 2 byte.toNat)]
    rfl
  rw [hlist, List.mem_cons, not_or]
  exact ⟨by decide, Numeral.comma_notMem_hexDigits 2 byte.toNat⟩

theorem Operand.comma_notMem_text (operand : Operand) : ',' ∉ operand.text.toList := by
  cases operand with
  | register source => exact source.comma_notMem_name
  | immediate value => exact value.comma_notMem_offsetText

end LittleComputer
