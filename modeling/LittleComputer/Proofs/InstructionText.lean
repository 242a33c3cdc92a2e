import LittleComputer.Instruction.Text
import LittleComputer.Proofs.Numerals
import LittleComputer.Proofs.Parts

namespace LittleComputer

/-! Texts that are put together can be taken apart -/

theorem append_separator_inj {char : Char} {first second firstRest secondRest : List Char}
    (hfirst : char ∉ first) (hsecond : char ∉ second)
    (heq : first ++ char :: firstRest = second ++ char :: secondRest) :
    first = second ∧ firstRest = secondRest := by
  rcases List.append_eq_append_iff.mp heq with ⟨between, rfl, hrest⟩ | ⟨between, rfl, hrest⟩
  · cases between with
    | nil => exact ⟨(List.append_nil first).symm, (List.cons.inj hrest).2⟩
    | cons next between =>
        obtain ⟨rfl, _⟩ := List.cons.inj hrest
        exact absurd (List.mem_append_right _ List.mem_cons_self) hsecond
  · cases between with
    | nil => exact ⟨List.append_nil second, (List.cons.inj hrest).2.symm⟩
    | cons next between =>
        obtain ⟨rfl, _⟩ := List.cons.inj hrest
        exact absurd (List.mem_append_right _ List.mem_cons_self) hfirst

theorem intercalate_comma (text : List Char) (texts : List (List Char)) :
    [',', ' '].intercalate (text :: texts) =
      [','].intercalate (text :: texts.map (List.cons ' ')) := by
  induction texts generalizing text with
  | nil => rfl
  | cons next texts ih =>
      rw [List.map_cons, List.intercalate_cons_cons, List.intercalate_cons_cons, ih]
      cases texts with
      | nil => simp
      | cons later texts => simp [List.intercalate_cons_cons]

theorem splitOn_comma {text : List Char} {texts : List (List Char)}
    (hplain : ∀ part ∈ text :: texts, ',' ∉ part) :
    ([',', ' '].intercalate (text :: texts)).splitOn ',' =
      text :: texts.map (List.cons ' ') := by
  rw [List.forall_mem_cons] at hplain
  obtain ⟨htext, htexts⟩ := hplain
  -- The blank behind a comma counts to the part that follows it.
  rw [intercalate_comma]
  refine List.splitOn_intercalate ',' ?_ (List.cons_ne_nil _ _)
  rw [List.forall_mem_cons, List.forall_mem_map]
  refine ⟨htext, fun part hpart => ?_⟩
  rw [List.mem_cons, not_or]
  exact ⟨by decide, htexts part hpart⟩

theorem intercalate_inj {text other : List Char} {texts others : List (List Char)}
    (hplain : ∀ part ∈ text :: texts, ',' ∉ part)
    (hother : ∀ part ∈ other :: others, ',' ∉ part)
    (heq : [',', ' '].intercalate (text :: texts) = [',', ' '].intercalate (other :: others)) :
    text :: texts = other :: others := by
  have hparts := congrArg (List.splitOn ',') heq
  rw [splitOn_comma hplain, splitOn_comma hother, List.cons.injEq] at hparts
  obtain ⟨rfl, hrest⟩ := hparts
  rw [List.map_inj_right (fun _ _ hcons => (List.cons.inj hcons).2) |>.mp hrest]

namespace Opcode

def names : Opcode → List String
  | br => ["NOP", "BR", "BRn", "BRz", "BRp", "BRnz", "BRnp", "BRzp", "BRnzp"]
  | jmp => ["JMP", "RET"]
  | jsr => ["JSR", "JSRR"]
  | trap => "TRAP" :: TrapService.all.map TrapService.name
  | opcode => [opcode.mnemonic]

def ofName? (name : String) : Option Opcode :=
  all.find? fun opcode => name ∈ opcode.names

theorem ofName?_of_mem {opcode : Opcode} {name : String} (hname : name ∈ opcode.names) :
    ofName? name = some opcode := by
  have hnames : ∀ name ∈ opcode.names, ofName? name = some opcode := by
    cases opcode <;> decide
  exact hnames name hname

theorem space_notMem_name {opcode : Opcode} {name : String} (hname : name ∈ opcode.names) :
    ' ' ∉ name.toList := by
  have hnames : ∀ name ∈ opcode.names, ' ' ∉ name.toList := by
    cases opcode <;> decide
  exact hnames name hname

end Opcode

namespace Instruction

theorem branch_mem_names (mask : Word) : "BR" ++ maskLetters mask ∈ Opcode.br.names := by
  rw [maskLetters]
  split <;> split <;> split <;> decide

theorem mnemonic_mem_names (instruction : Instruction) :
    instruction.mnemonic ∈ instruction.opcode.names := by
  cases instruction with
  | br mask offset =>
      rw [mnemonic]
      split
      · exact List.mem_cons_self
      · exact branch_mem_names mask
  | jmp base =>
      rw [mnemonic]
      split
      · exact List.mem_cons_of_mem _ (List.mem_singleton_self _)
      · exact List.mem_cons_self
  | jsrr base => exact List.mem_cons_of_mem _ (List.mem_singleton_self _)
  | jsr offset => exact List.mem_cons_self
  | trap vector =>
      rw [mnemonic]
      cases TrapService.ofVector? vector with
      | none => exact List.mem_cons_self
      | some requested =>
          exact List.mem_cons_of_mem _ (List.mem_map_of_mem (TrapService.mem_all requested))
  | _ => exact List.mem_singleton_self _

theorem opcode_of_mnemonic {first second : Instruction}
    (hmnemonic : first.mnemonic = second.mnemonic) : first.opcode = second.opcode := by
  have hfirst := Opcode.ofName?_of_mem first.mnemonic_mem_names
  rw [hmnemonic, Opcode.ofName?_of_mem second.mnemonic_mem_names] at hfirst
  exact (Option.some.inj hfirst).symm

theorem comma_notMem_operandTexts (instruction : Instruction) :
    ∀ part ∈ instruction.operandTexts.map String.toList, ',' ∉ part := by
  have hregister := Register.comma_notMem_name
  have hoffset := Word.comma_notMem_offsetText
  cases instruction with
  | br mask offset =>
      rw [operandTexts]
      split
      · exact nofun
      · simp [hoffset]
  | jmp base =>
      rw [operandTexts]
      split
      · exact nofun
      · simp [hregister]
  | trap vector =>
      rw [operandTexts]
      split
      · exact nofun
      · simp [Byte.comma_notMem_hex]
  | _ => simp [operandTexts, hregister, hoffset, Operand.comma_notMem_text]

theorem toList_text_nil {instruction : Instruction} (htexts : instruction.operandTexts = []) :
    instruction.text.toList = instruction.mnemonic.toList := by
  rw [text, htexts]

theorem toList_text_cons {instruction : Instruction} {first : String} {rest : List String}
    (htexts : instruction.operandTexts = first :: rest) :
    instruction.text.toList =
      instruction.mnemonic.toList ++
        ' ' :: [',', ' '].intercalate (first.toList :: rest.map String.toList) := by
  rw [text, operands, htexts]
  simp only [String.toList_append, String.toList_intercalate, List.append_assoc, List.map_cons]
  rfl

theorem space_notMem_mnemonic (instruction : Instruction) :
    ' ' ∉ instruction.mnemonic.toList :=
  Opcode.space_notMem_name instruction.mnemonic_mem_names

theorem parts_of_text {first second : Instruction} (htext : first.text = second.text) :
    first.mnemonic = second.mnemonic ∧ first.operandTexts = second.operandTexts := by
  have hlist := congrArg String.toList htext
  cases hfirst : first.operandTexts with
  | nil =>
      rw [toList_text_nil hfirst] at hlist
      cases hsecond : second.operandTexts with
      | nil =>
          rw [toList_text_nil hsecond] at hlist
          exact ⟨String.toList_injective hlist, rfl⟩
      | cons other others =>
          rw [toList_text_cons hsecond] at hlist
          exact absurd (hlist ▸ List.mem_append_right _ List.mem_cons_self)
            first.space_notMem_mnemonic
  | cons text texts =>
      rw [toList_text_cons hfirst] at hlist
      cases hsecond : second.operandTexts with
      | nil =>
          rw [toList_text_nil hsecond] at hlist
          exact absurd (hlist ▸ List.mem_append_right _ List.mem_cons_self)
            second.space_notMem_mnemonic
      | cons other others =>
          rw [toList_text_cons hsecond] at hlist
          obtain ⟨hmnemonic, hoperands⟩ := append_separator_inj first.space_notMem_mnemonic
            second.space_notMem_mnemonic hlist
          have hplain := first.comma_notMem_operandTexts
          have hother := second.comma_notMem_operandTexts
          rw [hfirst] at hplain
          rw [hsecond] at hother
          have htexts : (text :: texts).map String.toList = (other :: others).map String.toList :=
            intercalate_inj hplain hother hoperands
          refine ⟨String.toList_injective hmnemonic, ?_⟩
          exact List.map_inj_right (fun _ _ => String.toList_injective) |>.mp htexts

theorem mask_inj {left right : Nat} (hleft : left < 8) (hright : right < 8)
    (hletters : maskLetters (UInt16.ofNat left) = maskLetters (UInt16.ofNat right)) :
    left = right := by
  have hmasks : ∀ left right : Fin 8,
      maskLetters (UInt16.ofNat left) = maskLetters (UInt16.ofNat right) → left = right := by
    decide
  exact congrArg Fin.val (hmasks ⟨left, hleft⟩ ⟨right, hright⟩ hletters)

theorem trap_of_parts {first second : Byte}
    (hmnemonic : (trap first).mnemonic = (trap second).mnemonic)
    (htexts : (trap first).operandTexts = (trap second).operandTexts) : first = second := by
  simp only [mnemonic, operandTexts] at hmnemonic htexts
  cases hfirst : TrapService.ofVector? first with
  | none =>
      cases hsecond : TrapService.ofVector? second with
      | none => simpa [hfirst, hsecond, Byte.hex_inj] using htexts
      | some _ => simp [hfirst, hsecond] at htexts
  | some service =>
      cases hsecond : TrapService.ofVector? second with
      | none => simp [hfirst, hsecond] at htexts
      | some other =>
          have hservice : service = other := by
            simp only [hfirst, hsecond, Option.elim_some] at hmnemonic
            exact TrapService.name_inj.mp hmnemonic
          rw [← TrapService.ofVector?_eq_some_iff.mp hfirst, hservice,
            TrapService.ofVector?_eq_some_iff.mp hsecond]

theorem branch_of_parts {first second : Nat} {near far : Word} (hfirst : first < 8)
    (hsecond : second < 8)
    (hmnemonic : (br (UInt16.ofNat first) near).mnemonic = (br (UInt16.ofNat second) far).mnemonic)
    (htexts : (br (UInt16.ofNat first) near).operandTexts =
      (br (UInt16.ofNat second) far).operandTexts) :
    first = second ∧ near = far ∨ UInt16.ofNat first = 0 ∧ UInt16.ofNat second = 0 := by
  simp only [mnemonic, operandTexts] at hmnemonic htexts
  by_cases hzero : UInt16.ofNat first = 0
  · by_cases hother : UInt16.ofNat second = 0
    · exact .inr ⟨hzero, hother⟩
    · simp [hzero, hother] at htexts
  · by_cases hother : UInt16.ofNat second = 0
    · simp [hzero, hother] at htexts
    · rw [if_neg hzero, if_neg hother, String.append_right_inj] at hmnemonic
      rw [if_neg hzero, if_neg hother, List.cons.injEq, Word.offsetText_inj] at htexts
      exact .inl ⟨mask_inj hfirst hsecond hmnemonic, htexts.1⟩

theorem jump_of_parts {first second : Register}
    (htexts : (jmp first).operandTexts = (jmp second).operandTexts) : first = second := by
  simp only [operandTexts] at htexts
  by_cases hlink : first = Register.link
  · by_cases hother : second = Register.link
    · exact hlink.trans hother.symm
    · simp [hlink, hother] at htexts
  · by_cases hother : second = Register.link
    · simp [hlink, hother] at htexts
    · simpa [hlink, hother, Register.name_inj] using htexts

theorem decode_of_text {first second : Word}
    (htext : (decode first).text = (decode second).text) :
    decode first = decode second ∨
      ∃ near far, decode first = .br 0 near ∧ decode second = .br 0 far := by
  obtain ⟨hmnemonic, htexts⟩ := parts_of_text htext
  have hopcode := opcode_of_mnemonic hmnemonic
  rw [opcode_decode, opcode_decode] at hopcode
  cases hsecond : Opcode.ofWord second with
  | br =>
      rw [hsecond] at hopcode
      simp only [decode, hopcode, hsecond] at hmnemonic htexts ⊢
      obtain ⟨hmask, hoffset⟩ | ⟨hzero, hother⟩ :=
        branch_of_parts (first.field_lt 9 3) (second.field_lt 9 3) hmnemonic htexts
      · exact .inl (by rw [hmask, hoffset])
      · exact .inr ⟨_, _, by rw [hzero], by rw [hother]⟩
  | add | and | not | ld | ldi | ldr | lea | st | sti | str =>
      rw [hsecond] at hopcode
      left
      simpa [decode, hopcode, hsecond, operandTexts, Register.name_inj, Word.offsetText_inj,
        Operand.text_inj] using htexts
  | jmp =>
      rw [hsecond] at hopcode
      simp only [decode, hopcode, hsecond] at htexts ⊢
      exact .inl (congrArg jmp (jump_of_parts htexts))
  | jsr =>
      rw [hsecond] at hopcode
      simp only [decode, hopcode, hsecond] at hmnemonic htexts ⊢
      left
      cases hnear : first.bit 11 <;> cases hfar : second.bit 11
      · simpa [hnear, hfar, operandTexts, Register.name_inj] using htexts
      · simp [hnear, hfar, mnemonic, opcode, Opcode.mnemonic] at hmnemonic
      · simp [hnear, hfar, mnemonic, opcode, Opcode.mnemonic] at hmnemonic
      · simpa [hnear, hfar, operandTexts, Word.offsetText_inj] using htexts
  | trap =>
      rw [hsecond] at hopcode
      simp only [decode, hopcode, hsecond] at hmnemonic htexts ⊢
      exact .inl (congrArg trap (trap_of_parts hmnemonic htexts))
  | rti | res =>
      rw [hsecond] at hopcode
      simp only [decode, hopcode, hsecond, true_or]

end Instruction

namespace Effect

open Instruction (decode)

theorem execute_legal {instruction : Instruction} (hlegal : instruction.opcode.isIllegal = false)
    (first second : Word) : execute instruction first = execute instruction second := by
  cases instruction with
  | rti | reserved => cases hlegal
  | _ => rfl

theorem execute_illegal {instruction : Instruction} (hillegal : instruction.opcode.isIllegal = true)
    (word : Word) (machine : Machine) :
    execute instruction word machine =
      .done (.error (.illegal instruction.opcode word), machine) := by
  cases instruction with
  | rti | reserved => rfl
  | _ => cases hillegal

/-- Two words of one text do the same to every machine and ask the same of every console. Where
the text is that of an instruction which is refused, the refusals differ in the word alone. -/
theorem text_determines_execution (first second : Word)
    (htext : (decode first).text = (decode second).text) :
    ((Opcode.ofWord first).isIllegal = false → (Opcode.ofWord second).isIllegal = false →
      execute (decode first) first = execute (decode second) second) ∧
    ((Opcode.ofWord first).isIllegal = true ∨ (Opcode.ofWord second).isIllegal = true →
      ∃ opcode, Opcode.ofWord first = opcode ∧ Opcode.ofWord second = opcode ∧
        ∀ machine,
          execute (decode first) first machine =
              .done (.error (.illegal opcode first), machine) ∧
            execute (decode second) second machine =
              .done (.error (.illegal opcode second), machine)) ∧
    (decode first = decode second ∨
      ∃ near far, decode first = .br 0 near ∧ decode second = .br 0 far) := by
  have hdecode := Instruction.decode_of_text htext
  have hopcode := Instruction.opcode_of_mnemonic (Instruction.parts_of_text htext).1
  refine ⟨fun hfirst _ => ?_, fun hillegal => ?_, hdecode⟩
  · obtain hsame | ⟨near, far, hnear, hfar⟩ := hdecode
    · rw [← hsame]
      exact execute_legal (by rwa [Instruction.opcode_decode]) first second
    · funext machine
      rw [hnear, hfar, execute_emptyBranch, execute_emptyBranch]
  · rw [← Instruction.opcode_decode, ← Instruction.opcode_decode second, hopcode,
      or_self] at hillegal
    refine ⟨(decode second).opcode, ?_, ?_, fun machine => ⟨?_, ?_⟩⟩
    · rw [← hopcode, Instruction.opcode_decode]
    · rw [Instruction.opcode_decode]
    · rw [execute_illegal (by rwa [hopcode]), hopcode]
    · exact execute_illegal hillegal second machine

theorem unused_bits_unseen :
    (decode 0x0005).text = (decode 0x01FF).text ∧
      execute (decode 0x0005) 0x0005 = execute (decode 0x01FF) 0x01FF ∧
    (decode 0x8000).text = (decode 0x8ABC).text ∧
      ∃ opcode, Opcode.ofWord 0x8000 = opcode ∧ Opcode.ofWord 0x8ABC = opcode ∧ ∀ machine,
        execute (decode 0x8000) 0x8000 machine =
            .done (.error (.illegal opcode 0x8000), machine) ∧
          execute (decode 0x8ABC) 0x8ABC machine =
            .done (.error (.illegal opcode 0x8ABC), machine) := by
  have hnothing : (decode 0x0005).text = (decode 0x01FF).text := by decide
  have hreturn : (decode 0x8000).text = (decode 0x8ABC).text := by decide
  obtain ⟨hlegal, _⟩ := text_determines_execution 0x0005 0x01FF hnothing
  obtain ⟨_, hillegal, _⟩ := text_determines_execution 0x8000 0x8ABC hreturn
  exact ⟨hnothing, hlegal (by decide) (by decide), hreturn, hillegal (.inl (by decide))⟩

end Effect

end LittleComputer
