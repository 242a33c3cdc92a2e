import LittleComputer.CommandLine.Number

namespace LittleComputer

namespace Number

/-! What is read as an address

The reader goes from the left and keeps below a bound. The grammar it is compared with knows
neither an order of reading nor a bound. -/

def lowerDigits : List Char :=
  "0123456789abcdef".toList

def upperDigits : List Char :=
  "0123456789ABCDEF".toList

def HexDigit (digit : Char) (low : Nat) : Prop :=
  lowerDigits[low]? = some digit ∨ upperDigits[low]? = some digit

instance (digit : Char) (low : Nat) : Decidable (HexDigit digit low) :=
  inferInstanceAs (Decidable (_ ∨ _))

inductive HexDigits : List Char → Nat → Prop where
  | nil : HexDigits [] 0
  | snoc {digits : List Char} {high : Nat} {digit : Char} {low : Nat} :
      HexDigits digits high → HexDigit digit low →
        HexDigits (digits ++ [digit]) (high * 16 + low)

def hexMarks : List (List Char) :=
  [[], ['0', 'x'], ['0', 'X'], ['x'], ['X']]

/-- At most one mark, the sign, and at least one digit. -/
def Written (sign : List Char) (text : String) (value : Nat) : Prop :=
  ∃ mark ∈ hexMarks, ∃ digits, digits ≠ [] ∧
    text.toList = mark ++ (sign ++ digits) ∧ HexDigits digits value

/-! Digits -/

theorem HexDigit.lt {digit : Char} {low : Nat} (hdigit : HexDigit digit low) : low < 16 := by
  rcases hdigit with hlower | hupper
  · exact (List.getElem?_eq_some_iff.mp hlower).1
  · exact (List.getElem?_eq_some_iff.mp hupper).1

theorem digitValue?_of_hexDigit {digit : Char} {low : Nat} (hdigit : HexDigit digit low) :
    digitValue? 16 digit = some low := by
  have hvalues : ∀ digits ∈ [lowerDigits, upperDigits],
      digits.map (digitValue? 16) = (List.range 16).map some := by decide
  have hread {digits : List Char} (hmem : digits ∈ [lowerDigits, upperDigits])
      (hplace : digits[low]? = some digit) : digitValue? 16 digit = some low := by
    have hvalue := congrArg (·[low]?) (hvalues digits hmem)
    simpa [hplace, hdigit.lt] using hvalue
  rcases hdigit with hlower | hupper
  · exact hread (by decide) hlower
  · exact hread (by decide) hupper

theorem hexDigit_of_digitValue? {digit : Char} {low : Nat}
    (hvalue : digitValue? 16 digit = some low) : HexDigit digit low := by
  have hascii : digit.toNat < 128 := by
    have hbelow : ∀ {last : Char}, digit ≤ last → digit.toNat ≤ last.toNat := id
    simp only [digitValue?] at hvalue
    split at hvalue
    next hdecimal => exact Nat.lt_of_le_of_lt (hbelow hdecimal.2) (by decide)
    split at hvalue
    next hlower => exact Nat.lt_of_le_of_lt (hbelow hlower.2) (by decide)
    split at hvalue
    next hupper => exact Nat.lt_of_le_of_lt (hbelow hupper.2) (by decide)
    cases hvalue
  have hvalues : ∀ code : Fin 128, ∀ low ∈ digitValue? 16 (Char.ofNat code),
      HexDigit (Char.ofNat code) low := by decide
  rw [← Char.ofNat_toNat digit] at hvalue ⊢
  exact hvalues ⟨digit.toNat, hascii⟩ low hvalue

theorem HexDigits.exists_of_mem {digits : List Char} {value : Nat}
    (hdigits : HexDigits digits value) {digit : Char} (hmem : digit ∈ digits) :
    ∃ low, HexDigit digit low := by
  induction hdigits with
  | nil => cases hmem
  | snoc _ hlast ih =>
      rcases List.mem_append.mp hmem with hbefore | hdigit
      · exact ih hbefore
      · exact ⟨_, List.mem_singleton.mp hdigit ▸ hlast⟩

theorem HexDigits.notMem {digits : List Char} {value : Nat} (hdigits : HexDigits digits value)
    (char : Char) (hchar : ∀ low : Fin 16, ¬ HexDigit char low) : char ∉ digits := by
  intro hmem
  obtain ⟨low, hlow⟩ := hdigits.exists_of_mem hmem
  exact hchar ⟨low, hlow.lt⟩ hlow

/-! Reading digits -/

theorem parseDigits_append (radix bound value : Nat) (first second : List Char) :
    parseDigits radix bound value (first ++ second) =
      (parseDigits radix bound value first).bind
        fun value => parseDigits radix bound value second := by
  induction first generalizing value with
  | nil => rfl
  | cons digit first ih =>
      simp only [List.cons_append, parseDigits]
      cases digitValue? radix digit with
      | none => rfl
      | some low =>
          dsimp only
          split
          · exact ih _
          · rfl

theorem parseDigits_of_hexDigits {digits : List Char} {value bound : Nat}
    (hdigits : HexDigits digits value) (hbound : 0 < bound) :
    parseDigits 16 bound 0 digits = if value < bound then .ok value else .error .tooLarge := by
  induction hdigits with
  | nil => rw [if_pos hbound, parseDigits]
  | snoc _ hlast ih =>
      rw [parseDigits_append, ih]
      split
      · simp only [Except.bind, parseDigits, digitValue?_of_hexDigit hlast]
      · rw [if_neg (by omega)]
        rfl

theorem hexDigits_of_parseDigits {digits before : List Char} {value bound start : Nat}
    (hbefore : HexDigits before start)
    (hparse : parseDigits 16 bound start digits = .ok value) :
    HexDigits (before ++ digits) value := by
  induction digits generalizing before start with
  | nil =>
      cases hparse
      simpa using hbefore
  | cons digit digits ih =>
      rw [parseDigits] at hparse
      cases hvalue : digitValue? 16 digit with
      | none => simp [hvalue] at hparse
      | some low =>
          simp only [hvalue] at hparse
          split at hparse
          · have hsnoc := hbefore.snoc (hexDigit_of_digitValue? hvalue)
            simpa using ih hsnoc hparse
          · cases hparse

/-! Marks and signs -/

theorem dropHexMark_append (text : List Char) :
    ∃ mark ∈ hexMarks, text = mark ++ dropHexMark text := by
  unfold dropHexMark
  split
  · exact ⟨['0', 'x'], by decide, rfl⟩
  · exact ⟨['0', 'X'], by decide, rfl⟩
  · exact ⟨['x'], by decide, rfl⟩
  · exact ⟨['X'], by decide, rfl⟩
  · exact ⟨[], by decide, rfl⟩

theorem dropHexMark_marked {mark text : List Char} (hmark : mark ∈ hexMarks)
    (hlower : 'x' ∉ text) (hupper : 'X' ∉ text) : dropHexMark (mark ++ text) = text := by
  simp only [hexMarks, List.mem_cons, List.not_mem_nil, or_false] at hmark
  rcases hmark with rfl | rfl | rfl | rfl | rfl
  · rw [List.nil_append]
    unfold dropHexMark
    split <;> simp_all
  all_goals rfl

theorem parse_signed {sign digits : List Char} {radix bound : Nat}
    (hsign : sign = [] ∨ sign = ['+']) (hdigits : digits ≠ []) (hplus : '+' ∉ digits) :
    parse radix bound (sign ++ digits) = parseDigits radix bound 0 digits := by
  obtain ⟨digit, digits, rfl⟩ := List.exists_cons_of_ne_nil hdigits
  rcases hsign with rfl | rfl
  · rw [List.nil_append]
    unfold parse
    split <;> simp_all
  · rfl

theorem exists_sign_of_parse {text : List Char} {radix bound value : Nat}
    (hparse : parse radix bound text = .ok value) :
    ∃ sign, (sign = [] ∨ sign = ['+']) ∧ ∃ digits, digits ≠ [] ∧ text = sign ++ digits ∧
      parseDigits radix bound 0 digits = .ok value := by
  unfold parse at hparse
  split at hparse
  · cases hparse
  · cases hparse
  · next digits hdigits =>
      exact ⟨['+'], .inr rfl, digits, fun hnil => hdigits (by rw [hnil]), rfl, hparse⟩
  · next hnil _ _ => exact ⟨[], .inl rfl, text, fun h => hnil h, rfl, hparse⟩

/-! Addresses -/

theorem notMem_signed {sign digits : List Char} {char : Char}
    (hsign : sign = [] ∨ sign = ['+']) (hchar : char ≠ '+') (hdigits : char ∉ digits) :
    char ∉ sign ++ digits := by
  rcases hsign with rfl | rfl
  · exact hdigits
  · simp [hchar, hdigits]

theorem readAddress_of_written {sign : List Char} {text : String} {value : Nat}
    (hsign : sign = [] ∨ sign = ['+']) (hwritten : Written sign text value) :
    readAddress text =
      if value < UInt16.size then .ok (.ofNat value) else .error .tooLarge := by
  obtain ⟨mark, hmark, digits, hdigits, htext, hvalue⟩ := hwritten
  have hlower := notMem_signed hsign (by decide) (hvalue.notMem 'x' (by decide))
  have hupper := notMem_signed hsign (by decide) (hvalue.notMem 'X' (by decide))
  rw [readAddress, htext, dropHexMark_marked hmark hlower hupper,
    parse_signed hsign hdigits (hvalue.notMem '+' (by decide)),
    parseDigits_of_hexDigits hvalue (by decide)]
  split <;> rfl

theorem written_of_readAddress {text : String} {address : Word}
    (hread : readAddress text = .ok address) :
    ∃ sign, (sign = [] ∨ sign = ['+']) ∧ Written sign text address.toNat := by
  obtain ⟨mark, hmark, htext⟩ := dropHexMark_append text.toList
  rw [readAddress] at hread
  cases hparse : parse 16 UInt16.size (dropHexMark text.toList) with
  | error error =>
      rw [hparse] at hread
      cases hread
  | ok value =>
      rw [hparse] at hread
      cases hread
      obtain ⟨sign, hsign, digits, hdigits, hdropped, hvalue⟩ := exists_sign_of_parse hparse
      have hspelt : HexDigits digits value := hexDigits_of_parseDigits .nil hvalue
      have hbound : value < UInt16.size := by
        rw [parseDigits_of_hexDigits hspelt (by decide)] at hvalue
        split at hvalue
        · assumption
        · cases hvalue
      refine ⟨sign, hsign, mark, hmark, digits, hdigits, ?_, ?_⟩
      · rw [← hdropped]
        exact htext
      · rw [UInt16.toNat_ofNat_of_lt' hbound]
        exact hspelt

theorem readAddress_eq_ok {sign : List Char} {text : String} {address : Word}
    (hsign : sign = [] ∨ sign = ['+']) (hwritten : Written sign text address.toNat) :
    readAddress text = .ok address := by
  rw [readAddress_of_written hsign hwritten, if_pos address.toNat_lt, UInt16.ofNat_toNat]

/-- The texts that are read as an address are the hexadecimal numbers below the bound, with at most
one mark before them. A plus may stand between the mark and the digits, and this is all that may. -/
theorem address_grammar (text : String) :
    (∀ address, readAddress text = .ok address ↔
      Written [] text address.toNat ∨ Written ['+'] text address.toNat) ∧
    (∀ value, Written [] text value ∨ Written ['+'] text value → 0xFFFF < value →
      readAddress text = .error .tooLarge) ∧
    ('+' ∉ text.toList → ∀ address, readAddress text = .ok address ↔
      Written [] text address.toNat) := by
  have hall : ∀ address, readAddress text = .ok address ↔
      Written [] text address.toNat ∨ Written ['+'] text address.toNat := by
    intro address
    constructor
    · intro hread
      obtain ⟨sign, rfl | rfl, hwritten⟩ := written_of_readAddress hread
      · exact .inl hwritten
      · exact .inr hwritten
    · rintro (hplain | hplus)
      · exact readAddress_eq_ok (.inl rfl) hplain
      · exact readAddress_eq_ok (.inr rfl) hplus
  refine ⟨hall, ?_, ?_⟩
  · rintro value (hplain | hplus) hlarge
    · rw [readAddress_of_written (.inl rfl) hplain, if_neg (Nat.not_lt.mpr hlarge)]
    · rw [readAddress_of_written (.inr rfl) hplus, if_neg (Nat.not_lt.mpr hlarge)]
  · intro hunsigned address
    rw [hall]
    constructor
    · rintro (hplain | ⟨mark, _, digits, _, htext, _⟩)
      · exact hplain
      · exact absurd (by simp [htext]) hunsigned
    · exact .inl

theorem address_fe00 :
    '+' ∉ "0Xfe00".toList ∧ readAddress "0Xfe00" = .ok 0xFE00 ∧ Written [] "0Xfe00" 0xFE00 ∧
      Written [] "00010000" 0x10000 ∧ readAddress "00010000" = .error .tooLarge := by
  have hunsigned : '+' ∉ "0Xfe00".toList := by decide
  have hread : readAddress "0Xfe00" = .ok 0xFE00 := rfl
  have hlarge : Written [] "00010000" 0x10000 := by
    let digits := ['0', '0', '0', '1', '0', '0', '0', '0']
    have hparse : parseDigits 16 0x10001 0 digits = .ok 0x10000 := rfl
    exact ⟨[], by decide, digits, by decide, rfl, hexDigits_of_parseDigits .nil hparse⟩
  refine ⟨hunsigned, hread, ((address_grammar "0Xfe00").2.2 hunsigned 0xFE00).mp hread, hlarge, ?_⟩
  exact (address_grammar "00010000").2.1 0x10000 (.inl hlarge) (by decide)

theorem address_with_plus :
    readAddress "x+3000" = .ok 0x3000 ∧ ∀ value, ¬ Written [] "x+3000" value := by
  refine ⟨rfl, fun value ⟨mark, hmark, digits, _, htext, hvalue⟩ => ?_⟩
  have hplus : '+' ∈ mark ++ digits := htext ▸ (by decide : '+' ∈ "x+3000".toList)
  have hunmarked : ∀ mark ∈ hexMarks, '+' ∉ mark := by decide
  exact List.not_mem_append (hunmarked mark hmark) (hvalue.notMem '+' (by decide)) hplus

end Number

end LittleComputer
