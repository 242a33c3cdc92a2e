import LittleComputer.Word

namespace LittleComputer

/-! Trap services -/

inductive TrapService where
  | getc
  | out
  | puts
  | input
  | putsp
  | halt
  deriving DecidableEq

namespace TrapService

def vector : TrapService → Byte
  | getc => 0x20
  | out => 0x21
  | puts => 0x22
  | input => 0x23
  | putsp => 0x24
  | halt => 0x25

def name : TrapService → String
  | getc => "GETC"
  | out => "OUT"
  | puts => "PUTS"
  | input => "IN"
  | putsp => "PUTSP"
  | halt => "HALT"

def all : List TrapService :=
  [getc, out, puts, input, putsp, halt]

theorem mem_all (service : TrapService) : service ∈ all := by
  cases service <;> decide

def ofVector? (vector : Byte) : Option TrapService :=
  all.find? (fun service => service.vector == vector)

theorem name_inj {left right : TrapService} : left.name = right.name ↔ left = right := by
  cases left <;> cases right <;> decide

@[simp] theorem ofVector?_vector (service : TrapService) :
    ofVector? service.vector = some service := by
  cases service <;> decide

theorem ofVector?_eq_some_iff {vector : Byte} {service : TrapService} :
    ofVector? vector = some service ↔ service.vector = vector := by
  constructor
  · intro hservice
    unfold ofVector? at hservice
    have hvector := List.find?_some hservice
    exact eq_of_beq hvector
  · rintro rfl
    exact ofVector?_vector service

def prompt : String := "Enter a character: "

def banner : String := "Shutdown\n"

end TrapService

end LittleComputer
