import LittleComputer.Image

namespace LittleComputer

/-! Images that arrive in pieces -/

inductive Delivery where
  /-- Some more bytes. No bytes mean the end. -/
  | bytes (piece : List Byte)
  /-- Nothing yet: the call is to be repeated. -/
  | interrupted
  | failed (reason : String)
  deriving DecidableEq

namespace Delivery

def gather : List Delivery → Except String (List Byte)
  | [] => .ok []
  | .bytes [] :: _ => .ok []
  | .bytes piece :: deliveries => (gather deliveries).map (piece ++ ·)
  | .interrupted :: deliveries => gather deliveries
  | .failed reason :: _ => .error reason

structure Trouble where
  /-- The position from which one call is interrupted. -/
  interruptAt : Option Nat := none
  failAt : Option (Nat × String) := none

def Trouble.interruptsAt (trouble : Trouble) (position : Nat) : Bool :=
  trouble.interruptAt.any (· ≤ position)

def Trouble.failureAt? (trouble : Trouble) (position : Nat) : Option String :=
  trouble.failAt.bind fun (first, reason) =>
    if first ≤ position then some reason else none

/-- The calls of a reader that gives at most `size` bytes at a time. -/
def paced (size : Nat) (trouble : Trouble) (position : Nat) (bytes : List Byte) :
    List Delivery :=
  if trouble.interruptsAt position then
    .interrupted :: paced size { trouble with interruptAt := none } position bytes
  else
    match trouble.failureAt? position with
    | some reason => [.failed reason]
    | none =>
        match size, bytes with
        | size + 1, byte :: bytes =>
            let piece := byte :: bytes.take size
            .bytes piece ::
              paced (size + 1) trouble (position + piece.length) (bytes.drop size)
        | _, _ => [.bytes []]
  termination_by (bytes.length, trouble.interruptAt.isSome.toNat)
  decreasing_by
    · apply Prod.Lex.right
      cases hinterrupt : trouble.interruptAt with
      | none => simp_all [Trouble.interruptsAt]
      | some first => exact Nat.zero_lt_one
    · apply Prod.Lex.left
      simp only [List.length_drop, List.length_cons]
      omega

end Delivery

namespace Memory

/-- Reads the stream to its end before anything is stored. -/
def loadStream (deliveries : List Delivery) : Action Memory ImageError Placement :=
  match Delivery.gather deliveries with
  | .error reason => Action.fail (.unreadableStream reason)
  | .ok bytes => loadBytes bytes

end Memory

end LittleComputer
