namespace LittleComputer

/-! Parts of a text. Positions in it count bytes. -/

namespace Text

def size : List Char → Nat
  | [] => 0
  | char :: rest => char.utf8Size + size rest

/-- Cuts the text in two. No cut goes through a character or lies behind the end. -/
def splitAt? : (position : Nat) → List Char → Option (List Char × List Char)
  | 0, chars => some ([], chars)
  | _ + 1, [] => none
  | position + 1, char :: rest =>
      if char.utf8Size ≤ position + 1 then
        (splitAt? (position + 1 - char.utf8Size) rest).map fun (front, back) =>
          (char :: front, back)
      else
        none

def slice? (start stop : Nat) (chars : List Char) : Option (List Char) := do
  let (_, back) ← splitAt? start chars
  let (piece, _) ← splitAt? (stop - start) back
  some piece

end Text

end LittleComputer
