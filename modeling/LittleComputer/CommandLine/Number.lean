import LittleComputer.Text.Number
import LittleComputer.Word

namespace LittleComputer

/-! Numbers on the command line -/

namespace Number

def dropHexMark : List Char → List Char
  | '0' :: 'x' :: digits => digits
  | '0' :: 'X' :: digits => digits
  | 'x' :: digits => digits
  | 'X' :: digits => digits
  | digits => digits

def readAddress (text : String) : Except NumberError Word :=
  (parse 16 UInt16.size (dropHexMark text.toList)).map UInt16.ofNat

def readLimit (text : String) : Except NumberError UInt64 :=
  (parse 10 UInt64.size text.toList).map UInt64.ofNat

end Number

end LittleComputer
