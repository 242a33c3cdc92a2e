import LittleComputer.Text.Numeral

namespace LittleComputer

/-! Failures of the operating system -/

structure SystemError where
  description : String
  code : Option Nat
  deriving DecidableEq

namespace SystemError

def noSuchFile : SystemError := ⟨"No such file or directory", some 2⟩

def notDirectory : SystemError := ⟨"Not a directory", some 20⟩

def isDirectory : SystemError := ⟨"Is a directory", some 21⟩

def noSpace : SystemError := ⟨"No space left on device", some 28⟩

def nameTooLong : SystemError := ⟨"File name too long", some 36⟩

def nulInName : SystemError := ⟨"file name contained an unexpected NUL byte", none⟩

def text (error : SystemError) : String :=
  error.description ++
    error.code.elim "" fun code => " (os error " ++ Numeral.decimal code ++ ")"

end SystemError

end LittleComputer
