import LittleComputer.Word

namespace LittleComputer

/-! The layout of the address space -/

inductive Region where
  | trapTable
  | interruptTable
  | operatingSystem
  | user
  | devices
  deriving DecidableEq

namespace Region

def first : Region → Word
  | trapTable => 0x0000
  | interruptTable => 0x0100
  | operatingSystem => 0x0200
  | user => 0x3000
  | devices => 0xFE00

def last : Region → Word
  | trapTable => 0x00FF
  | interruptTable => 0x01FF
  | operatingSystem => 0x2FFF
  | user => 0xFDFF
  | devices => 0xFFFF

def contains (region : Region) (address : Word) : Bool :=
  region.first ≤ address && address ≤ region.last

def ofAddress (address : Word) : Region :=
  if address ≤ trapTable.last then trapTable
  else if address ≤ interruptTable.last then interruptTable
  else if address ≤ operatingSystem.last then operatingSystem
  else if address ≤ user.last then user
  else devices

def name : Region → String
  | trapTable => "TrapTable"
  | interruptTable => "InterruptTable"
  | operatingSystem => "OperatingSystem"
  | user => "User"
  | devices => "Devices"

def all : List Region :=
  [trapTable, interruptTable, operatingSystem, user, devices]

end Region

/-! Device registers -/

inductive DeviceCell where
  | keyboardStatus
  | keyboardData
  deriving DecidableEq

namespace DeviceCell

def address : DeviceCell → Word
  | keyboardStatus => 0xFE00
  | keyboardData => 0xFE02

def all : List DeviceCell :=
  [keyboardStatus, keyboardData]

def ofAddress? (address : Word) : Option DeviceCell :=
  all.find? (fun device => device.address == address)

end DeviceCell

end LittleComputer
