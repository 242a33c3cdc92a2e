import LittleComputer.Action

namespace LittleComputer

/-! Program images

An image is a sequence of words, high byte first. Its first word says where the others
go. -/

structure Image where
  origin : Word
  words : List Word
  hasOddByte : Bool
  deriving DecidableEq

structure Placement where
  origin : Word
  stored : Nat
  discarded : Nat
  deriving DecidableEq

inductive ImageError where
  | unreadableFile (path reason : String)
  | unreadableStream (reason : String)
  | noOrigin
  deriving DecidableEq

namespace ImageError

def message : ImageError → String
  | unreadableFile path reason => "cannot read " ++ path ++ ": " ++ reason
  | unreadableStream reason => "cannot read image: " ++ reason
  | noOrigin => "image has no origin word"

def reason? : ImageError → Option String
  | unreadableFile _ reason => some reason
  | unreadableStream reason => some reason
  | noOrigin => none

end ImageError

namespace Image

def wordsOfBytes : List Byte → List Word
  | high :: low :: bytes => Word.ofBytes high low :: wordsOfBytes bytes
  | [_] => []
  | [] => []

def ofBytes? : List Byte → Option Image
  | high :: low :: bytes => some {
      origin := Word.ofBytes high low
      words := wordsOfBytes bytes
      hasOddByte := bytes.length % 2 == 1 }
  | _ => none

def capacity (image : Image) : Nat :=
  Memory.size - image.origin.toNat

/-- The words that fit. No image wraps to address zero. -/
def storedWords (image : Image) : List Word :=
  image.words.take image.capacity

def placement (image : Image) : Placement where
  origin := image.origin
  stored := image.storedWords.length
  discarded := image.words.length - image.storedWords.length

def events (image : Image) : List Event :=
  (if image.hasOddByte then [.imageOddByte image.origin] else []) ++
    (if 0 < image.placement.discarded then
      [.imageCut image.origin image.placement.discarded] else []) ++
    [.imageStored image.origin image.placement.stored]

end Image

namespace Memory

def storeImage (memory : Memory) (image : Image) : Memory :=
  memory.writeWords image.origin image.storedWords

def loadBytes (bytes : List Byte) : Action Memory ImageError Placement := fun memory =>
  match Image.ofBytes? bytes with
  | none => .done (.error .noOrigin, memory)
  | some image =>
      Dialogue.notes image.events (.done (.ok image.placement, memory.storeImage image))

def loadFile (path : String) (contents : Except String (List Byte)) :
    Action Memory ImageError Placement :=
  match contents with
  | .error reason => Action.fail (.unreadableFile path reason)
  | .ok bytes => do
      let placement ← loadBytes bytes
      Action.note (.imageFileRead path)
      return placement

end Memory

end LittleComputer
