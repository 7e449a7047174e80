/-!
Refusals of the file system and of the devices behind it.
-/
namespace Tandem.Storage

inductive FaultKind
  | notFound
  | alreadyExists
  | notADirectory
  | isADirectory
  | busy
  | nameTooLong
  | invalidInput
  | invalidData
  | unexpectedEnd
  | other
  deriving DecidableEq, Repr

structure Fault where
  kind : FaultKind
  text : String
  deriving DecidableEq, Repr

namespace Fault

def notFound : Fault := ⟨.notFound, "No such file or directory (os error 2)"⟩
def alreadyExists : Fault := ⟨.alreadyExists, "File exists (os error 17)"⟩
def notADirectory : Fault := ⟨.notADirectory, "Not a directory (os error 20)"⟩
def isADirectory : Fault := ⟨.isADirectory, "Is a directory (os error 21)"⟩
def busy : Fault := ⟨.busy, "Device or resource busy (os error 16)"⟩
def nameTooLong : Fault := ⟨.nameTooLong, "File name too long (os error 36)"⟩
def zeroInName : Fault := ⟨.invalidInput, "file name contained an unexpected NUL byte"⟩

def message (f : Fault) : String := f.text

end Fault

end Tandem.Storage
