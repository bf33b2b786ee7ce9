import TaskRelay.Text.Digits

/-!
# Wake pointers

An address that the submitter of a task supplies and gets back when the task has ended. Nothing is
read through it. Address zero means that no notification is wanted.
-/

namespace TaskRelay

structure WakePointer where
  address : UInt64
  ne_zero : address ≠ 0
deriving DecidableEq

namespace WakePointer

def ofAddress? (a : UInt64) : Option WakePointer :=
  if h : a ≠ 0 then some ⟨a, h⟩ else none

/-- Half the address, if that is not zero. -/
def half? (w : WakePointer) : Option WakePointer := ofAddress? (w.address / 2)

/-- The address in hexadecimal. -/
def text (w : WakePointer) : String := "0x" ++ String.ofList (Text.hex w.address.toNat)

def described (w : WakePointer) : String := "WakePtr(" ++ w.text ++ ")"

/-- A pointer that may be missing, spelled out. -/
def describedOption : Option WakePointer → String
  | none => "None"
  | some w => "Some(" ++ w.described ++ ")"

end WakePointer

end TaskRelay
