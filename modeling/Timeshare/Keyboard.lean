import Timeshare.DriverStatus

/-!
# The keyboard

Keystrokes are kept until the host asks for them.
-/

namespace Timeshare

/-- The keyboard driver: whether it is loaded, and the keystrokes not yet taken. -/
structure Keyboard where
  status : DriverStatus
  buffer : List Char
deriving DecidableEq

namespace Keyboard

def unloaded : Keyboard :=
  ⟨.unloaded, []⟩

def load (keyboard : Keyboard) : Keyboard :=
  { keyboard with status := .loaded }

def press (key : Char) (keyboard : Keyboard) : Keyboard :=
  { keyboard with buffer := keyboard.buffer ++ [key] }

def hasInput (keyboard : Keyboard) : Bool :=
  !keyboard.buffer.isEmpty

/-- The keystrokes kept, and the driver without them. -/
def takeInput (keyboard : Keyboard) : String × Keyboard :=
  (String.ofList keyboard.buffer, { keyboard with buffer := [] })

end Keyboard

end Timeshare
