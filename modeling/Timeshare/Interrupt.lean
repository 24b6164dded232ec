import Timeshare.FileSystem.Request

/-!
# Interrupts

Everything that happens to the kernel from outside or from the processor arrives as an interrupt.
Pending interrupts wait in a queue and are handled in the order of their arrival.
-/

namespace Timeshare

inductive Interrupt
  | timer
  | keyboard (key : Char)
  | loadProgram (program : String) (priority : Option Nat)
  | runProgram (pid : Nat)
  /-- A process has reached its end. -/
  | breakProgram (pid : Nat)
  /-- A process has faulted. -/
  | errProgram (pid : Nat)
  /-- Drop the resident processes from memory. -/
  | requestClearMemory
  | contextSwitch
  | runAllPrograms
  | killProgram (pid : Nat)
  | fileSystem (request : FileRequest)
  /-- An interrupt of a number nothing is known about. -/
  | unrecognized (number : Nat)
deriving DecidableEq

namespace Interrupt

def number : Interrupt → Nat
  | timer => 0
  | keyboard _ => 1
  | loadProgram _ _ => 2
  | runProgram _ => 3
  | breakProgram _ => 4
  | errProgram _ => 5
  | requestClearMemory => 6
  | contextSwitch => 7
  | runAllPrograms => 8
  | killProgram _ => 9
  | fileSystem _ => 10
  | unrecognized number => number

def optionText : Option Nat → String
  | some number => s!"Some({number})"
  | none => "None"

def text : Interrupt → String
  | timer => "TIMER"
  | keyboard key => s!"KEYBOARD({Text.quoteCharacter key})"
  | loadProgram _ priority => s!"LOAD_PROGRAM(priority={optionText priority})"
  | runProgram pid => s!"RUN_PROGRAM({pid})"
  | breakProgram pid => s!"BREAK_PROGRAM({pid})"
  | errProgram pid => s!"ERR_PROGRAM({pid})"
  | requestClearMemory => "REQUEST_CLEAR_MEMORY"
  | contextSwitch => "CONTEXT_SWITCH"
  | runAllPrograms => "RUN_ALL_PROGRAMS"
  | killProgram pid => s!"KILL_PROGRAM({pid})"
  | fileSystem request => s!"FILE_SYSTEM({request.text})"
  | unrecognized number => s!"UNRECOGNIZED({number})"

end Interrupt

/-- The pending interrupts, the next one first. -/
abbrev InterruptQueue : Type :=
  List Interrupt

namespace InterruptQueue

def enqueue (interrupt : Interrupt) (queue : InterruptQueue) : InterruptQueue :=
  queue ++ [interrupt]

def dequeue? : InterruptQueue → Option (Interrupt × InterruptQueue)
  | [] => none
  | next :: rest => some (next, rest)

end InterruptQueue

end Timeshare
