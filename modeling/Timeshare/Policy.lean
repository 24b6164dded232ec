/-!
# Scheduling policy

When the running process has used up its turn.  Round robin counts the consecutive ticks spent on
one process and asks for a switch when they reach the quantum.  First come, first served never asks.
Priority never asks either: the ready queue is kept in order instead, and a newly admitted process
may take the place of a less urgent one.
-/

namespace Timeshare

inductive Schedule
  | roundRobin
  | firstComeFirstServed
  | priority
deriving DecidableEq

namespace Schedule

def text : Schedule → String
  | roundRobin => "rr"
  | firstComeFirstServed => "fcfs"
  | priority => "priority"

/-- `c` in lower case if it is an upper-case letter of ASCII. -/
def lowerLetter (c : Char) : Char :=
  if 'A' ≤ c ∧ c ≤ 'Z' then Char.ofNat (c.toNat + 32) else c

/-- The algorithm of a name, whatever the case of its letters, or what to say about a name that
none has. -/
def parse (name : String) : Except String Schedule :=
  let lowered := String.ofList (name.toList.map lowerLetter)
  if lowered = "rr" ∨ lowered = "round-robin" then .ok roundRobin
  else if lowered = "fcfs" then .ok firstComeFirstServed
  else if lowered = "priority" then .ok priority
  else .error s!"Unknown schedule {lowered}. Expected rr, fcfs or priority"

end Schedule

/-- The length of a turn unless another is asked for, in ticks. -/
def defaultQuantum : Nat := 6

/-- The scheduling algorithm and the progress of the running turn. -/
structure Policy where
  schedule : Schedule
  quantum : Nat
  /-- The consecutive ticks spent on the process that ran last. -/
  spent : Nat
  /-- The process that ran last, since the last switch. -/
  lastPid : Option Nat
deriving DecidableEq

namespace Policy

/-- The policy before the first turn.  A turn has at least one tick. -/
def start (schedule : Schedule) (quantum : Nat) : Policy where
  schedule := schedule
  quantum := max quantum 1
  spent := 0
  lastPid := none

def didSwitch (policy : Policy) : Policy :=
  { policy with spent := 0, lastPid := none }

/-- The policy under another algorithm, at the beginning of a turn. -/
def setSchedule (schedule : Schedule) (policy : Policy) : Policy :=
  { policy with schedule := schedule }.didSwitch

def setQuantum (quantum : Nat) (policy : Policy) : Policy :=
  { policy with quantum := max quantum 1 }

def ordersByPriority (policy : Policy) : Bool :=
  policy.schedule = .priority

def didCycle (pid : Nat) (policy : Policy) : Policy :=
  { policy with
    spent := if policy.lastPid = some pid then policy.spent + 1 else 1
    lastPid := some pid }

def shouldSwitch (policy : Policy) : Bool :=
  match policy.schedule with
  | .roundRobin => policy.quantum ≤ policy.spent
  | .firstComeFirstServed => false
  | .priority => false

end Policy

end Timeshare
