import Timeshare.Proofs.System.Execution

/-!
# Runs of the kernel

After it was booted the kernel does what the host tells it to: it takes interrupts, gives pulses of
its clock, and changes its policy.  `Kernel.Run` are the states that can be reached, with the
programs that were admitted and the texts that programs have printed on the way.

`Kernel.obey_spec` says once what a command can do: it carries the processes over, admits a program,
or runs a cycle.  It also keeps the kernel in order.
-/

namespace Timeshare

/-- What the host can tell a booted kernel. -/
inductive Command
  | enqueue (interrupt : Interrupt)
  | pulse
  | setSchedule (schedule : Schedule)
  | setQuantum (quantum : Nat)

namespace Kernel

/-- The kernel after a command. -/
def obey (command : Command) (kernel : Kernel) : Kernel :=
  match command with
  | .enqueue interrupt => kernel.enqueue interrupt
  | .pulse => kernel.pulse.value
  | .setSchedule schedule => (kernel.setSchedule schedule).value
  | .setQuantum quantum => kernel.setQuantum quantum

/-- The kernel of a machine after it was booted. -/
def booted (config : Config) (format : Bool) : Kernel :=
  ((create config).bootstrap format).value

/-- The interrupt that a command makes the kernel handle. -/
def handled? (command : Command) (kernel : Kernel) : Option Interrupt :=
  match command with
  | .pulse => if kernel.running then kernel.interrupts.head? else none
  | _ => none

/-- The cycle that a command makes the processor run. -/
def cycle? (command : Command) (kernel : Kernel) : Option Cycle :=
  match command with
  | .pulse =>
    if kernel.running && kernel.interrupts.isEmpty && !kernel.system.isIdle then
      match kernel.system.dispatch.value with
      | (.ok (), system) => system.executing.map fun process =>
        (system.cpu.setExecuting true).cycle process system.memory
      | (.error _, _) => none
    else none
  | _ => none

end Kernel

/-- The number and the bytes of the program that an interrupt makes the system admit. -/
def System.admission? (interrupt : Interrupt) (system : System) : Option (Nat × List UInt8) :=
  match interrupt with
  | .loadProgram text priority =>
    match ProgramText.parse text with
    | .error _ => none
    | .ok program =>
      match (system.enroll program (priority.getD defaultPriority)).value.1 with
      | .error _ => none
      | .ok pid => some (pid, program)
  | _ => none

namespace Kernel

/-- The number and the bytes of the program that a command makes the kernel admit. -/
def admitted? (command : Command) (kernel : Kernel) : Option (Nat × List UInt8) :=
  (kernel.handled? command).bind kernel.system.admission?

/-- The text that a command makes a process print, and the number of the process. -/
def printed? (command : Command) (kernel : Kernel) : Option (Nat × String) :=
  (kernel.cycle? command).bind fun cycle => cycle.printed.map fun text => (cycle.process.pid, text)

/-- A command does not format the disk while some process lies there. -/
def Careful (command : Command) (kernel : Kernel) : Prop :=
  kernel.handled? command = some (.fileSystem .format) →
    ∀ process ∈ kernel.system.processes, process.isOnDisk = false

instance (command : Command) (kernel : Kernel) : Decidable (kernel.Careful command) :=
  inferInstanceAs (Decidable (_ → _))

/-- The kernels that are reached from booting, with the programs admitted and the texts printed. -/
inductive Run (config : Config) : Kernel → List (Nat × List UInt8) → List (Nat × String) → Prop
  | boot (format : Bool) : Run config (booted config format) [] []
  | obey {kernel : Kernel} {admitted : List (Nat × List UInt8)} {printed : List (Nat × String)}
      (command : Command) (run : Run config kernel admitted printed)
      (careful : kernel.Careful command) :
      Run config (kernel.obey command) (admitted ++ (kernel.admitted? command).toList)
        (printed ++ (kernel.printed? command).toList)

/-- The kernel after some commands, with the programs admitted and the texts printed before and
since; `none` if some command is not careful. -/
def follow : List Command → Kernel → List (Nat × List UInt8) → List (Nat × String) →
    Option (Kernel × List (Nat × List UInt8) × List (Nat × String))
  | [], kernel, admitted, printed => some (kernel, admitted, printed)
  | command :: rest, kernel, admitted, printed =>
    if kernel.Careful command then
      follow rest (kernel.obey command) (admitted ++ (kernel.admitted? command).toList)
        (printed ++ (kernel.printed? command).toList)
    else none

theorem Run.follow {config : Config} {commands : List Command} {kernel next : Kernel}
    {admitted since : List (Nat × List UInt8)} {printed shown : List (Nat × String)}
    (run : Run config kernel admitted printed)
    (followed : Kernel.follow commands kernel admitted printed = some (next, since, shown)) :
    Run config next since shown := by
  induction commands generalizing kernel admitted printed with
  | nil =>
      cases followed
      exact run
  | cons command rest hypothesis =>
      rw [Kernel.follow] at followed
      split at followed
      · rename_i careful
        exact hypothesis (run.obey command careful) followed
      · cases followed

end Kernel

/-! ## Handling interrupts -/

/-- The process whose end the interrupt reports. -/
def Interrupt.ended? : Interrupt → Option Nat
  | breakProgram pid => some pid
  | errProgram pid => some pid
  | _ => none

namespace Cycle

variable {cycle : Cycle}

theorem completed_iff : cycle.outcome = .completed ↔ cycle.raised = none := by
  unfold raised
  split
  · simp [*]
  · simp [*]
  · simp [*]

/-- What a cycle raises reports the end of its process. -/
theorem ended?_of_raised {interrupt : Interrupt} (raises : cycle.raised = some interrupt) :
    interrupt.ended? = some cycle.process.pid := by
  unfold raised at raises
  split at raises
  · cases raises
  · cases raises
    rfl
  · cases raises
    rfl

end Cycle

namespace System

variable {system next : System}

theorem Settled.of_eq (settled : system.Settled) (executing : next.executing = system.executing)
    (registers : next.cpu.registers = system.cpu.registers)
    (last : next.cpu.lastInstruction = system.cpu.lastInstruction) : next.Settled := by
  intro process executes
  rw [registers, last]
  exact settled process (executing ▸ executes)

theorem Settled.of_idle (idle : next.executing = none) : next.Settled := by
  intro process executes
  simp [idle] at executes

/-- What handling an interrupt does to the system. -/
structure Handles (system : System) (interrupt : Interrupt) (next : System) : Prop where
  sound : next.Sound
  settled : next.Settled
  ended : ∀ pid, interrupt.ended? = some pid → pid ∉ next.processes.map Process.pid
  carries : system.admission? interrupt = none → system.Carries next
  admits : ∀ pid program, system.admission? interrupt = some (pid, program) →
    pid = system.nextPid ∧ system.Admits next program

theorem Handles.of_carries {interrupt : Interrupt} (sound : next.Sound) (settled : next.Settled)
    (carries : system.Carries next) (endless : interrupt.ended? = none)
    (none_admitted : system.admission? interrupt = none) : system.Handles interrupt next where
  sound := sound
  settled := settled
  ended := by simp [endless]
  carries _ := carries
  admits := by simp [none_admitted]

end System

namespace Kernel

variable {kernel : Kernel}

@[simp]
theorem system_say (message : String) (kernel : Kernel) :
    (kernel.say message).system = kernel.system := rfl

@[simp]
theorem system_enqueue (interrupt : Interrupt) (kernel : Kernel) :
    (kernel.enqueue interrupt).system = kernel.system := rfl

@[simp]
theorem system_reportFinished (pid : Nat) (kernel : Kernel) :
    (kernel.reportFinished pid).system = kernel.system := by
  unfold reportFinished
  split
  · rfl
  · rfl

@[simp]
theorem system_dispatchFailed (failure : DispatchFailure) (kernel : Kernel) :
    (kernel.dispatchFailed failure).system = kernel.system := by
  simp [dispatchFailed]

/-- Waking the processor changes neither its registers nor the processes. -/
theorem system_didActivate (kernel : Kernel) : kernel.didActivate.value.system =
    { kernel.system with cpu := kernel.system.cpu.setExecuting true } := by
  unfold didActivate
  dsimp only
  split
  · rfl
  · rfl

theorem loadProgram_handles (sound : kernel.system.Sound) (settled : kernel.system.Settled)
    (text : String) (priority : Option Nat) :
    kernel.system.Handles (.loadProgram text priority)
      (kernel.loadProgram text priority).value.system := by
  unfold loadProgram
  cases parsed : ProgramText.parse text with
  | error error =>
      exact .of_carries sound settled (.refl _) rfl (by simp [System.admission?, parsed])
  | ok program =>
      rcases System.admit_spec sound program (priority.getD defaultPriority) with
        ⟨error, refused⟩ | ⟨next, enrolled, soundNext, admits, executing, cpu⟩
      · have none_admitted : kernel.system.admission? (.loadProgram text priority) = none := by
          simp [System.admission?, parsed, refused]
        simpa [refused] using System.Handles.of_carries sound settled (.refl _) rfl none_admitted
      · have one_admitted : kernel.system.admission? (.loadProgram text priority) =
            some (kernel.system.nextPid, program) := by
          simp [System.admission?, parsed, enrolled]
        have handles : kernel.system.Handles (.loadProgram text priority) next := by
          refine ⟨soundNext, settled.of_eq executing (by rw [cpu]) (by rw [cpu]), ?_, ?_, ?_⟩
          · simp [Interrupt.ended?]
          · simp [one_admitted]
          · intro pid bytes admitted
            simp only [one_admitted, Option.some.injEq, Prod.mk.injEq] at admitted
            rcases admitted with ⟨rfl, rfl⟩
            exact ⟨rfl, admits⟩
        simpa [enrolled] using handles

/-- What queueing processes for execution does, once the queues are made. -/
theorem didActivate_handles {interrupt : Interrupt} {system : System} {message : String}
    (sound : system.Sound) (settled : kernel.system.Settled) (carries : kernel.system.Carries system)
    (executing : system.executing = kernel.system.executing) (cpu : system.cpu = kernel.system.cpu)
    (endless : interrupt.ended? = none)
    (none_admitted : kernel.system.admission? interrupt = none) :
    kernel.system.Handles interrupt
      ({ kernel with system }.say message).didActivate.value.system := by
  rcases sound.machine (system.cpu.setExecuting true) system.policy with ⟨soundNext, carriesNext⟩
  rw [system_didActivate]
  refine .of_carries soundNext ?_ (carries.trans carriesNext) endless none_admitted
  exact settled.of_eq executing (by rw [← cpu]; rfl) (by rw [← cpu]; rfl)

theorem runProgram_handles (sound : kernel.system.Sound) (settled : kernel.system.Settled)
    (pid : Nat) : kernel.system.Handles (.runProgram pid) (kernel.runProgram pid).value.system := by
  unfold runProgram
  cases activated : kernel.system.activate? pid with
  | none => exact .of_carries sound settled (.refl _) rfl rfl
  | some system =>
      rcases System.activate?_spec sound activated with ⟨soundNext, carries, executing, cpu⟩
      exact didActivate_handles soundNext settled carries executing cpu rfl rfl

theorem runAllPrograms_handles (sound : kernel.system.Sound) (settled : kernel.system.Settled) :
    kernel.system.Handles .runAllPrograms kernel.runAllPrograms.value.system := by
  rcases System.activateAll_spec sound with ⟨soundNext, carries, executing, cpu⟩
  unfold runAllPrograms
  dsimp only
  split
  · exact .of_carries sound settled (.refl _) rfl rfl
  · exact didActivate_handles soundNext settled carries executing cpu rfl rfl

/-- A process may be ended that the processor has no registers of any more. -/
theorem terminate_handles {interrupt : Interrupt} {pid : Nat} (sound : kernel.system.Sound)
    (settled : kernel.system.Settled ∨
      ∃ process, kernel.system.executing = some process ∧ process.pid = pid)
    (ends : ∀ other, interrupt.ended? = some other → other = pid)
    (none_admitted : kernel.system.admission? interrupt = none) :
    kernel.system.Handles interrupt (kernel.terminate pid).value.2.system := by
  rcases System.terminate_spec sound pid with
    ⟨result, next, terminated, soundNext, carries, gone, executing, _⟩
  have settledNext : next.Settled := by
    rcases executing with idle | ⟨same, cpu⟩
    · exact .of_idle idle
    · rcases settled with settled | ⟨process, executes, rfl⟩
      · exact settled.of_eq same (by rw [cpu]) (by rw [cpu])
      · apply absurd _ gone
        apply List.mem_map_of_mem
        simp [System.processes, same, executes]
  have handles : kernel.system.Handles interrupt next := by
    refine ⟨soundNext, settledNext, ?_, fun _ => carries, by simp [none_admitted]⟩
    intro other ending
    rw [ends other ending]
    exact gone
  unfold terminate
  cases result with
  | false => simpa [terminated] using handles
  | true => simpa [terminated] using handles

theorem clearMemory_handles (sound : kernel.system.Sound) (settled : kernel.system.Settled) :
    kernel.system.Handles .requestClearMemory kernel.clearMemory.value.system := by
  unfold clearMemory
  cases cleared : kernel.system.clearMemory? with
  | none => exact .of_carries sound settled (.refl _) rfl rfl
  | some outcome =>
      rcases System.clearMemory?_spec sound cleared with ⟨soundNext, carries, idle⟩
      exact .of_carries soundNext (.of_idle idle) carries rfl rfl

theorem contextSwitch_handles (sound : kernel.system.Sound) (settled : kernel.system.Settled) :
    kernel.system.Handles .contextSwitch kernel.contextSwitch.value.system := by
  rcases System.contextSwitch_spec sound settled with
    ⟨result, next, switched, soundNext, carries, settledNext, _⟩
  have handles : kernel.system.Handles .contextSwitch next :=
    .of_carries soundNext settledNext carries rfl rfl
  unfold contextSwitch
  rcases result with failure | _ | _
  · simpa [switched] using handles
  · simpa [switched] using handles
  · simpa [switched] using handles

theorem serveFiles_handles (sound : kernel.system.Sound) (settled : kernel.system.Settled)
    {request : FileRequest}
    (careful : request = .format → ∀ process ∈ kernel.system.processes, process.isOnDisk = false) :
    kernel.system.Handles (.fileSystem request) (kernel.serveFiles request).value.system := by
  rcases System.serve_spec sound request careful with ⟨soundNext, carries⟩
  unfold serveFiles
  cases served : FileSystem.perform (FileSystem.serve request) kernel.system.files with
  | mk result files =>
      rw [served] at soundNext carries
      cases result with
      | error error => exact .of_carries soundNext settled carries rfl rfl
      | ok reply => exact .of_carries soundNext settled carries rfl rfl

theorem system_endProgram (pid : Nat) (kernel : Kernel) :
    (kernel.endProgram pid).value.system = (kernel.terminate pid).value.2.system := by
  simp only [endProgram, Journaled.value_bind]
  split
  · rfl
  · rfl

theorem system_killProgram (pid : Nat) (kernel : Kernel) :
    (kernel.killProgram pid).value.system = (kernel.terminate pid).value.2.system := by
  simp only [killProgram, Journaled.value_bind]
  split
  · rfl
  · rfl

/-- Handling an interrupt keeps the system in order.  If the processor has lost the registers of the
executing process, the interrupt has to be the end of it. -/
theorem handle_handles (interrupt : Interrupt) (sound : kernel.system.Sound)
    (settled : kernel.system.Settled ∨ ∃ process,
      kernel.system.executing = some process ∧ interrupt.ended? = some process.pid)
    (careful : interrupt = .fileSystem .format →
      ∀ process ∈ kernel.system.processes, process.isOnDisk = false) :
    kernel.system.Handles interrupt (kernel.handle interrupt).value.system := by
  have settled_of_endless (endless : interrupt.ended? = none) : kernel.system.Settled := by
    rcases settled with settled | ⟨process, _, ends⟩
    · exact settled
    · simp [endless] at ends
  have settled_of_ended {pid : Nat} (ends : interrupt.ended? = some pid) :
      kernel.system.Settled ∨
        ∃ process, kernel.system.executing = some process ∧ process.pid = pid := by
    rcases settled with settled | ⟨process, executing, same⟩
    · exact Or.inl settled
    · exact Or.inr ⟨process, executing, Option.some.inj (same.symm.trans ends)⟩
  cases interrupt with
  | timer => exact .of_carries sound (settled_of_endless rfl) (.refl _) rfl rfl
  | keyboard key => exact .of_carries sound (settled_of_endless rfl) (.refl _) rfl rfl
  | loadProgram text priority =>
      exact loadProgram_handles sound (settled_of_endless rfl) text priority
  | runProgram pid => exact runProgram_handles sound (settled_of_endless rfl) pid
  | breakProgram pid =>
      have handles := @terminate_handles kernel (.breakProgram pid) pid sound
        (settled_of_ended rfl) (by simp [Interrupt.ended?]) rfl
      rw [← system_endProgram] at handles
      exact handles
  | errProgram pid =>
      have handles := @terminate_handles kernel (.errProgram pid) pid sound
        (settled_of_ended rfl) (by simp [Interrupt.ended?]) rfl
      rw [← system_endProgram] at handles
      exact handles
  | requestClearMemory => exact clearMemory_handles sound (settled_of_endless rfl)
  | contextSwitch => exact contextSwitch_handles sound (settled_of_endless rfl)
  | runAllPrograms => exact runAllPrograms_handles sound (settled_of_endless rfl)
  | killProgram pid =>
      have handles := @terminate_handles kernel (.killProgram pid) pid sound
        (Or.inl (settled_of_endless rfl)) (by simp [Interrupt.ended?]) rfl
      rw [← system_killProgram] at handles
      exact handles
  | fileSystem request =>
      apply serveFiles_handles sound (settled_of_endless rfl)
      intro format
      exact careful (by rw [format])
  | unrecognized number =>
      rcases sound.machine (kernel.system.cpu.setExecuting false) kernel.system.policy with
        ⟨soundNext, carries⟩
      exact .of_carries soundNext (settled_of_endless rfl) carries rfl rfl

/-! ## Pulses -/

theorem pulse_stopped (stopped : kernel.running = false) : kernel.pulse.value = kernel := by
  simp [pulse, stopped]

theorem pulse_handle {interrupt : Interrupt} {rest : InterruptQueue}
    (running : kernel.running = true) (queue : kernel.interrupts = interrupt :: rest) :
    kernel.pulse =
      { kernel with clock := kernel.clock + 1, interrupts := rest }.handle interrupt := by
  simp [pulse, running, queue, InterruptQueue.dequeue?]

theorem pulse_execute (running : kernel.running = true) (quiet : kernel.interrupts = [])
    (busy : kernel.system.isIdle = false) :
    kernel.pulse = { kernel with clock := kernel.clock + 1 }.execute := by
  simp [pulse, running, quiet, busy, InterruptQueue.dequeue?]

theorem pulse_idle (running : kernel.running = true) (quiet : kernel.interrupts = [])
    (idle : kernel.system.isIdle = true) :
    kernel.pulse.value = { kernel with clock := kernel.clock + 1 } := by
  simp only [pulse, running, quiet, idle, InterruptQueue.dequeue?]
  simp only [if_true, Bool.not_true, Bool.false_eq_true, if_false]
  split
  · rfl
  · rfl

/-- What a pulse makes of a kernel, in each of the states that the kernel can be in. -/
inductive Pulses (kernel : Kernel) : Kernel → Prop
  | stopped (running : kernel.running = false) : Pulses kernel kernel
  | handles (interrupt : Interrupt) (rest : InterruptQueue) (running : kernel.running = true)
      (queue : kernel.interrupts = interrupt :: rest) :
      Pulses kernel
        ({ kernel with clock := kernel.clock + 1, interrupts := rest }.handle interrupt).value
  | executes (running : kernel.running = true) (quiet : kernel.interrupts = [])
      (busy : kernel.system.isIdle = false) :
      Pulses kernel ({ kernel with clock := kernel.clock + 1 }.execute).value
  | idles (running : kernel.running = true) (quiet : kernel.interrupts = [])
      (idle : kernel.system.isIdle = true) : Pulses kernel { kernel with clock := kernel.clock + 1 }

theorem pulse_pulses (kernel : Kernel) : kernel.Pulses kernel.pulse.value := by
  cases running : kernel.running with
  | false =>
      rw [pulse_stopped running]
      exact .stopped running
  | true =>
      cases queue : kernel.interrupts with
      | cons interrupt rest =>
          rw [pulse_handle running queue]
          exact .handles interrupt rest running queue
      | nil =>
          cases idle : kernel.system.isIdle with
          | false =>
              rw [pulse_execute running queue idle]
              exact .executes running queue idle
          | true =>
              rw [pulse_idle running queue idle]
              exact .idles running queue idle

/-- Once the processor was given away, the executing process runs a cycle.  Without one, dispatching
is all that happens. -/
theorem execute_cases {result : Except DispatchFailure Unit} {system : System}
    (running : kernel.running = true) (quiet : kernel.interrupts = [])
    (busy : kernel.system.isIdle = false)
    (dispatched : kernel.system.dispatch.value = (result, system))
    (failed : ∀ failure, result = .error failure → system.executing = none) :
    (system.executing = none ∧ kernel.cycle? .pulse = none ∧
      ({ kernel with clock := kernel.clock + 1 }.execute).value.system = system) ∨
    ∃ process, system.executing = some process ∧
      kernel.cycle? .pulse =
        some ((system.cpu.setExecuting true).cycle process system.memory) ∧
      ({ kernel with clock := kernel.clock + 1 }.execute).value =
        ({ kernel with clock := kernel.clock + 1, system }.runCycle process).value := by
  cases result with
  | error failure =>
      refine Or.inl ⟨failed failure rfl, ?_, ?_⟩
      · simp [cycle?, dispatched]
      · simp [execute, dispatched]
  | ok _ =>
      cases executes : system.executing with
      | none =>
          refine Or.inl ⟨rfl, ?_, ?_⟩
          · simp [cycle?, dispatched, executes]
          · simp [execute, dispatched, executes]
      | some process =>
          refine Or.inr ⟨process, rfl, ?_, ?_⟩
          · simp [cycle?, running, quiet, busy, dispatched, executes]
          · simp [execute, dispatched, executes]

/-! ## Commands -/

/-- The process that the next interrupt ends. -/
def ending? (kernel : Kernel) : Option Nat :=
  kernel.interrupts.head?.bind Interrupt.ended?

/-- The system is in order.  If the processor has lost the registers of the executing process, its
end comes next. -/
structure InOrder (kernel : Kernel) : Prop where
  sound : kernel.system.Sound
  settled : kernel.system.Settled ∨ ∃ process,
    kernel.system.executing = some process ∧ kernel.ending? = some process.pid

/-- What a command can do to the processes. -/
inductive Steps (kernel : Kernel) (command : Command) (next : Kernel) : Prop
  | carries (carries : kernel.system.Carries next.system)
      (none_admitted : kernel.admitted? command = none) (none_run : kernel.cycle? command = none)
  | admits (program : List UInt8) (admits : kernel.system.Admits next.system program)
      (one_admitted : kernel.admitted? command = some (kernel.system.nextPid, program))
      (none_run : kernel.cycle? command = none)
  | runs (between : System) (process : Process) (cycle : Cycle) (sound : between.Sound)
      (carries : kernel.system.Carries between) (executing : between.executing = some process)
      (resumes : (between.cpu.setExecuting true).Resumes process)
      (cycle_eq : cycle = (between.cpu.setExecuting true).cycle process between.memory)
      (runs : between.Runs next.system process cycle)
      (quiet : kernel.ending? = none)
      (ends : cycle.outcome ≠ .completed → next.ending? = some process.pid)
      (none_admitted : kernel.admitted? command = none)
      (one_run : kernel.cycle? command = some cycle)

/-- The kernel is in order after a command, and a process whose end came next has ended unless it
still comes next. -/
structure Obeys (kernel : Kernel) (command : Command) (next : Kernel) : Prop where
  order : next.InOrder
  steps : kernel.Steps command next
  ending : ∀ pid, kernel.ending? = some pid →
    next.ending? = some pid ∨ pid ∉ next.system.processes.map Process.pid

/-- A command that keeps the system but for what its processor and policy do. -/
theorem Obeys.of_carries {command : Command} {next : Kernel} (order : kernel.InOrder)
    (sound : next.system.Sound) (carries : kernel.system.Carries next.system)
    (executing : next.system.executing = kernel.system.executing)
    (cpu : next.system.cpu = kernel.system.cpu)
    (ending : ∀ pid, kernel.ending? = some pid → next.ending? = some pid)
    (none_admitted : kernel.admitted? command = none) (none_run : kernel.cycle? command = none) :
    kernel.Obeys command next := by
  refine ⟨⟨sound, ?_⟩, .carries carries none_admitted none_run, fun pid ends => Or.inl (ending pid ends)⟩
  rcases order.settled with settled | ⟨process, executes, ends⟩
  · exact Or.inl (settled.of_eq executing (by rw [cpu]) (by rw [cpu]))
  · exact Or.inr ⟨process, executing.trans executes, ending _ ends⟩

/-- The interrupt that a cycle raises comes next. -/
theorem head?_interruptsAfter {cycle : Cycle} {interrupt : Interrupt}
    (raised : cycle.raised = some interrupt) (policy : Policy) :
    (interruptsAfter cycle policy []).head? = some interrupt := by
  simp only [interruptsAfter, Cycle.enqueueRaised, raised]
  split
  · rfl
  · rfl

/-- The executing process runs a cycle, and if it does not complete its instruction its end comes
next. -/
theorem runCycle_obeys {system : System} {process : Process} (quiet : kernel.interrupts = [])
    (sound : system.Sound) (carries : kernel.system.Carries system)
    (executing : system.executing = some process)
    (resumes : (system.cpu.setExecuting true).Resumes process)
    (none_admitted : kernel.admitted? .pulse = none)
    (one_run : kernel.cycle? .pulse =
      some ((system.cpu.setExecuting true).cycle process system.memory)) :
    kernel.Obeys .pulse
      ({ kernel with clock := kernel.clock + 1, system }.runCycle process).value := by
  generalize ran : (system.cpu.setExecuting true).cycle process system.memory = cycle at one_run
  have pid : cycle.process.pid = process.pid := by rw [← ran, Cpu.cycle_pid]
  rcases System.cycle_spec sound executing (system.cpu.setExecuting true)
    (system.policy.didCycle process.pid) ran.symm with ⟨soundNext, runs⟩
  have system_eq : ({ kernel with clock := kernel.clock + 1, system }.runCycle process).value.system =
      system.afterCycle cycle (system.policy.didCycle process.pid) := by
    rw [← ran]
    rfl
  have ends (incomplete : cycle.outcome ≠ .completed) :
      ({ kernel with clock := kernel.clock + 1, system }.runCycle process).value.ending? =
        some process.pid := by
    rcases Option.ne_none_iff_exists'.mp (mt Cycle.completed_iff.mpr incomplete) with
      ⟨interrupt, raised⟩
    have next := head?_interruptsAfter raised (system.policy.didCycle process.pid)
    rw [← quiet, ← ran] at next
    exact Option.bind_eq_some_iff.mpr
      ⟨interrupt, next, (Cycle.ended?_of_raised raised).trans (congrArg some pid)⟩
  refine ⟨⟨?_, ?_⟩, .runs system process cycle sound carries executing resumes ran.symm ?_
    (by simp [ending?, quiet]) ends none_admitted one_run, by simp [ending?, quiet]⟩
  · rw [system_eq]
    exact soundNext
  · by_cases completed : cycle.outcome = .completed
    · rw [← ran] at completed
      have saved := Cpu.cycle_saved completed
      rw [ran] at saved
      rw [system_eq]
      refine Or.inl ?_
      rintro other ⟨⟩
      exact saved
    · refine Or.inr ⟨cycle.process.ticked, by rw [system_eq]; rfl, ?_⟩
      rw [ends completed, Process.ticked, pid]
  · rw [system_eq]
    exact runs

/-- A pulse without an interrupt to handle runs a cycle, if some process can get the processor. -/
theorem execute_obeys (order : kernel.InOrder) (running : kernel.running = true)
    (quiet : kernel.interrupts = []) (busy : kernel.system.isIdle = false) :
    kernel.Obeys .pulse ({ kernel with clock := kernel.clock + 1 }.execute).value := by
  have none_ending : kernel.ending? = none := by simp [ending?, quiet]
  have settled : kernel.system.Settled := by
    rcases order.settled with settled | ⟨process, _, ends⟩
    · exact settled
    · simp [none_ending] at ends
  have none_admitted : kernel.admitted? .pulse = none := by
    simp [admitted?, handled?, quiet]
  rcases System.dispatch_spec order.sound with
    ⟨result, system, dispatched, sound, carries, cpu, executing, failed, _⟩
  rcases execute_cases running quiet busy dispatched failed with
    ⟨idle, none_run, next_eq⟩ | ⟨process, executes, one_run, next_eq⟩
  · refine ⟨⟨?_, ?_⟩, .carries ?_ none_admitted none_run, by simp [none_ending]⟩
    · rw [next_eq]
      exact sound
    · rw [next_eq]
      exact Or.inl (.of_idle idle)
    · rw [next_eq]
      exact carries
  · have resumes : (system.cpu.setExecuting true).Resumes process := by
      rcases executing with same | fresh
      · have saved := settled process (same ▸ executes)
        rw [← cpu] at saved
        exact Or.inr saved
      · exact Or.inl (fresh process executes)
    rw [next_eq]
    exact runCycle_obeys quiet sound carries executes resumes none_admitted one_run

/-- Handling the next interrupt is all that a pulse does when there is one. -/
theorem handle_obeys {interrupt : Interrupt} {rest : InterruptQueue} (order : kernel.InOrder)
    (running : kernel.running = true) (queue : kernel.interrupts = interrupt :: rest)
    (careful : kernel.Careful .pulse) :
    kernel.Obeys .pulse
      ({ kernel with clock := kernel.clock + 1, interrupts := rest }.handle interrupt).value := by
  have next_ending : kernel.ending? = interrupt.ended? := by simp [ending?, queue]
  have handled : kernel.handled? .pulse = some interrupt := by simp [handled?, running, queue]
  have admitted_eq : kernel.admitted? .pulse = kernel.system.admission? interrupt := by
    simp [admitted?, handled]
  have none_run : kernel.cycle? .pulse = none := by simp [cycle?, queue]
  have handles := @handle_handles { kernel with clock := kernel.clock + 1, interrupts := rest }
    interrupt order.sound (next_ending ▸ order.settled)
    (fun format => careful (by rw [handled, format]))
  refine ⟨⟨handles.sound, Or.inl handles.settled⟩, ?_, ?_⟩
  · cases admission : kernel.system.admission? interrupt with
    | none => exact .carries (handles.carries admission) (admitted_eq.trans admission) none_run
    | some admitted =>
        rcases admitted with ⟨pid, program⟩
        rcases handles.admits pid program admission with ⟨rfl, admits⟩
        exact .admits program admits (admitted_eq.trans admission) none_run
  · intro pid ends
    exact Or.inr (handles.ended pid (next_ending ▸ ends))

theorem pulse_obeys (order : kernel.InOrder) (careful : kernel.Careful .pulse) :
    kernel.Obeys .pulse kernel.pulse.value := by
  have pulses := kernel.pulse_pulses
  generalize kernel.pulse.value = next at pulses ⊢
  cases pulses with
  | stopped running =>
      refine .of_carries order order.sound (.refl _) rfl rfl (fun _ ends => ends) ?_ ?_
      · simp [admitted?, handled?, running]
      · simp [cycle?, running]
  | handles interrupt rest running queue => exact handle_obeys order running queue careful
  | executes running quiet busy => exact execute_obeys order running quiet busy
  | idles running quiet idle =>
      refine .of_carries order order.sound (.refl _) rfl rfl (fun _ ends => ends) ?_ ?_
      · simp [admitted?, handled?, quiet]
      · simp [cycle?, idle]

/-- What a command does, and that the kernel stays in order. -/
theorem obey_spec (command : Command) (order : kernel.InOrder) (careful : kernel.Careful command) :
    kernel.Obeys command (kernel.obey command) := by
  cases command with
  | pulse => exact pulse_obeys order careful
  | enqueue interrupt =>
      refine .of_carries order order.sound (.refl _) rfl rfl ?_ rfl rfl
      intro pid ends
      cases queue : kernel.interrupts with
      | nil => simp [ending?, queue] at ends
      | cons first rest =>
          simpa [ending?, obey, enqueue, InterruptQueue.enqueue, queue] using ends
  | setSchedule schedule =>
      rcases System.setSchedule_spec order.sound schedule with ⟨sound, carries⟩
      exact .of_carries order sound carries rfl rfl (fun _ ends => ends) rfl rfl
  | setQuantum quantum =>
      rcases order.sound.machine kernel.system.cpu (kernel.system.policy.setQuantum quantum) with
        ⟨sound, carries⟩
      exact .of_carries order sound carries rfl rfl (fun _ ends => ends) rfl rfl

end Kernel

/-! ## Booting -/

theorem Config.validate_eq_ok {config : Config} (valid : config.validate = .ok ()) :
    0 < config.segmentCount ∧ config.segmentCount ≤ config.memorySize ∧ config.disk.HasBlocks := by
  unfold validate at valid
  split at valid
  · cases valid
  split at valid
  · cases valid
  split at valid
  · cases valid
  split at valid
  · cases valid
  rename_i positive fits dimensions
  simp only [not_or] at dimensions
  exact ⟨Nat.pos_of_ne_zero positive, Nat.le_of_not_lt fits,
    dimensions.1, dimensions.2.1, dimensions.2.2⟩

namespace System

/-- A system without processes whose memory and disk are clear. -/
theorem sound_of_empty {system : System} (tidy : system.memory.Tidy)
    (homeless : ∀ pid, system.memory.holding? pid = none)
    (serviceable : system.files.Serviceable) (unswapped : ∀ pid, system.files.swapImage pid = none)
    (nobody : system.everyone = []) : system.Sound := by
  rcases List.append_eq_nil_iff.mp nobody with ⟨living, terminated⟩
  rcases List.append_eq_nil_iff.mp living with ⟨early, resident⟩
  rcases List.append_eq_nil_iff.mp early with ⟨executing, ready⟩
  refine ⟨⟨tidy, serviceable, by simp [living], by simp [living], by simp [homeless],
    by simp [unswapped]⟩, ?_, by simp [ready, resident], by simp [terminated], by simp [nobody],
    by simp [nobody]⟩
  intro process executes
  simp [executes] at executing

end System

namespace Kernel

/-- Before the disk may be formatted the kernel has loaded its drivers and cleared the processor. -/
def loaded (config : Config) : Kernel :=
  let kernel := create config
  { kernel with
    system := { kernel.system with cpu := kernel.system.cpu.boot, files := kernel.system.files.load }
    keyboard := kernel.keyboard.load }

theorem loaded_sound {config : Config} (valid : config.validate = .ok ()) :
    (loaded config).system.Sound := by
  rcases Config.validate_eq_ok valid with ⟨positive, fits, hasBlocks⟩
  have unswapped (pid : Nat) : (FileSystem.blank config.disk).load.swapImage pid = none :=
    FileSystem.Serviceable.swapImage_unformatted rfl
  exact System.sound_of_empty (Memory.divided_tidy positive fits)
    (Memory.holding?_divided config.memorySize config.segmentCount)
    (FileSystem.Serviceable.blank hasBlocks).load unswapped rfl

/-- Formatting changes nothing but the disk, carried out or not. -/
theorem formatDisk_eq (kernel : Kernel) : kernel.formatDisk.value = { kernel with
    system := { kernel.system with
      files := (FileSystem.perform FileSystem.format kernel.system.files).2 } } := by
  unfold formatDisk
  split
  · rename_i formatted
    rw [formatted]
    rfl
  · rename_i refused
    rw [refused]
    rfl

theorem system_formatDisk (kernel : Kernel) : kernel.formatDisk.value.system = { kernel.system with
    files := (FileSystem.perform FileSystem.format kernel.system.files).2 } :=
  congrArg Kernel.system kernel.formatDisk_eq

/-- What a booted kernel is like, whether the disk was formatted or not. -/
theorem booted_spec {config : Config} (valid : config.validate = .ok ()) (format : Bool) :
    (booted config format).InOrder ∧ (booted config format).system.everyone = [] ∧
      (booted config format).system.memory =
        Memory.divided config.memorySize config.segmentCount := by
  have sound := loaded_sound valid
  cases format with
  | false => exact ⟨⟨sound, Or.inl (.of_idle rfl)⟩, rfl, rfl⟩
  | true =>
      rcases System.format_spec sound (by simp [System.processes, loaded, create, System.initial]) with
        ⟨report, files, formatted, soundNext, carries⟩
      have system_eq : (booted config true).system = { (loaded config).system with files } := by
        have format_eq : (booted config true).system = (loaded config).formatDisk.value.system := rfl
        rw [format_eq, system_formatDisk, formatted]
      have idle : (booted config true).system.executing = none := by rw [system_eq]; rfl
      refine ⟨⟨?_, Or.inl (.of_idle idle)⟩, ?_, ?_⟩
      · rw [system_eq]
        exact soundNext
      · rw [system_eq]
        rfl
      · rw [system_eq]
        rfl

/-- The kernel is in order at every state of a run. -/
theorem Run.inOrder {config : Config} (valid : config.validate = .ok ()) {kernel : Kernel}
    {admitted : List (Nat × List UInt8)} {printed : List (Nat × String)}
    (run : Run config kernel admitted printed) : kernel.InOrder := by
  induction run with
  | boot format => exact (booted_spec valid format).1
  | obey command _ careful order => exact (obey_spec command order careful).order

end Kernel

end Timeshare
