import Timeshare.Proofs.Console
import Timeshare.Proofs.Kernel.Run
import Timeshare.Proofs.Machine.Atomicity

/-!
# What reaches the console

The texts of a run are all that programs write to the console.  Whatever else a command writes there
are system messages, each on a line of its own.  So in every state of a run the console displays the
texts that were printed, `Run.displays`.
-/

namespace Timeshare

namespace Console

/-- A console displays the texts that programs have written.  Put together and cut at their line
feeds, they are the lines of programs and the line being written.  The other lines are the system's,
and no line was cleared. -/
def Displays (console : Console) (texts : List String) : Prop :=
  ∃ lines : List (Author × String),
    console.lines.toList = lines.map Prod.snd ∧
    console.transcript = console.lines ∧
    (lines.filter fun line => line.1 = .program).map Prod.snd ++ [console.line] =
      Text.lineFeedPieces (String.join texts)

/-- Only system messages were shown in between. -/
def Told (console next : Console) : Prop :=
  ∃ messages : List String,
    next = messages.foldl (fun console message => console.putSystemText message) console

variable {console next last : Console}

theorem Told.refl (console : Console) : console.Told console :=
  ⟨[], rfl⟩

theorem Told.trans (first : console.Told next) (second : next.Told last) : console.Told last := by
  rcases first with ⟨messages, rfl⟩
  rcases second with ⟨others, rfl⟩
  exact ⟨messages ++ others, by rw [List.foldl_append]⟩

theorem Told.message (console : Console) (message : String) :
    console.Told (console.putSystemText message) :=
  ⟨[message], rfl⟩

namespace Displays

variable {texts : List String}

theorem empty : Console.empty.Displays [] :=
  ⟨[], rfl, rfl, by decide⟩

/-- A text goes on where the last one ended. -/
theorem putText (displays : console.Displays texts) (text : String) :
    (console.putText text).Displays (texts ++ [text]) := by
  rcases displays with ⟨lines, all, kept, pieces⟩
  rcases putText_eq_extended text console with ⟨done, last, split, same⟩
  have joined : String.join (texts ++ [text]) = String.join texts ++ text := by
    rw [String.join_append, String.join_cons, String.join_nil, String.append_empty]
  have own : ∀ line ∈ done.map (Author.program, ·), decide (line.1 = .program) = true := by simp
  refine ⟨lines ++ done.map (.program, ·), ?_, ?_, ?_⟩
  · simp [same, extended, all]
  · simp [same, extended, kept]
  · rw [joined, Text.lineFeedPieces_append pieces.symm, split, same, extended, List.filter_append,
      List.filter_eq_self.mpr own, List.map_append, map_snd_authored, List.append_assoc]

/-- A message is a line of the system. -/
theorem putSystemText (displays : console.Displays texts) (message : String) :
    (console.putSystemText message).Displays texts := by
  rcases displays with ⟨lines, all, kept, pieces⟩
  refine ⟨lines ++ [(.system, message)], ?_, ?_, ?_⟩
  · simp [Console.putSystemText, complete, all]
  · simp [Console.putSystemText, complete, kept]
  · simpa [Console.putSystemText, complete] using pieces

theorem told (displays : console.Displays texts) (told : console.Told next) :
    next.Displays texts := by
  rcases told with ⟨messages, rfl⟩
  induction messages generalizing console with
  | nil => exact displays
  | cons message messages hypothesis => exact hypothesis (displays.putSystemText message)

end Displays

end Console

namespace Kernel

variable {kernel : Kernel}

theorem told_say (message : String) (kernel : Kernel) :
    kernel.console.Told (kernel.say message).console :=
  .message kernel.console message

theorem told_reportFinished (pid : Nat) (kernel : Kernel) :
    kernel.console.Told (kernel.reportFinished pid).console := by
  unfold reportFinished
  split
  · exact .refl _
  · exact told_say _ kernel

theorem told_dispatchFailed (failure : DispatchFailure) (kernel : Kernel) :
    kernel.console.Told (kernel.dispatchFailed failure).console :=
  (told_say failure.message kernel).trans (told_reportFinished failure.pid _)

theorem told_loadProgram (text : String) (priority : Option Nat) (kernel : Kernel) :
    kernel.console.Told (kernel.loadProgram text priority).value.console := by
  unfold loadProgram
  cases ProgramText.parse text with
  | error error => exact told_say _ kernel
  | ok program =>
      simp only [Journaled.value_bind]
      split
      · exact .message kernel.console _
      · exact .message kernel.console _

theorem console_didActivate (kernel : Kernel) :
    kernel.didActivate.value.console = kernel.console := by
  unfold didActivate
  dsimp only
  split
  · rfl
  · rfl

theorem told_runProgram (pid : Nat) (kernel : Kernel) :
    kernel.console.Told (kernel.runProgram pid).value.console := by
  unfold runProgram
  split
  · rw [console_didActivate]
    exact .message kernel.console _
  · exact told_say _ kernel

theorem told_runAllPrograms (kernel : Kernel) :
    kernel.console.Told kernel.runAllPrograms.value.console := by
  unfold runAllPrograms
  dsimp only
  split
  · exact told_say _ kernel
  · rw [console_didActivate]
    exact .message kernel.console _

theorem told_terminate (pid : Nat) (kernel : Kernel) :
    kernel.console.Told (kernel.terminate pid).value.2.console := by
  simp only [terminate, Journaled.value_bind]
  split
  · exact told_reportFinished pid { kernel with system := _ }
  · exact .refl _

theorem told_endProgram (pid : Nat) (kernel : Kernel) :
    kernel.console.Told (kernel.endProgram pid).value.console := by
  have told := told_terminate pid kernel
  simp only [endProgram, Journaled.value_bind]
  split
  · exact told
  · exact told

theorem told_killProgram (pid : Nat) (kernel : Kernel) :
    kernel.console.Told (kernel.killProgram pid).value.console := by
  have told := told_terminate pid kernel
  simp only [killProgram, Journaled.value_bind]
  split
  · exact told
  · exact told.trans (told_say _ _)

theorem told_clearMemory (kernel : Kernel) :
    kernel.console.Told kernel.clearMemory.value.console := by
  unfold clearMemory
  split
  · exact .message kernel.console _
  · exact told_say _ kernel

theorem told_contextSwitch (kernel : Kernel) :
    kernel.console.Told kernel.contextSwitch.value.console := by
  simp only [contextSwitch, Journaled.value_bind]
  split
  · exact .refl _
  · exact .refl _
  · exact told_dispatchFailed _ { kernel with system := _ }

theorem told_serveFiles (request : FileRequest) (kernel : Kernel) :
    kernel.console.Told (kernel.serveFiles request).value.console := by
  unfold serveFiles
  split
  · exact .message kernel.console _
  · exact .message kernel.console _

/-- Handling an interrupt shows system messages at most. -/
theorem told_handle (interrupt : Interrupt) (kernel : Kernel) :
    kernel.console.Told (kernel.handle interrupt).value.console := by
  cases interrupt with
  | timer => exact .refl _
  | keyboard key => exact .refl _
  | loadProgram text priority => exact told_loadProgram text priority kernel
  | runProgram pid => exact told_runProgram pid kernel
  | breakProgram pid => exact told_endProgram pid kernel
  | errProgram pid => exact told_endProgram pid kernel
  | requestClearMemory => exact told_clearMemory kernel
  | contextSwitch => exact told_contextSwitch kernel
  | runAllPrograms => exact told_runAllPrograms kernel
  | killProgram pid => exact told_killProgram pid kernel
  | fileSystem request => exact told_serveFiles request kernel
  | unrecognized number => exact told_say _ kernel

/-- The console once a program has written what it prints. -/
def consoleAfter (command : Command) (kernel : Kernel) : Console :=
  match kernel.printed? command with
  | some (_, text) => kernel.console.putText text
  | none => kernel.console

/-- A cycle writes what its instruction prints, or a message about its fault. -/
theorem told_writeTo (cpu : Cpu) (process : Process) (memory : Memory) (console : Console) :
    Console.Told
      (match (cpu.cycle process memory).printed with
        | some text => console.putText text
        | none => console)
      ((cpu.cycle process memory).writeTo console) := by
  unfold Cycle.writeTo
  cases outcome : (cpu.cycle process memory).outcome with
  | faulted fault =>
      rw [(Cpu.cycle_ineffective (by simp [outcome])).printed]
      exact .message console _
  | completed => exact .refl _
  | halted => exact .refl _

theorem told_execute (running : kernel.running = true) (quiet : kernel.interrupts = [])
    (busy : kernel.system.isIdle = false) :
    (consoleAfter .pulse kernel).Told
      ({ kernel with clock := kernel.clock + 1 }.execute).value.console := by
  rcases dispatched : kernel.system.dispatch.value with ⟨failure | _, system⟩
  · have none_printed : kernel.printed? .pulse = none := by simp [printed?, cycle?, dispatched]
    have told := told_dispatchFailed failure { kernel with clock := kernel.clock + 1, system }
    simpa [consoleAfter, none_printed, execute, dispatched] using told
  · cases executes : system.executing with
    | none =>
        have none_printed : kernel.printed? .pulse = none := by
          simp [printed?, cycle?, dispatched, executes]
        have told := Console.Told.refl kernel.console
        simpa [consoleAfter, none_printed, execute, dispatched, executes] using told
    | some process =>
        have told := told_writeTo (system.cpu.setExecuting true) process system.memory kernel.console
        have console_eq : ({ kernel with clock := kernel.clock + 1 }.execute).value.console =
            ((system.cpu.setExecuting true).cycle process system.memory).writeTo kernel.console := by
          simp only [execute, Journaled.value_bind, dispatched, executes]
          rfl
        have printed_eq : kernel.printed? .pulse =
            ((system.cpu.setExecuting true).cycle process system.memory).printed.map
              fun text => (process.pid, text) := by
          simp [printed?, cycle?, running, quiet, busy, dispatched, executes, Cpu.cycle_pid]
        rw [console_eq, consoleAfter, printed_eq]
        cases printed : ((system.cpu.setExecuting true).cycle process system.memory).printed with
        | none => simpa [printed] using told
        | some text => simpa [printed] using told

theorem consoleAfter_of_none {command : Command} (none_run : kernel.cycle? command = none) :
    consoleAfter command kernel = kernel.console := by
  simp [consoleAfter, printed?, none_run]

/-- A command writes the text that is printed to the console, and otherwise only system messages. -/
theorem told_obey (command : Command) (kernel : Kernel) :
    (consoleAfter command kernel).Told (kernel.obey command).console := by
  cases command with
  | enqueue interrupt => exact .refl _
  | setSchedule schedule => exact .refl _
  | setQuantum quantum => exact .refl _
  | pulse =>
      rw [obey]
      cases running : kernel.running with
      | false =>
          rw [consoleAfter_of_none (by simp [cycle?, running]), pulse_stopped running]
          exact .refl _
      | true =>
          cases queue : kernel.interrupts with
          | cons interrupt rest =>
              rw [consoleAfter_of_none (by simp [cycle?, queue]), pulse_handle running queue]
              exact told_handle interrupt { kernel with clock := _, interrupts := rest }
          | nil =>
              cases idle : kernel.system.isIdle with
              | false =>
                  rw [pulse_execute running queue idle]
                  exact told_execute running queue idle
              | true =>
                  rw [consoleAfter_of_none (by simp [cycle?, idle]), pulse_idle running queue idle]
                  exact .refl _

/-! ## The texts of a run -/

theorem console_booted (config : Config) (format : Bool) :
    (booted config format).console = Console.empty := by
  cases format with
  | false => rfl
  | true => exact congrArg Kernel.console (loaded config).formatDisk_eq

theorem displays_obey {texts : List String} (displays : kernel.console.Displays texts)
    (command : Command) :
    (kernel.obey command).console.Displays
      (texts ++ ((kernel.printed? command).toList).map Prod.snd) := by
  refine Console.Displays.told ?_ (told_obey command kernel)
  unfold consoleAfter
  cases kernel.printed? command with
  | none => simpa using displays
  | some entry => simpa using displays.putText entry.2

/-- In every state of a run the console displays the texts that were printed. -/
theorem Run.displays {config : Config} {admitted : List (Nat × List UInt8)}
    {printed : List (Nat × String)} (run : Run config kernel admitted printed) :
    kernel.console.Displays (printed.map Prod.snd) := by
  induction run with
  | boot format =>
      rw [console_booted]
      exact .empty
  | obey command run careful displays =>
      rw [List.map_append]
      exact displays_obey displays command

end Kernel

end Timeshare
