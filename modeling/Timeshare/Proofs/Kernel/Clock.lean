import Timeshare.Host.Session
import Timeshare.Proofs.Kernel.Coherence

/-!
# The clock of the kernel

The clock counts the pulses that a running kernel was given.  So running a kernel for as long as it
is busy gives it as many pulses as its clock says.
-/

namespace Timeshare

namespace Kernel

variable {kernel : Kernel}

@[simp]
theorem clock_say (message : String) (kernel : Kernel) :
    (kernel.say message).clock = kernel.clock := rfl

@[simp]
theorem clock_reportFinished (pid : Nat) (kernel : Kernel) :
    (kernel.reportFinished pid).clock = kernel.clock := by
  unfold reportFinished
  split
  · rfl
  · rfl

@[simp]
theorem clock_dispatchFailed (failure : DispatchFailure) (kernel : Kernel) :
    (kernel.dispatchFailed failure).clock = kernel.clock := by
  simp [dispatchFailed]

@[simp]
theorem clock_didActivate (kernel : Kernel) : kernel.didActivate.value.clock = kernel.clock := by
  simp only [didActivate]
  split
  · rfl
  · rfl

@[simp]
theorem clock_terminate (pid : Nat) (kernel : Kernel) :
    (kernel.terminate pid).value.2.clock = kernel.clock := by
  simp only [terminate, Journaled.value_bind]
  split
  · simp
  · simp

@[simp]
theorem clock_endProgram (pid : Nat) (kernel : Kernel) :
    (kernel.endProgram pid).value.clock = kernel.clock := by
  simp only [endProgram, Journaled.value_bind]
  split
  · simp
  · simp

/-- Only pulses advance the clock. -/
theorem clock_handle (interrupt : Interrupt) (kernel : Kernel) :
    (kernel.handle interrupt).value.clock = kernel.clock := by
  cases interrupt with
  | timer => rfl
  | keyboard key => rfl
  | loadProgram text priority =>
      simp only [handle, Journaled.value_bind, loadProgram]
      cases ProgramText.parse text with
      | error error => rfl
      | ok program =>
          simp only [Journaled.value_bind]
          split
          · rfl
          · rfl
  | runProgram pid =>
      simp only [handle, Journaled.value_bind, runProgram]
      cases kernel.system.activate? pid with
      | none => rfl
      | some activated => simp
  | breakProgram pid => simp [handle]
  | errProgram pid => simp [handle]
  | requestClearMemory =>
      simp only [handle, Journaled.value_bind, clearMemory]
      cases kernel.system.clearMemory? with
      | none => rfl
      | some cleared => rfl
  | contextSwitch =>
      simp only [handle, contextSwitch, Journaled.value_bind]
      split
      · rfl
      · rfl
      · simp
  | runAllPrograms =>
      simp only [handle, Journaled.value_bind, runAllPrograms]
      cases kernel.system.activateAll.1.isEmpty with
      | true => rfl
      | false => simp
  | killProgram pid =>
      simp only [handle, Journaled.value_bind, killProgram]
      split
      · simp
      · simp
  | fileSystem request =>
      simp only [handle, Journaled.value_bind, serveFiles]
      split
      · rfl
      · rfl
  | unrecognized number => rfl

theorem clock_execute (kernel : Kernel) : kernel.execute.value.clock = kernel.clock := by
  simp only [execute, Journaled.value_bind]
  split
  · simp
  · rfl
  · rfl

theorem clock_pulse (running : kernel.running = true) :
    kernel.pulse.value.clock = kernel.clock + 1 := by
  have pulses := kernel.pulse_pulses
  generalize kernel.pulse.value = next at pulses ⊢
  cases pulses with
  | stopped stopped => simp [running] at stopped
  | handles interrupt rest => exact clock_handle interrupt _
  | executes => exact clock_execute _
  | idles => rfl

/-- Running a kernel gives it pulses, one for each tick of its clock. -/
theorem run_eq_obeyAll (limit : Nat) (kernel : Kernel) : ∃ pulses ≤ limit,
    kernel.run limit = kernel.obeyAll (List.replicate pulses .pulse) ∧
      (kernel.run limit).clock = kernel.clock + pulses := by
  induction limit generalizing kernel with
  | zero => exact ⟨0, Nat.le_refl 0, rfl, rfl⟩
  | succ limit hypothesis =>
      rw [run]
      split
      · rename_i busy
        rcases hypothesis kernel.pulse.value with ⟨pulses, bound, ran, clock⟩
        have running : kernel.running = true := (Bool.and_eq_true_iff.mp busy).1
        refine ⟨pulses + 1, Nat.succ_le_succ bound, ran, ?_⟩
        rw [clock, clock_pulse running]
        omega
      · exact ⟨0, Nat.zero_le _, rfl, rfl⟩

theorem clock_booted (config : Config) (format : Bool) : (booted config format).clock = 0 := by
  cases format with
  | false => rfl
  | true => exact congrArg Kernel.clock (loaded config).formatDisk_eq

end Kernel

end Timeshare
