import Timeshare.Proofs.Kernel.Endings
import Timeshare.Proofs.Kernel.FileRequests
import Timeshare.Proofs.Kernel.RoundTrip
import Timeshare.Proofs.Kernel.StorageSteps

/-!
# States that can be reached

A state of a run can be reached, and every state that can be reached is steady and has its processes
housed, whether the disk was spared or not.
-/

namespace Timeshare

namespace Kernel

variable {config : Config} {kernel : Kernel} {admitted : List (Nat × List UInt8)}
  {printed : List (Nat × String)}

theorem Run.reached (run : Run config kernel admitted printed) : kernel.Reached config := by
  induction run with
  | boot format => exact ⟨format, [], rfl⟩
  | obey command _ _ reached =>
      rcases reached with ⟨format, commands, rfl⟩
      exact ⟨format, commands ++ [command], by rw [obeyAll_concat]⟩

namespace Reached

theorem steady (reached : kernel.Reached config) : ∃ history, kernel.Steady history := by
  rcases reached with ⟨format, commands, rfl⟩
  exact ⟨_, steady_obeyAll config format commands⟩

theorem rostered (reached : kernel.Reached config) : kernel.system.Rostered := by
  rcases reached.steady with ⟨history, steady⟩
  exact steady.rostered

theorem housed (valid : config.validate = .ok ()) (reached : kernel.Reached config) :
    kernel.system.Housed := by
  rcases reached with ⟨format, commands, rfl⟩
  exact (steady_booted config format).housed_obeyAll (housed_booted valid format) commands

end Reached

/-! ## The size of memory -/

theorem size_pulse (order : kernel.InOrder) :
    kernel.pulse.value.system.memory.store.size = kernel.system.memory.store.size := by
  by_cases own : ∃ request, kernel.handled? .pulse = some (.fileSystem request)
  · rcases own with ⟨request, handled⟩
    have pulses := kernel.pulse_pulses
    generalize kernel.pulse.value = next at pulses ⊢
    cases pulses with
    | stopped => rfl
    | idles => rfl
    | executes running quiet => simp [handled?, quiet] at handled
    | handles interrupt rest running queue =>
        obtain rfl : interrupt = .fileSystem request := by
          simpa [handled?, running, queue] using handled
        rw [system_handle]
        rfl
  · exact (pulse_evolves order fun request handled => own ⟨request, handled⟩).size

/-- The size of memory stays what it was at the beginning. -/
theorem Run.size (valid : config.validate = .ok ()) (run : Run config kernel admitted printed) :
    kernel.system.memory.store.size = config.memorySize := by
  induction run with
  | boot format =>
      rw [(booted_spec valid format).2.2]
      simp [Memory.divided, ByteStore.zeroed, ByteStore.size]
  | obey command run careful hypothesis =>
      rw [← hypothesis]
      cases command with
      | pulse => exact size_pulse (run.inOrder valid)
      | enqueue interrupt => rfl
      | setSchedule schedule => rfl
      | setQuantum quantum => rfl

end Kernel

end Timeshare
