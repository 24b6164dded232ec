import Mathlib.Data.List.Nodup
import Timeshare.Proofs.Kernel.Coherence

/-!
# The census of processes

Whatever the host does, every number that was given out is that of one process, in one of the four
places a process can be in, and a process that has ended stays as it was when it ended.
-/

namespace Timeshare

namespace System

/-- The processes that had ended still have, and the disk is as usable as it was. -/
structure Upholds (system next : System) : Prop where
  terminated : system.terminated <+: next.terminated
  serviceable : system.files.Serviceable → next.files.Serviceable

variable {system next : System} {interrupt : Interrupt}

theorem Upholds.refl (system : System) : system.Upholds system :=
  ⟨List.prefix_rfl, id⟩

theorem Upholds.trans {last : System} (first : system.Upholds next) (second : next.Upholds last) :
    system.Upholds last where
  terminated := first.terminated.trans second.terminated
  serviceable usable := second.serviceable (first.serviceable usable)

theorem Retains.upholds (retains : system.Retains next) : system.Upholds next :=
  ⟨retains.terminated, retains.serviceable⟩

theorem Responds.upholds (responds : system.Responds interrupt next) : system.Upholds next := by
  rcases responds.change with retains | enrolls
  · exact retains.upholds
  · exact ⟨by rw [enrolls.terminated], enrolls.serviceable⟩

/-- Every number that was given out is that of one process, and the process is as the place is that
it is in. -/
structure Accounted (system : System) : Prop where
  once : ∀ pid, (system.everyone.map Process.pid).count pid = if pid < system.nextPid then 1 else 0
  keyed : (system.resident.map Process.pid).Pairwise (· < ·)
  executing : ∀ process, system.executing = some process → process.phase = .running
  ready : ∀ process ∈ system.ready, process.phase = .ready
  resident : ∀ process ∈ system.resident, process.phase = .resident
  terminated : ∀ process ∈ system.terminated, process.phase = .terminated

theorem Rostered.accounted (rostered : system.Rostered) : system.Accounted where
  once pid := by
    rw [rostered.distinct.count]
    simp only [rostered.numbers.mem_iff, List.mem_range]
  keyed := rostered.ascending
  executing := rostered.executing
  ready process member :=
    congrArg Prod.fst (rostered.ready process.standing (List.mem_map_of_mem member))
  resident process member :=
    congrArg Prod.fst (rostered.resident process.standing (List.mem_map_of_mem member))
  terminated := rostered.terminated

end System

namespace Kernel

namespace Steady

variable {kernel : Kernel} {history : List Cycle}

theorem upholds_pulse (steady : kernel.Steady history) :
    kernel.system.Upholds kernel.pulse.value.system := by
  have pulses := kernel.pulse_pulses
  generalize kernel.pulse.value = next at pulses ⊢
  cases pulses with
  | stopped => exact .refl kernel.system
  | idles => exact .refl kernel.system
  | handles interrupt rest running queue => exact (steady.responds queue).upholds
  | executes running quiet busy =>
      rcases System.dispatch_retains steady.rostered.toInPlace with
        ⟨result, system, dispatched, _, retains, failed⟩
      rcases execute_cases running quiet busy dispatched failed with
        ⟨_, _, next_eq⟩ | ⟨process, _, _, next_eq⟩
      · rw [next_eq]
        exact retains.upholds
      · rw [next_eq]
        exact ⟨retains.terminated, retains.serviceable⟩

theorem upholds_obey (steady : kernel.Steady history) (command : Command) :
    kernel.system.Upholds (kernel.obey command).system := by
  cases command with
  | enqueue interrupt => exact .refl kernel.system
  | setQuantum quantum => exact ⟨List.prefix_rfl, id⟩
  | setSchedule schedule =>
      exact (System.setSchedule_retains steady.rostered.toInPlace schedule).2.upholds
  | pulse => exact steady.upholds_pulse

theorem upholds_obeyAll (steady : kernel.Steady history) (commands : List Command) :
    kernel.system.Upholds (kernel.obeyAll commands).system :=
  steady.along (fun next _ => kernel.system.Upholds next.system) (.refl kernel.system)
    fun command _ steady upholds => upholds.trans (steady.upholds_obey command)

end Steady

/-- No process is lost or there twice, whatever the host says, and those that have ended stay as
they are whatever it says next. -/
theorem accounted_after_commands (config : Config) (format : Bool)
    (commands further : List Command) :
    ((booted config format).obeyAll commands).system.Accounted ∧
      ((booted config format).obeyAll commands).system.terminated <+:
        ((booted config format).obeyAll (commands ++ further)).system.terminated := by
  have steady := steady_obeyAll config format commands
  constructor
  · exact steady.rostered.accounted
  · rw [obeyAll_append]
    exact (steady.upholds_obeyAll further).terminated

end Kernel

end Timeshare
