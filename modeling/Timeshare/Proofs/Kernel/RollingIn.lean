import Timeshare.Proofs.Kernel.Reach
import Timeshare.Proofs.System.RollingIn

/-!
# Rolling in during a run

A process is brought into memory when it was taken off the ready queue, at rest or within a context
switch.  In a run the storage owns the processes then, so that the right images are moved.
-/

namespace Timeshare

namespace Kernel

/-- The states in which a process is taken off the ready queue: at rest, and within a context switch
once the executing process was switched out. -/
inductive Choosing (kernel : Kernel) : System → Prop
  | atRest : Choosing kernel kernel.system
  | switchedOut : Choosing kernel
      ({ kernel.system with policy := kernel.system.policy.didSwitch } : System).switchOut.value

namespace Choosing

variable {kernel : Kernel} {system : System}

theorem sound (choosing : kernel.Choosing system) (order : kernel.InOrder) : system.Sound := by
  cases choosing with
  | atRest => exact order.sound
  | switchedOut => exact System.switchOut_sound (order.sound.machine _ _).1

theorem ascending (choosing : kernel.Choosing system) (inPlace : kernel.system.InPlace) :
    (system.resident.map Process.pid).Pairwise (· < ·) := by
  cases choosing with
  | atRest => exact inPlace.ascending
  | switchedOut =>
      let system := { kernel.system with policy := kernel.system.policy.didSwitch }
      rcases System.switchOut_eq system with ⟨queue, switched, _⟩
      rw [switched]
      exact inPlace.ascending

end Choosing

/-- When a process that lies on disk is taken off the ready queue and brought into memory, it finds
its image there, at most one other process is moved to disk, and that as a whole, and everything
else stays as it is. -/
theorem rollIn_moves_right_images {config : Config} (valid : config.validate = .ok ())
    {kernel : Kernel} {admitted : List (Nat × List UInt8)} {printed : List (Nat × String)}
    (run : Run config kernel admitted printed) {system : System} (choosing : kernel.Choosing system)
    {before after : List Process} {process : Process}
    (queue : system.ready = before ++ process :: after) (onDisk : process.isOnDisk = true)
    {brought : Process} {next : System}
    (rolled : (System.rollIn process { system with ready := before ++ after }).value =
      (.ok brought, next)) :
    (∃ image, system.SwappedOut process image ∧
      System.RollsIn { system with ready := before ++ after } process image brought next) ∧
    next.ready.map Process.pid = (before ++ after).map Process.pid ∧
    next.resident.map Process.pid = system.resident.map Process.pid := by
  have sound := choosing.sound (run.inOrder valid)
  have ascending := choosing.ascending run.reached.rostered.toInPlace
  rcases sound.exists_swappedOut (by simp [System.processes, queue]) onDisk with ⟨image, swapped⟩
  have order : system.processes.Perm
      (process :: (system.executing.toList ++ (before ++ after) ++ system.resident)) := by
    simpa [System.processes, queue] using @List.perm_middle _ process
      (system.executing.toList ++ before) (after ++ system.resident)
  have owns : ({ system with ready := before ++ after } : System).storage.Owns
      (process :: (system.executing.toList ++ (before ++ after) ++ system.resident)) :=
    sound.owns.perm order
  have waiting : ∀ other ∈ before ++ after ++ system.resident,
      other ∈ system.executing.toList ++ (before ++ after) ++ system.resident := by
    intro other member
    rw [List.append_assoc]
    exact List.mem_append_right _ member
  have rollsIn := System.rollIn_rollsIn owns waiting ascending onDisk
    (System.swappedOut_iff.mp swapped).2.2 rolled
  exact ⟨⟨image, swapped, rollsIn⟩, rollsIn.pids⟩

/-- Two processes that share the one segment: one is switched out, and its image makes room for that
of the other one. -/
theorem rollIn_moves_right_images_small :
    ∃ kernel admitted printed system first second brought next,
      Run { memorySize := 6, segmentCount := 1, disk := ⟨2, 1, 3⟩, quantum := 1 } kernel admitted
        printed ∧
      kernel.Choosing system ∧ system.ready = [first, second] ∧
      (first.pid, first.isOnDisk, second.pid, second.isInMemory) = (1, true, 0, true) ∧
      (System.rollIn first { system with ready := [second] }).value = (.ok brought, next) ∧
      next.ready.map Process.pid = [0] ∧
      ∃ image, system.SwappedOut first image ∧
        System.RollsIn { system with ready := [second] } first image brought next := by
  let config : Config := { memorySize := 6, segmentCount := 1, disk := ⟨2, 1, 3⟩, quantum := 1 }
  let switched (kernel : Kernel) : System :=
    ({ kernel.system with policy := kernel.system.policy.didSwitch } : System).switchOut.value
  have followed : (follow ([.enqueue (.loadProgram "A2 01 A0 05 FF 00" none),
      .enqueue (.loadProgram "EA" none), .enqueue .runAllPrograms] ++ List.replicate 4 .pulse)
      (booted config true) [] []).map (fun reached =>
        ((switched reached.1).ready.map fun process =>
            (process.pid, process.isOnDisk, process.isInMemory),
          (switched reached.1).ready.head?.map fun first =>
            (System.rollIn first { switched reached.1 with
              ready := (switched reached.1).ready.tail }).value.1.isOk)) =
      some ([(1, true, false), (0, false, true)], some true) := by
    decide +kernel
  rcases Option.map_eq_some_iff.mp followed with ⟨⟨kernel, admitted, printed⟩, reached, state⟩
  have run := (@Run.boot config true).follow reached
  rcases Prod.mk.inj state with ⟨places, succeeds⟩
  rcases List.map_eq_cons_iff.mp places with ⟨first, rest, queue, placeFirst, placesRest⟩
  rcases List.map_eq_singleton_iff.mp placesRest with ⟨second, rfl, placeSecond⟩
  simp only [Prod.mk.injEq] at placeFirst placeSecond
  simp only [queue, List.head?_cons, List.tail_cons, Option.map_some, Option.some.injEq] at succeeds
  rcases rolled : (System.rollIn first { switched kernel with ready := [second] }).value with
    ⟨error | brought, next⟩
  · simp [rolled, Except.isOk, Except.toBool] at succeeds
  · rcases @rollIn_moves_right_images config (by decide) kernel admitted printed run _ .switchedOut
      [] [second] first queue placeFirst.2.1 brought next rolled with ⟨moved, ready, _⟩
    refine ⟨kernel, admitted, printed, switched kernel, first, second, brought, next, run,
      .switchedOut, queue, by simp [placeFirst, placeSecond], rolled, ?_, moved⟩
    simpa [placeSecond.1] using ready

end Kernel

end Timeshare
