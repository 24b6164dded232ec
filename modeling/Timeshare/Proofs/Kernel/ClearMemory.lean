import Timeshare.Proofs.Kernel.Reach

/-!
# Clearing memory

Memory is cleared on request, as long as no process executes or is ready.  Two sweeps do it: one
goes through the resident processes and ends those that say to be in memory, the other one goes
through the segments and clears those that are held.  They meet the same processes, since in a run
memory holds a segment for each process that is not on disk and for nobody else.
-/

namespace Timeshare

theorem Memory.Lodges.mem_residentPids_iff {memory : Memory} {processes : List Process} {pid : Nat}
    (lodges : memory.Lodges processes) :
    pid ∈ memory.residentPids ↔ pid ∈ (processes.filter Process.isInMemory).map Process.pid := by
  rw [Memory.mem_residentPids, List.mem_map]
  constructor
  · rintro ⟨index, held⟩
    rcases List.mem_map.mp (lodges.held pid index held) with ⟨process, member, rfl⟩
    refine ⟨process, List.mem_filter.mpr ⟨member, ?_⟩, rfl⟩
    cases lodges.houses process member with
    | inside _ _ residence segment_eq => simp [Process.isInMemory, residence, segment_eq]
    | outside _ _ homeless => simp [homeless] at held
  · rintro ⟨process, among, rfl⟩
    rcases List.mem_filter.mp among with ⟨member, inMemory⟩
    cases lodges.houses process member with
    | inside index _ _ _ held => exact ⟨index, held⟩
    | outside residence => simp [Process.isInMemory, residence] at inMemory

namespace System

/-- Memory was cleared: the resident processes in memory were ended, in the order of their numbers,
memory is as it was at the beginning, and the processes on disk have kept their swap files. -/
structure Clears (config : Config) (system : System) (dropped : List Nat) (next : System) : Prop where
  dropped_eq : dropped = (system.resident.filter Process.isInMemory).map Process.pid
  ascending : dropped.Pairwise (· < ·)
  occupants : system.memory.residentPids = dropped
  next_eq : next = { system with
    memory := .divided config.memorySize config.segmentCount
    resident := system.resident.filter Process.isOnDisk
    terminated := system.terminated ++ (system.resident.filter Process.isInMemory).map
      fun process => { process with phase := .terminated, segment := none, residence := none } }
  spared : ∀ process ∈ next.resident,
    ∃ image, system.SwappedOut process image ∧ next.SwappedOut process image

variable {system next : System} {dropped : List Nat}

theorem clearMemory?_of_busy (busy : system.executing ≠ none ∨ system.ready ≠ []) :
    system.clearMemory? = none := by
  have occupied : system.isIdle = false := by
    rcases busy with executes | waits
    · simp [isIdle, executes]
    · simp [isIdle, waits]
  simp [clearMemory?, occupied]

theorem clearMemory?_of_idle (executing : system.executing = none) (ready : system.ready = []) :
    ∃ next, system.clearMemory? =
      some ((system.resident.filter Process.isInMemory).map Process.pid, next) := by
  simp [clearMemory?, isIdle, executing, ready, drainInMemory]

/-- The processes found in the segments are the resident ones that say to be in memory. -/
theorem Sound.residentPids_eq (sound : system.Sound) (ascending : system.InPlace)
    (executing : system.executing = none) (ready : system.ready = []) :
    system.memory.residentPids = (system.resident.filter Process.isInMemory).map Process.pid := by
  have lodges := sound.owns.lodges
  have all : system.processes = system.resident := by simp [processes, executing, ready]
  rw [all] at lodges
  have swept : ((system.resident.filter Process.isInMemory).map Process.pid).Pairwise (· < ·) :=
    ascending.ascending.sublist (List.filter_sublist.map Process.pid)
  have listed : system.memory.residentPids.Pairwise (· < ·) := OrderedMap.keys_ascending _
  have order : system.memory.residentPids.Perm
      ((system.resident.filter Process.isInMemory).map Process.pid) := by
    refine (List.perm_ext_iff_of_nodup ?_ ?_).mpr fun pid => lodges.mem_residentPids_iff
    · exact listed.imp Nat.ne_of_lt
    · exact swept.imp Nat.ne_of_lt
  apply order.eq_of_pairwise _ listed swept
  intro first second _ _ below above
  exact absurd below (Nat.lt_asymm above)

theorem Sound.clears {config : Config} (valid : config.validate = .ok ()) (sound : system.Sound)
    (inPlace : system.InPlace)
    (segments : system.memory.segments = segmentTable config.memorySize config.segmentCount)
    (size : system.memory.store.size = config.memorySize)
    (cleared : system.clearMemory? = some (dropped, next)) :
    system.Clears config dropped next := by
  rcases Config.validate_eq_ok valid with ⟨positive, fits, _⟩
  rcases clearMemory?_eq_some cleared with ⟨executing, ready, next_eq⟩
  rcases clearMemory?_of_idle executing ready with ⟨_, swept⟩
  obtain ⟨rfl, _⟩ := Prod.mk.inj (Option.some.inj (cleared.symm.trans swept))
  rcases sound.owns.tidy.evacuateAll with ⟨tidy, divided, nobody⟩
  have emptied : system.memory.evacuateAll = .divided config.memorySize config.segmentCount := by
    apply tidy.eq_divided positive fits (divided.trans segments) _ nobody
    exact (system.memory.evacuateAll_evolves system.files).size.trans size
  have left : (system.resident.filter fun process => !process.isInMemory) =
      system.resident.filter Process.isOnDisk := by
    apply List.filter_congr
    intro process member
    have kept := sound.owns.keeps process (by simp [processes, member])
    simp [kept.isInMemory]
  rw [emptied, left] at next_eq
  refine ⟨rfl, inPlace.ascending.sublist (List.filter_sublist.map Process.pid),
    sound.residentPids_eq inPlace executing ready, next_eq, ?_⟩
  intro process member
  have resident := member
  rw [next_eq] at resident
  rcases List.mem_filter.mp resident with ⟨among, onDisk⟩
  rcases sound.exists_swappedOut (by simp [processes, among]) onDisk with ⟨image, swapped⟩
  refine ⟨image, swapped, ?_⟩
  rw [swappedOut_iff] at swapped ⊢
  refine ⟨by simp [processes, member], onDisk, ?_⟩
  rw [next_eq]
  exact swapped.2.2

end System

namespace Kernel

/-- While a process executes or is ready a request to clear memory is refused and changes nothing.
Otherwise memory is cleared. -/
theorem clearMemory_safe_and_complete {config : Config} (valid : config.validate = .ok ())
    {kernel : Kernel} {admitted : List (Nat × List UInt8)} {printed : List (Nat × String)}
    (run : Run config kernel admitted printed) :
    (kernel.system.executing ≠ none ∨ kernel.system.ready ≠ [] →
      kernel.system.clearMemory? = none ∧
      (kernel.handle .requestClearMemory).value.system = kernel.system) ∧
    (kernel.system.executing = none → kernel.system.ready = [] →
      ∃ dropped next, kernel.system.clearMemory? = some (dropped, next) ∧
        kernel.system.Clears config dropped next ∧
        (kernel.handle .requestClearMemory).value.system = next) := by
  have sound := (run.inOrder valid).sound
  have inPlace := run.reached.rostered.toInPlace
  rw [system_handle]
  constructor
  · intro busy
    have refused := System.clearMemory?_of_busy busy
    exact ⟨refused, by simp [System.respond, refused]⟩
  · intro executing ready
    rcases System.clearMemory?_of_idle executing ready with ⟨next, cleared⟩
    refine ⟨_, next, cleared, ?_, by simp [System.respond, cleared]⟩
    exact sound.clears valid inPlace (run.segments valid) (run.size valid) cleared

/-- Of three programs two are in memory and the third lies on disk. -/
theorem clearMemory_safe_and_complete_small :
    ∃ kernel admitted printed,
      Run { memorySize := 6, segmentCount := 2, disk := ⟨2, 1, 3⟩ } kernel admitted printed ∧
      kernel.system.resident.map (fun process => (process.pid, process.isOnDisk)) =
        [(0, false), (1, false), (2, true)] ∧
      ∃ next, kernel.system.clearMemory? = some ([0, 1], next) ∧
        kernel.system.Clears { memorySize := 6, segmentCount := 2, disk := ⟨2, 1, 3⟩ } [0, 1]
          next := by
  let config : Config := { memorySize := 6, segmentCount := 2, disk := ⟨2, 1, 3⟩ }
  have followed : (follow ([.enqueue (.loadProgram "EA 00" none),
      .enqueue (.loadProgram "A9 07 00" none), .enqueue (.loadProgram "EA" none)] ++
        List.replicate 3 .pulse) (booted config true) [] []).map (fun reached =>
          (reached.1.system.resident.map fun process => (process.pid, process.isOnDisk),
            reached.1.system.executing, reached.1.system.ready,
            reached.1.system.clearMemory?.map Prod.fst)) =
      some ([(0, false), (1, false), (2, true)], none, [], some [0, 1]) := by
    decide +kernel
  rcases Option.map_eq_some_iff.mp followed with ⟨⟨kernel, admitted, printed⟩, reached, state⟩
  simp only [Prod.mk.injEq] at state
  rcases state with ⟨resident, executing, ready, named⟩
  have run := (@Run.boot config true).follow reached
  rcases (clearMemory_safe_and_complete (by decide) run).2 executing ready with
    ⟨dropped, next, cleared, clears, _⟩
  obtain rfl : dropped = [0, 1] := by simpa [cleared] using named
  exact ⟨kernel, admitted, printed, run, resident, next, cleared, clears⟩

end Kernel

end Timeshare
