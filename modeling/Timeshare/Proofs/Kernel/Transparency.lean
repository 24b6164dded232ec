import Timeshare.Proofs.Kernel.Console
import Timeshare.Proofs.Machine.Solo

/-!
# Transparency of multiprogramming

A process does not notice that it shares the machine.  In every state of a run it has come exactly as
far as its program would have come alone in as many cycles: with the same registers, the same image,
and the same texts printed.  All that programs print is on the console.

The relation that carries the induction is `Kernel.Follows`.  Besides what is to be shown it says
that the program alone could go on, unless the end of the process comes next.
-/

namespace Timeshare

/-- The texts of one process, in order. -/
def textsOf (pid : Nat) (printed : List (Nat × String)) : List String :=
  (printed.filter fun entry => entry.1 = pid).map Prod.snd

namespace Kernel

/-- A process has come as far as its program alone. -/
structure Follows (kernel : Kernel) (placement : Placement) (length : Nat) (progress : Progress)
    (texts : List String) : Prop where
  registers : (placement.after progress.ticks).1.registers = progress.registers
  lastInstruction : (placement.after progress.ticks).1.lastInstruction = progress.lastInstruction
  texts : placement.texts progress.ticks = texts
  image : progress.pid ∈ kernel.system.processes.map Process.pid →
    kernel.system.storage.image? length progress.pid =
      some ((placement.after progress.ticks).2.memory.bytes placement.segment)
  resumes : progress.pid ∈ kernel.system.processes.map Process.pid →
    kernel.ending? = some progress.pid ∨
      (placement.after progress.ticks).2.cpu.Resumes (placement.after progress.ticks).1

/-- Each program that was admitted has a process, which follows the program alone. -/
structure Transparent (kernel : Kernel) (length : Nat) (admitted : List (Nat × List UInt8))
    (printed : List (Nat × String)) : Prop where
  uniform : kernel.system.memory.Uniform length
  numbers : (admitted.map Prod.fst).Perm (kernel.system.everyone.map Process.pid)
  printers : ∀ entry ∈ printed, entry.1 < kernel.system.nextPid
  follows : ∀ entry ∈ admitted, ∀ progress ∈ kernel.system.everyone.map Process.progress,
    progress.pid = entry.1 → ∀ placement : Placement, placement.Loads length entry.1 entry.2 →
      kernel.Follows placement length progress (textsOf entry.1 printed)

variable {kernel next : Kernel} {placement : Placement} {length : Nat} {progress : Progress}
  {texts : List String} {admitted : List (Nat × List UInt8)} {printed : List (Nat × String)}
  {command : Command}

/-- A process that keeps its progress and its image goes on following. -/
theorem Follows.carry (follows : kernel.Follows placement length progress texts)
    (living : progress.pid ∈ next.system.processes.map Process.pid →
      progress.pid ∈ kernel.system.processes.map Process.pid)
    (image : progress.pid ∈ next.system.processes.map Process.pid →
      next.system.storage.image? length progress.pid =
        kernel.system.storage.image? length progress.pid)
    (ending : ∀ pid, kernel.ending? = some pid →
      next.ending? = some pid ∨ pid ∉ next.system.processes.map Process.pid) :
    next.Follows placement length progress texts where
  registers := follows.registers
  lastInstruction := follows.lastInstruction
  texts := follows.texts
  image member := (image member).trans (follows.image (living member))
  resumes := by
    intro member
    rcases follows.resumes (living member) with ends | resumes
    · rcases ending progress.pid ends with endsNext | gone
      · exact Or.inl endsNext
      · exact absurd member gone
    · exact Or.inr resumes

namespace Transparent

theorem carries (transparent : kernel.Transparent length admitted printed)
    (carries : kernel.system.Carries next.system)
    (ending : ∀ pid, kernel.ending? = some pid →
      next.ending? = some pid ∨ pid ∉ next.system.processes.map Process.pid) :
    next.Transparent length admitted printed where
  uniform := transparent.uniform.of_segments carries.segments
  numbers := transparent.numbers.trans carries.pids.symm
  printers := by
    rw [carries.nextPid]
    exact transparent.printers
  follows := by
    intro entry member progress among same placement loads
    have before := carries.progress.mem_iff.mp among
    apply (transparent.follows entry member progress before same placement loads).carry
    · exact carries.living progress.pid
    · exact carries.images length transparent.uniform progress.pid
    · exact ending

/-- Nothing was printed under a number that no process has yet. -/
theorem textsOf_next (transparent : kernel.Transparent length admitted printed) :
    textsOf kernel.system.nextPid printed = [] := by
  rw [textsOf, List.map_eq_nil_iff, List.filter_eq_nil_iff]
  intro entry member same
  have before := transparent.printers entry member
  rw [of_decide_eq_true same] at before
  exact Nat.lt_irrefl _ before

/-- The number of a program that was admitted is that of a process. -/
theorem numbered (transparent : kernel.Transparent length admitted printed)
    (sound : kernel.system.Sound) {entry : Nat × List UInt8} (member : entry ∈ admitted) :
    entry.1 < kernel.system.nextPid :=
  sound.numbered _ (transparent.numbers.mem_iff.mp (List.mem_map_of_mem member))

/-- A program that was just admitted is where the program alone begins. -/
theorem follows_of_admits {program : List UInt8} (uniform : kernel.system.memory.Uniform length)
    (admits : kernel.system.Admits next.system program)
    (loads : placement.Loads length kernel.system.nextPid program) :
    next.Follows placement length ⟨kernel.system.nextPid, .cleared, none, 0⟩ [] where
  registers := loads.registers
  lastInstruction := loads.lastInstruction
  texts := rfl
  image _ := (admits.image length uniform).trans (congrArg some loads.bytes.symm)
  resumes _ := Or.inr (Or.inl loads.fresh)

theorem admits (transparent : kernel.Transparent length admitted printed)
    (sound : kernel.system.Sound) {program : List UInt8}
    (admits : kernel.system.Admits next.system program)
    (ending : ∀ pid, kernel.ending? = some pid →
      next.ending? = some pid ∨ pid ∉ next.system.processes.map Process.pid) :
    next.Transparent length (admitted ++ [(kernel.system.nextPid, program)]) printed where
  uniform := transparent.uniform.of_segments admits.segments
  numbers := by
    have pids := admits.progress.map Progress.pid
    simp only [List.map_cons, List.map_map, Function.comp_def, Process.pid_progress] at pids
    rw [List.map_append, List.map_cons, List.map_nil]
    apply (List.perm_append_singleton _ _).trans
    exact (transparent.numbers.cons _).trans pids.symm
  printers := by
    intro entry member
    rw [admits.nextPid]
    exact Nat.lt_succ_of_lt (transparent.printers entry member)
  follows := by
    intro entry member progress among same placement loads
    rcases List.mem_cons.mp (admits.progress.mem_iff.mp among) with new | before
    · rcases List.mem_append.mp member with old | last
      · -- The programs admitted before have other numbers.
        have smaller := transparent.numbered sound old
        rw [← same, new] at smaller
        exact absurd smaller (Nat.lt_irrefl _)
      · rw [List.mem_singleton] at last
        subst last
        rw [transparent.textsOf_next, new]
        exact follows_of_admits transparent.uniform admits loads
    · have smaller : progress.pid < kernel.system.nextPid := by
        rcases List.mem_map.mp before with ⟨process, everyone, rfl⟩
        exact sound.numbered _ (List.mem_map_of_mem everyone)
      have different := Nat.ne_of_lt smaller
      rcases List.mem_append.mp member with old | last
      · apply (transparent.follows entry old progress before same placement loads).carry
        · intro living
          rcases admits.living progress.pid living with new | living
          · exact absurd new different
          · exact living
        · intro _
          exact admits.images length transparent.uniform progress.pid different
        · exact ending
      · rw [List.mem_singleton] at last
        rw [last] at same
        exact absurd same different

/-- The process that runs a cycle runs it as the program alone would. -/
theorem follows_of_runs {between : System} {process : Process} {cycle : Cycle}
    {program : List UInt8} (uniform : kernel.system.memory.Uniform length)
    (follows : kernel.Follows placement length process.progress texts)
    (loads : placement.Loads length process.pid program) (sound : between.Sound)
    (carries : kernel.system.Carries between) (executing : between.executing = some process)
    (resumes : (between.cpu.setExecuting true).Resumes process)
    (cycle_eq : cycle = (between.cpu.setExecuting true).cycle process between.memory)
    (runs : between.Runs next.system process cycle) (quiet : kernel.ending? = none)
    (ends : cycle.outcome ≠ .completed → next.ending? = some process.pid) :
    next.Follows placement length ⟨process.pid, cycle.process.registers,
      cycle.process.lastInstruction, process.runningTicks + 1⟩ (texts ++ cycle.printed.toList) := by
  have member : process ∈ between.processes := by simp [System.processes, executing]
  have living := List.mem_map_of_mem (f := Process.pid) member
  have image := (carries.images length uniform process.pid living).trans
    (follows.image (carries.living process.pid living))
  rcases loads.stays process.runningTicks with ⟨pid, located, inside⟩
  have alone_resumes : (placement.after process.runningTicks).2.cpu.Resumes
      (placement.after process.runningTicks).1 := by
    rcases follows.resumes (carries.living process.pid living) with ending | resumes
    · simp [quiet] at ending
    · exact resumes
  cases sound.owns.keeps process member with
  | onDisk _ residence =>
      have inMemory := sound.running process executing
      simp [Process.isInMemory, residence] at inMemory
  | inMemory index segment residence segment_eq held place unswapped =>
      have bytes : (placement.after process.runningTicks).2.memory.bytes placement.segment =
          between.memory.bytes segment := by
        rw [Storage.image?_eq_bytes length held place] at image
        exact (Option.some.inj image).symm
      have alike : Alike process (placement.after process.runningTicks).1 between.memory
          (placement.after process.runningTicks).2.memory segment placement.segment :=
        ⟨pid, segment_eq, located, sound.owns.inside place, inside, bytes⟩
      have same := alike.cycle resumes alone_resumes follows.registers follows.lastInstruction
      rw [← cycle_eq] at same
      have after_eq := placement.after_succ process.runningTicks
      refine ⟨?_, ?_, ?_, ?_, ?_⟩
      · rw [after_eq]
        exact same.registers
      · rw [after_eq]
        exact same.lastInstruction
      · rw [← follows.texts, ← same.printed]
        exact Bench.texts_succ process.runningTicks placement.process _
      · intro _
        rw [after_eq, runs.image length segment segment_eq]
        exact congrArg some same.alike.bytes.symm
      · intro _
        by_cases completed : cycle.outcome = .completed
        · rw [after_eq]
          exact Or.inr (Or.inr (Cpu.cycle_saved (same.outcome.trans completed)))
        · exact Or.inl (ends completed)

theorem textsOf_append (pid : Nat) (printed : List (Nat × String)) (printer : Nat)
    (text : Option String) :
    textsOf pid (printed ++ (text.map fun text => (printer, text)).toList) =
      textsOf pid printed ++ if printer = pid then text.toList else [] := by
  cases text with
  | none => simp
  | some text =>
      by_cases same : printer = pid
      · simp [textsOf, same]
      · simp [textsOf, same]

theorem runs (transparent : kernel.Transparent length admitted printed)
    {between : System} {process : Process} {cycle : Cycle} (sound : between.Sound)
    (carries : kernel.system.Carries between) (executing : between.executing = some process)
    (resumes : (between.cpu.setExecuting true).Resumes process)
    (cycle_eq : cycle = (between.cpu.setExecuting true).cycle process between.memory)
    (runs : between.Runs next.system process cycle) (quiet : kernel.ending? = none)
    (ends : cycle.outcome ≠ .completed → next.ending? = some process.pid)
    (ending : ∀ pid, kernel.ending? = some pid →
      next.ending? = some pid ∨ pid ∉ next.system.processes.map Process.pid) :
    next.Transparent length admitted
      (printed ++ (cycle.printed.map fun text => (process.pid, text)).toList) where
  uniform := transparent.uniform.of_segments (runs.segments.trans carries.segments)
  numbers := by
    have before := runs.before.map Progress.pid
    have after := runs.after.map Progress.pid
    simp only [List.map_cons, List.map_map, Function.comp_def, Process.pid_progress] at before after
    exact transparent.numbers.trans (carries.pids.symm.trans (before.trans after.symm))
  printers := by
    have small : process.pid < kernel.system.nextPid := by
      rw [← carries.nextPid]
      apply sound.numbered
      apply List.mem_map_of_mem
      simp [System.everyone, System.processes, executing]
    intro entry member
    rw [runs.nextPid, carries.nextPid]
    rcases List.mem_append.mp member with old | new
    · exact transparent.printers entry old
    · rcases Option.mem_map.mp (Option.mem_toList.mp new) with ⟨text, _, rfl⟩
      exact small
  follows := by
    intro entry member progress among same placement loads
    have distinct := sound.distinct
    rw [textsOf_append]
    rcases List.mem_cons.mp (runs.after.mem_iff.mp among) with ran | waited
    · have executes : process.progress ∈ kernel.system.everyone.map Process.progress := by
        apply carries.progress.mem_iff.mp
        exact runs.before.mem_iff.mpr List.mem_cons_self
      rw [ran] at same
      rw [if_pos same, ran]
      have before := transparent.follows entry member process.progress executes same placement loads
      exact follows_of_runs transparent.uniform before (same ▸ loads) sound carries executing resumes
        cycle_eq runs quiet ends
    · have before := runs.before.mem_iff.mpr (List.mem_cons_of_mem process.progress waited)
      have different : progress.pid ≠ process.pid := by
        have pids := (runs.before.map Progress.pid).nodup_iff.mp (by
          simpa [List.map_map, Function.comp_def] using distinct)
        intro equal
        have again := List.mem_map_of_mem (f := Progress.pid) waited
        rw [equal] at again
        exact (List.nodup_cons.mp pids).1 again
      rw [if_neg (same ▸ different.symm), List.append_nil]
      apply (transparent.follows entry member progress (carries.progress.mem_iff.mp before) same
        placement loads).carry
      · intro living
        exact carries.living progress.pid (runs.living ▸ living)
      · intro living
        rw [runs.images length progress.pid different]
        exact carries.images length transparent.uniform progress.pid (runs.living ▸ living)
      · exact ending

/-- No command lets a process notice the others. -/
theorem obey (transparent : kernel.Transparent length admitted printed) (order : kernel.InOrder)
    (careful : kernel.Careful command) :
    (kernel.obey command).Transparent length (admitted ++ (kernel.admitted? command).toList)
      (printed ++ (kernel.printed? command).toList) := by
  rcases obey_spec command order careful with ⟨_, steps, ending⟩
  cases steps with
  | carries carries none_admitted none_run =>
      simpa [none_admitted, printed?, none_run] using transparent.carries carries ending
  | admits program admits one_admitted none_run =>
      simpa [one_admitted, printed?, none_run] using
        transparent.admits order.sound admits ending
  | runs between process cycle sound carries executing resumes cycle_eq runs quiet ends
      none_admitted one_run =>
      have pid : cycle.process.pid = process.pid := by rw [cycle_eq, Cpu.cycle_pid]
      simpa [none_admitted, printed?, one_run, pid] using
        transparent.runs sound carries executing resumes cycle_eq runs quiet ends ending

end Transparent

/-- Every state of a run is transparent to all processes. -/
theorem Run.transparent {config : Config} (valid : config.validate = .ok ())
    (even : config.memorySize % config.segmentCount = 0) {kernel : Kernel}
    (run : Run config kernel admitted printed) :
    kernel.Transparent (config.memorySize / config.segmentCount) admitted printed := by
  induction run with
  | boot format =>
      rcases booted_spec valid format with ⟨_, nobody, memory⟩
      rcases Config.validate_eq_ok valid with ⟨positive, fits, _⟩
      refine ⟨?_, by simp [nobody], by simp, by simp⟩
      rw [memory]
      exact Memory.divided_uniform positive fits even
  | obey command run careful transparent => exact transparent.obey (run.inOrder valid) careful

end Kernel

/-! ## What a process has -/

/-- The image of a process that has not ended, as long as a segment: the bytes of its segment, or
those of its swap file and zeros behind them. -/
def System.imageOf? (system : System) (length : Nat) (process : Process) : Option (List UInt8) :=
  match process.residence with
  | some .memory => process.segment.map system.memory.bytes
  | some .disk =>
    (system.files.readBytes (FileSystem.swapName process.pid)).toOption.map (padded length)
  | none => none

theorem System.Sound.imageOf?_eq {system : System} {process : Process} (sound : system.Sound)
    (member : process ∈ system.processes) (length : Nat) :
    system.imageOf? length process = system.storage.image? length process.pid := by
  cases sound.owns.keeps process member with
  | inMemory index segment residence segment_eq held located unswapped =>
      rw [Storage.image?_eq_bytes length held located]
      simp [imageOf?, residence, segment_eq]
  | onDisk image residence segment_eq homeless swapped =>
      rw [Storage.image?_eq_padded length homeless swapped]
      simp [imageOf?, residence, sound.owns.serviceable.readBytes_swap, swapped]

/-- A process is as its program is that was placed alone, after as many cycles: with the same
registers, the same texts printed and, if it has not ended, the same image. -/
structure System.IsAsAlone (system : System) (length : Nat) (process : Process)
    (placement : Placement) (texts : List String) : Prop where
  registers : process.registers = (placement.after process.runningTicks).1.registers
  lastInstruction :
    process.lastInstruction = (placement.after process.runningTicks).1.lastInstruction
  image : process ∈ system.processes → system.imageOf? length process =
    some ((placement.after process.runningTicks).2.memory.bytes placement.segment)
  texts : texts = placement.texts process.runningTicks

namespace Kernel

/-- In every state of a run each program that was admitted has one process, and the process is as the
program would be had it run alone.  The texts by which they are compared are those that the console
displays. -/
theorem isAsAlone_in_run {config : Config} (valid : config.validate = .ok ())
    (even : config.memorySize % config.segmentCount = 0) {kernel : Kernel}
    {admitted : List (Nat × List UInt8)} {printed : List (Nat × String)}
    (run : Run config kernel admitted printed) :
    (admitted.map Prod.fst).Perm (kernel.system.everyone.map Process.pid) ∧
      (kernel.system.everyone.map Process.pid).Nodup ∧
      kernel.console.Displays (printed.map Prod.snd) ∧
      ∀ pid program, (pid, program) ∈ admitted →
        ∀ process ∈ kernel.system.everyone, process.pid = pid → ∀ priority,
          ∃ placement, (Memory.divided (config.memorySize / config.segmentCount) 1).load program pid
              priority = .ok placement ∧
            kernel.system.IsAsAlone (config.memorySize / config.segmentCount) process placement
              (textsOf pid printed) := by
  have sound := (run.inOrder valid).sound
  have transparent := run.transparent valid even
  rcases Config.validate_eq_ok valid with ⟨positive, fits, _⟩
  refine ⟨transparent.numbers, sound.distinct, run.displays, ?_⟩
  intro pid program member process everyone same priority
  rcases Placement.load_divided (Nat.div_pos fits positive) program pid priority with
    ⟨placement, loaded, loads⟩
  have follows := transparent.follows (pid, program) member process.progress
    (List.mem_map_of_mem everyone) same placement loads
  refine ⟨placement, loaded, follows.registers.symm, follows.lastInstruction.symm, ?_,
    follows.texts.symm⟩
  intro living
  rw [sound.imageOf?_eq living]
  exact follows.image (List.mem_map_of_mem living)

/-- Two processes that take turns in the one segment, until one has ended and the other has
printed. -/
theorem isAsAlone_in_run_small :
    ∃ kernel, Run { memorySize := 6, segmentCount := 1, disk := ⟨2, 1, 3⟩, quantum := 1 } kernel
        [(0, [0xA2, 1, 0xA0, 5, 0xFF, 0]), (1, [0xEA])] [(0, "5")] ∧
      kernel.system.everyone.map (fun process => (process.pid, process.runningTicks)) =
        [(0, 3), (1, 2)] ∧
      kernel.console.Displays ["5"] ∧
      ∀ process ∈ kernel.system.everyone, process.pid = 0 → ∃ placement,
        (Memory.divided 6 1).load [0xA2, 1, 0xA0, 5, 0xFF, 0] 0 0 = .ok placement ∧
          kernel.system.IsAsAlone 6 process placement ["5"] := by
  let config : Config := { memorySize := 6, segmentCount := 1, disk := ⟨2, 1, 3⟩, quantum := 1 }
  have followed : (follow ([.enqueue (.loadProgram "A2 01 A0 05 FF 00" none),
      .enqueue (.loadProgram "EA" none), .enqueue .runAllPrograms] ++ List.replicate 13 .pulse)
      (booted config true) [] []).map (fun reached => (reached.2.1, reached.2.2,
        reached.1.system.everyone.map fun process => (process.pid, process.runningTicks))) =
      some ([(0, [0xA2, 1, 0xA0, 5, 0xFF, 0]), (1, [0xEA])], [(0, "5")], [(0, 3), (1, 2)]) := by
    decide +kernel
  rcases Option.map_eq_some_iff.mp followed with ⟨⟨kernel, admitted, printed⟩, reached, same⟩
  simp only [Prod.mk.injEq] at same
  rcases same with ⟨rfl, rfl, ticks⟩
  have run := (@Run.boot config true).follow reached
  rcases isAsAlone_in_run (by decide) (by decide) run with ⟨_, _, displays, alone⟩
  refine ⟨kernel, run, ticks, displays, ?_⟩
  intro process everyone number
  have first := alone 0 [0xA2, 1, 0xA0, 5, 0xFF, 0] List.mem_cons_self process everyone number 0
  have shown : textsOf 0 [(0, "5")] = ["5"] := rfl
  have length : config.memorySize / config.segmentCount = 6 := Nat.div_one 6
  rwa [shown, length] at first

end Kernel

end Timeshare
