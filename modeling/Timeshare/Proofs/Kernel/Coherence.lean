import Timeshare.Proofs.Kernel.Response
import Timeshare.Proofs.Machine.Atomicity

/-!
# Coherence of the registers

There is one file of registers, and every process keeps its own between its turns.  Whatever the
host does, a process keeps the registers that its own last cycle left, and while it executes the
processor has the same ones.  Only a cycle that did not complete its instruction clears the
processor, and then the end of the process is the next interrupt to be handled.

The history that tells these cases apart is the list of the cycles that were run since booting.
-/

namespace Timeshare

/-! ## Runs without restriction -/

namespace Kernel

/-- The kernel after some commands, one after the other. -/
def obeyAll (commands : List Command) (kernel : Kernel) : Kernel :=
  commands.foldl (fun kernel command => kernel.obey command) kernel

theorem obeyAll_append (commands further : List Command) (kernel : Kernel) :
    kernel.obeyAll (commands ++ further) = (kernel.obeyAll commands).obeyAll further :=
  List.foldl_append

theorem obeyAll_concat (commands : List Command) (command : Command) (kernel : Kernel) :
    kernel.obeyAll (commands ++ [command]) = (kernel.obeyAll commands).obey command :=
  kernel.obeyAll_append commands [command]

theorem obeyAll_append_cons (before since : List Command) (command : Command) (kernel : Kernel) :
    kernel.obeyAll (before ++ command :: since) =
      (kernel.obeyAll (before ++ [command])).obeyAll since := by
  rw [obeyAll_append, obeyAll_concat]
  rfl

/-- The cycles that some commands make the processor run, the first one first. -/
def cycles : List Command → Kernel → List Cycle
  | [], _ => []
  | command :: rest, kernel => (kernel.cycle? command).toList ++ cycles rest (kernel.obey command)

theorem cycles_append (commands further : List Command) (kernel : Kernel) :
    kernel.cycles (commands ++ further) =
      kernel.cycles commands ++ (kernel.obeyAll commands).cycles further := by
  induction commands generalizing kernel with
  | nil => rfl
  | cons command rest hypothesis => simp [cycles, hypothesis, obeyAll]

end Kernel

/-! ## The last cycle of a process -/

/-- The last cycle of a process among some cycles. -/
def lastCycle? (pid : Nat) (history : List Cycle) : Option Cycle :=
  history.reverse.find? fun cycle => cycle.process.pid = pid

/-- The interrupt that the last cycle of a process has raised. -/
def lastRaised? (pid : Nat) (history : List Cycle) : Option Interrupt :=
  (lastCycle? pid history).bind Cycle.raised

/-- The registers and the instruction that the last cycle of a process has left with it. -/
def lastKept (pid : Nat) (history : List Cycle) : Registers × Option UInt8 :=
  match lastCycle? pid history with
  | some cycle => (cycle.process.registers, cycle.process.lastInstruction)
  | none => (.cleared, none)

section History

variable {pid : Nat} {history : List Cycle} {cycle : Cycle}

theorem lastCycle?_append_same (same : cycle.process.pid = pid) :
    lastCycle? pid (history ++ [cycle]) = some cycle := by
  simp [lastCycle?, same]

theorem lastCycle?_append_other (different : cycle.process.pid ≠ pid) :
    lastCycle? pid (history ++ [cycle]) = lastCycle? pid history := by
  simp [lastCycle?, different]

theorem lastCycle?_eq_none (absent : ∀ cycle ∈ history, cycle.process.pid ≠ pid) :
    lastCycle? pid history = none := by
  simpa [lastCycle?] using absent

theorem pid_of_lastCycle? (last : lastCycle? pid history = some cycle) :
    cycle.process.pid = pid := by
  simpa using List.find?_some last

/-- What a process has raised reports its own end. -/
theorem ended?_of_lastRaised? {interrupt : Interrupt}
    (raised : lastRaised? pid history = some interrupt) : interrupt.ended? = some pid := by
  rcases Option.bind_eq_some_iff.mp raised with ⟨cycle, last, raises⟩
  rw [Cycle.ended?_of_raised raises, pid_of_lastCycle? last]

end History

namespace Kernel

/-! ## The invariant -/

/-- The processor has the registers of the process.  If the last cycle of the process has raised an
interrupt instead, the processor is cleared and the interrupt comes next. -/
def Attends (kernel : Kernel) (process : Process) (raised : Option Interrupt) : Prop :=
  match raised with
  | none =>
    kernel.system.cpu.registers = process.registers ∧
      kernel.system.cpu.lastInstruction = process.lastInstruction
  | some interrupt =>
    kernel.system.cpu.registers = .cleared ∧ kernel.system.cpu.lastInstruction = none ∧
      kernel.interrupts.head? = some interrupt

/-- The kernel at rest, after the cycles of a history. -/
structure Steady (kernel : Kernel) (history : List Cycle) : Prop where
  rostered : kernel.system.Rostered
  awake : kernel.system.Awake
  known : ∀ cycle ∈ history, cycle.process.pid < kernel.system.nextPid
  kept : ∀ progress ∈ kernel.system.everyone.map Process.progress,
    (progress.registers, progress.lastInstruction) = lastKept progress.pid history
  waiting : ∀ pid ∈ (kernel.system.ready ++ kernel.system.resident).map Process.pid,
    lastRaised? pid history = none
  attends : ∀ process, kernel.system.executing = some process →
    kernel.Attends process (lastRaised? process.pid history)

namespace Steady

variable {kernel next : Kernel} {history : List Cycle}

theorem mem_processes_iff {system : System} {pid : Nat} :
    pid ∈ system.processes.map Process.pid ↔
      (∃ process, system.executing = some process ∧ process.pid = pid) ∨
        pid ∈ (system.ready ++ system.resident).map Process.pid := by
  simp [System.processes]

/-- The processor has the registers of the executing process, or the end of the process comes
next. -/
theorem settled_or_ending (steady : kernel.Steady history) :
    kernel.system.Settled ∨ ∃ process interrupt, kernel.system.executing = some process ∧
      kernel.interrupts.head? = some interrupt ∧ interrupt.ended? = some process.pid := by
  cases executing : kernel.system.executing with
  | none => exact Or.inl (.of_idle executing)
  | some process =>
      have attends := steady.attends process executing
      cases raised : lastRaised? process.pid history with
      | none =>
          rw [raised] at attends
          refine Or.inl fun other executes => ?_
          rw [executing, Option.some.injEq] at executes
          exact executes ▸ attends
      | some interrupt =>
          rw [raised] at attends
          exact Or.inr ⟨process, interrupt, rfl, attends.2.2, ended?_of_lastRaised? raised⟩

/-- The processes that have not ended, unless their end comes next, have raised nothing. -/
theorem none_raised (steady : kernel.Steady history) {pid : Nat}
    (member : pid ∈ kernel.system.processes.map Process.pid)
    (endless : ∀ interrupt, kernel.interrupts.head? = some interrupt →
      interrupt.ended? ≠ some pid) : lastRaised? pid history = none := by
  rcases mem_processes_iff.mp member with ⟨process, executing, rfl⟩ | waiting
  · have attends := steady.attends process executing
    cases raised : lastRaised? process.pid history with
    | none => rfl
    | some interrupt =>
        rw [raised] at attends
        exact absurd (ended?_of_lastRaised? raised) (endless interrupt attends.2.2)
  · exact steady.waiting pid waiting

/-- Nobody has run, and the processor has the registers of the executing process. -/
theorem of_settled (steady : kernel.Steady history) (rostered : next.system.Rostered)
    (awake : next.system.Awake) (settled : next.system.Settled)
    (change : kernel.system.Retains next.system ∨ kernel.system.Enrolls next.system)
    (quiet : ∀ pid ∈ next.system.processes.map Process.pid,
      pid = kernel.system.nextPid ∨ lastRaised? pid history = none) : next.Steady history := by
  have unknown : lastCycle? kernel.system.nextPid history = none := by
    apply lastCycle?_eq_none
    intro cycle member
    exact Nat.ne_of_lt (steady.known cycle member)
  have none_raised : ∀ pid ∈ next.system.processes.map Process.pid,
      lastRaised? pid history = none := by
    intro pid member
    rcases quiet pid member with rfl | raised
    · rw [lastRaised?, unknown, Option.bind_none]
    · exact raised
  refine ⟨rostered, awake, ?_, ?_, ?_, ?_⟩
  · intro cycle member
    have before := steady.known cycle member
    rcases change with retains | enrolls
    · rw [retains.nextPid]
      exact before
    · rw [enrolls.nextPid]
      exact Nat.lt_succ_of_lt before
  · intro progress member
    rcases change with retains | enrolls
    · exact steady.kept progress (retains.progress.mem_iff.mp member)
    · rcases List.mem_cons.mp (enrolls.progress.mem_iff.mp member) with rfl | before
      · rw [lastKept, unknown]
      · exact steady.kept progress before
  · intro pid member
    exact none_raised pid (mem_processes_iff.mpr (Or.inr member))
  · intro process executing
    rw [none_raised process.pid (mem_processes_iff.mpr (Or.inl ⟨process, executing, rfl⟩))]
    exact settled process executing

/-- Nobody has run or changed places, and what comes next still does. -/
theorem of_waiting (steady : kernel.Steady history) (inPlace : next.system.InPlace)
    (retains : kernel.system.Retains next.system)
    (executing : next.system.executing = kernel.system.executing)
    (cpu : next.system.cpu = kernel.system.cpu)
    (queues : ∀ pid ∈ (next.system.ready ++ next.system.resident).map Process.pid,
      pid ∈ (kernel.system.ready ++ kernel.system.resident).map Process.pid)
    (head : ∀ interrupt, kernel.interrupts.head? = some interrupt →
      next.interrupts.head? = some interrupt) : next.Steady history := by
  refine ⟨steady.rostered.retain retains inPlace, ?_, ?_, ?_, ?_, ?_⟩
  · intro process executes
    exact steady.awake process (executing ▸ executes)
  · rw [retains.nextPid]
    exact steady.known
  · intro progress member
    exact steady.kept progress (retains.progress.mem_iff.mp member)
  · intro pid member
    exact steady.waiting pid (queues pid member)
  · intro process executes
    have attends := steady.attends process (executing ▸ executes)
    cases raised : lastRaised? process.pid history with
    | none =>
        rw [raised] at attends
        rw [Attends, cpu]
        exact attends
    | some interrupt =>
        rw [raised] at attends
        rw [Attends, cpu]
        exact ⟨attends.1, attends.2.1, head interrupt attends.2.2⟩

/-! ## One command -/

theorem responds (steady : kernel.Steady history) {interrupt : Interrupt} {rest : InterruptQueue}
    (queue : kernel.interrupts = interrupt :: rest) :
    kernel.system.Responds interrupt
      ({ kernel with clock := kernel.clock + 1, interrupts := rest }.handle interrupt).value.system := by
  rw [system_handle]
  apply System.respond_responds interrupt steady.rostered steady.awake
  rcases steady.settled_or_ending with settled | ⟨process, next, executing, head, ends⟩
  · exact Or.inl settled
  · rw [queue, List.head?_cons, Option.some.injEq] at head
    exact Or.inr ⟨process, executing, head ▸ ends⟩

theorem handle (steady : kernel.Steady history) {interrupt : Interrupt} {rest : InterruptQueue}
    (queue : kernel.interrupts = interrupt :: rest) :
    ({ kernel with clock := kernel.clock + 1, interrupts := rest }.handle interrupt).value.Steady
      history := by
  have responds := steady.responds queue
  apply steady.of_settled responds.rostered responds.awake responds.settled responds.change
  intro pid member
  rcases responds.living member with new | before
  · exact Or.inl new
  · refine Or.inr (steady.none_raised before ?_)
    intro next head ends
    rw [queue, List.head?_cons, Option.some.injEq] at head
    exact responds.ended pid (head ▸ ends) member

/-- After a cycle the processor has the registers of the process, or the end of the process comes
next. -/
theorem attends_of_cycle {cpu : Cpu} {process : Process} {memory : Memory} {cycle : Cycle}
    {policy : Policy} (ran : cpu.cycle process memory = cycle)
    (cpu_eq : next.system.cpu = cycle.cpu)
    (interrupts_eq : next.interrupts = interruptsAfter cycle policy []) :
    next.Attends cycle.process.ticked cycle.raised := by
  cases raised : cycle.raised with
  | none =>
      have completed := Cycle.completed_iff.mpr raised
      rw [← ran] at completed
      rw [Attends, cpu_eq, ← ran]
      exact Cpu.cycle_saved completed
  | some interrupt =>
      have incomplete : cycle.outcome ≠ .completed := by simp [Cycle.completed_iff, raised]
      rw [← ran] at incomplete
      have ineffective := Cpu.cycle_ineffective incomplete
      rw [ran] at ineffective
      rw [Attends, interrupts_eq, cpu_eq]
      exact ⟨ineffective.registers, ineffective.lastInstruction, head?_interruptsAfter raised _⟩

/-- The executing process runs a cycle, and is left with its registers or with its end. -/
theorem runCycle (steady : kernel.Steady history) (quiet : kernel.interrupts = []) {system : System}
    {process : Process} (inPlace : system.InPlace) (retains : kernel.system.Retains system)
    (executing : system.executing = some process) :
    ({ kernel with clock := kernel.clock + 1, system }.runCycle process).value.Steady
      (history ++ [(system.cpu.setExecuting true).cycle process system.memory]) := by
  have rostered := steady.rostered.retain retains inPlace
  generalize ran : (system.cpu.setExecuting true).cycle process system.memory = cycle
  have pid : cycle.process.pid = process.pid := by rw [← ran, Cpu.cycle_pid]
  rcases System.cycle_rostered rostered executing (system.cpu.setExecuting true)
    (system.policy.didCycle process.pid) ran.symm with ⟨rosteredNext, awake⟩
  rcases System.progress_afterCycle executing ran.symm (system.policy.didCycle process.pid) with
    ⟨before_cycle, after_cycle⟩
  have next_eq : ({ kernel with clock := kernel.clock + 1, system }.runCycle process).value.system =
      system.afterCycle cycle (system.policy.didCycle process.pid) := by
    rw [← ran]
    rfl
  have interrupts_eq :
      ({ kernel with clock := kernel.clock + 1, system }.runCycle process).value.interrupts =
        interruptsAfter cycle (system.policy.didCycle process.pid) [] := by
    rw [← ran, ← quiet]
    rfl
  have known : process.pid < kernel.system.nextPid := by
    rw [← retains.nextPid]
    apply rostered.pid_lt_nextPid
    simp [System.everyone, System.processes, executing]
  have others := rostered.not_mem_others executing
  refine ⟨?_, ?_, ?_, ?_, ?_, ?_⟩
  · rw [next_eq]
    exact rosteredNext
  · rw [next_eq]
    exact awake
  · intro other member
    have given : (system.afterCycle cycle (system.policy.didCycle process.pid)).nextPid =
        kernel.system.nextPid := retains.nextPid
    rw [next_eq, given]
    rcases List.mem_append.mp member with before | now
    · exact steady.known other before
    · rw [List.mem_singleton.mp now, pid]
      exact known
  · intro progress member
    rw [next_eq, after_cycle] at member
    rcases List.mem_cons.mp member with rfl | other
    · rw [lastKept, lastCycle?_append_same pid]
    · have before : progress ∈ kernel.system.everyone.map Process.progress := by
        apply retains.progress.mem_iff.mp
        rw [before_cycle]
        exact List.mem_cons_of_mem _ other
      have different : cycle.process.pid ≠ progress.pid := by
        intro same
        rcases List.mem_map.mp other with ⟨someone, among, rfl⟩
        exact others (pid ▸ same ▸ List.mem_map_of_mem among)
      rw [lastKept, lastCycle?_append_other different]
      exact steady.kept progress before
  · intro other member
    have queued : other ∈ (system.ready ++ system.resident).map Process.pid := by
      rw [next_eq] at member
      exact System.map_waited_append Process.pid (fun _ => rfl) system.ready system.resident ▸ member
    have different : cycle.process.pid ≠ other := by
      intro same
      apply others
      rw [List.map_append, ← pid, same]
      exact List.mem_append_left _ queued
    have living := rostered.living_of_retains retains (mem_processes_iff.mpr (Or.inr queued))
    rw [lastRaised?, lastCycle?_append_other different]
    exact steady.none_raised living (by simp [quiet])
  · intro other executes
    rw [next_eq] at executes
    cases executes
    rw [lastRaised?, lastCycle?_append_same rfl, Option.bind_some]
    exact attends_of_cycle ran (by rw [next_eq]; rfl) interrupts_eq

/-- A pulse without an interrupt to handle runs a cycle, if some process can get the processor. -/
theorem execute (steady : kernel.Steady history) (running : kernel.running = true)
    (quiet : kernel.interrupts = []) (busy : kernel.system.isIdle = false) :
    ({ kernel with clock := kernel.clock + 1 }.execute).value.Steady
      (history ++ (kernel.cycle? .pulse).toList) := by
  rcases System.dispatch_retains steady.rostered.toInPlace with
    ⟨result, system, dispatched, inPlace, retains, failed⟩
  rcases execute_cases running quiet busy dispatched failed with
    ⟨idle, none_run, next_eq⟩ | ⟨process, executes, one_run, next_eq⟩
  · have rostered := steady.rostered.retain retains inPlace
    rw [none_run, Option.toList_none, List.append_nil]
    apply steady.of_settled
    · rw [next_eq]
      exact rostered
    · rw [next_eq]
      simp [System.Awake, idle]
    · rw [next_eq]
      exact .of_idle idle
    · rw [next_eq]
      exact Or.inl retains
    · intro pid member
      rw [next_eq] at member
      have living := rostered.living_of_retains retains member
      exact Or.inr (steady.none_raised living (by simp [quiet]))
  · rw [one_run, Option.toList_some, next_eq]
    exact steady.runCycle quiet inPlace retains executes

theorem of_none_run (steady : kernel.Steady history) {run : Option Cycle} (none_run : run = none) :
    kernel.Steady (history ++ run.toList) := by
  rwa [none_run, Option.toList_none, List.append_nil]

theorem pulse (steady : kernel.Steady history) :
    kernel.pulse.value.Steady (history ++ (kernel.cycle? .pulse).toList) := by
  have pulses := kernel.pulse_pulses
  generalize kernel.pulse.value = next at pulses ⊢
  cases pulses with
  | stopped running => exact steady.of_none_run (by simp [cycle?, running])
  | handles interrupt rest running queue =>
      exact (steady.handle queue).of_none_run (by simp [cycle?, queue])
  | executes running quiet busy => exact steady.execute running quiet busy
  | idles running quiet idle =>
      apply of_none_run _ (by simp [cycle?, idle])
      exact steady.of_waiting steady.rostered.toInPlace (.refl _) rfl rfl
        (fun _ member => member) (fun _ head => head)

/-- Whatever the host says, the kernel stays steady. -/
theorem obey (steady : kernel.Steady history) (command : Command) :
    (kernel.obey command).Steady (history ++ (kernel.cycle? command).toList) := by
  cases command with
  | pulse => exact steady.pulse
  | enqueue interrupt =>
      apply of_none_run _ rfl
      refine steady.of_waiting steady.rostered.toInPlace (.refl _) rfl rfl (fun _ member => member) ?_
      intro next head
      cases queue : kernel.interrupts with
      | nil => simp [queue] at head
      | cons first rest =>
          simpa [Kernel.obey, enqueue, InterruptQueue.enqueue, queue] using head
  | setSchedule schedule =>
      rcases System.setSchedule_retains steady.rostered.toInPlace schedule with ⟨inPlace, retains⟩
      apply of_none_run _ rfl
      refine steady.of_waiting inPlace retains rfl rfl ?_ fun _ head => head
      intro pid member
      have order := (System.ready_setSchedule_perm schedule kernel.system).append_right
        kernel.system.resident
      exact (order.map Process.pid).mem_iff.mp member
  | setQuantum quantum =>
      apply of_none_run _ rfl
      refine steady.of_waiting ?_ (.of_processes rfl .rfl rfl rfl) rfl rfl (fun _ member => member)
        fun _ head => head
      exact ⟨steady.rostered.executing, steady.rostered.ready, steady.rostered.resident,
        steady.rostered.terminated, steady.rostered.ascending⟩

theorem obeyAll (steady : kernel.Steady history) (commands : List Command) :
    (kernel.obeyAll commands).Steady (history ++ kernel.cycles commands) := by
  induction commands generalizing kernel history with
  | nil => simpa [Kernel.obeyAll, cycles] using steady
  | cons command rest hypothesis =>
      have next := hypothesis (steady.obey command)
      rwa [List.append_assoc] at next

/-- What every command preserves, the commands preserve one after the other. -/
theorem along (steady : kernel.Steady history) (invariant : Kernel → List Cycle → Prop)
    (holds : invariant kernel history) {commands : List Command}
    (step : ∀ {kernel : Kernel} {history : List Cycle}, ∀ command ∈ commands,
      kernel.Steady history → invariant kernel history →
        invariant (kernel.obey command) (history ++ (kernel.cycle? command).toList)) :
    invariant (kernel.obeyAll commands) (history ++ kernel.cycles commands) := by
  induction commands generalizing kernel history with
  | nil => simpa [Kernel.obeyAll, cycles] using holds
  | cons command rest hypothesis =>
      have next := hypothesis (steady.obey command)
        (step command List.mem_cons_self steady holds)
        fun other member => step other (List.mem_cons_of_mem command member)
      rwa [List.append_assoc] at next

end Steady

/-! ## Booting -/

theorem system_booted (config : Config) (format : Bool) :
    ∃ files, (booted config format).system = { (loaded config).system with files } ∧
      ((loaded config).system.files.Serviceable → files.Serviceable) := by
  cases format with
  | false => exact ⟨(loaded config).system.files, rfl, id⟩
  | true =>
      refine ⟨_, system_formatDisk (loaded config), fun serviceable => ?_⟩
      rcases serviceable.format with ⟨report, next, formatted, kept, _⟩
      rw [formatted]
      exact kept

theorem steady_booted (config : Config) (format : Bool) : (booted config format).Steady [] := by
  rcases system_booted config format with ⟨files, system_eq, _⟩
  constructor
  · rw [system_eq]
    exact ⟨⟨by rintro process ⟨⟩, by rintro standing ⟨⟩, by rintro standing ⟨⟩, by rintro process ⟨⟩,
      List.Pairwise.nil⟩, .nil⟩
  · rw [system_eq]
    rintro process ⟨⟩
  · rintro cycle ⟨⟩
  · rw [system_eq]
    rintro progress ⟨⟩
  · rintro pid member
    rfl
  · rw [system_eq]
    rintro process ⟨⟩

/-- Whatever the host has said since booting, the kernel is steady. -/
theorem steady_obeyAll (config : Config) (format : Bool) (commands : List Command) :
    ((booted config format).obeyAll commands).Steady ((booted config format).cycles commands) :=
  (steady_booted config format).obeyAll commands

/-! ## Coherence -/

/-- The registers are where they belong.  A process that waits is fresh.  The processor has the
registers of the executing process, or it is cleared and the interrupt that the last cycle of the
process has raised comes next.  Every process has the registers that its own last cycle left, and a
context switch saves nothing else. -/
structure Coherent (kernel : Kernel) (history : List Cycle) : Prop where
  ready : ∀ process ∈ kernel.system.ready, process.fresh = true
  resident : ∀ process ∈ kernel.system.resident, process.fresh = true
  executing : ∀ process, kernel.system.executing = some process →
    process.fresh = false ∧ kernel.Attends process (lastRaised? process.pid history)
  own : ∀ process ∈ kernel.system.everyone,
    (process.registers, process.lastInstruction) = lastKept process.pid history
  switching : kernel.interrupts.head? = some .contextSwitch → ∀ process,
    kernel.system.executing = some process → kernel.system.cpu.saveInto process = process

theorem coherent_after_commands (config : Config) (format : Bool) (commands : List Command) :
    ((booted config format).obeyAll commands).Coherent
      ((booted config format).cycles commands) := by
  have steady := steady_obeyAll config format commands
  refine ⟨?_, ?_, ?_, ?_, ?_⟩
  · intro process member
    exact congrArg Prod.snd (steady.rostered.ready _ (List.mem_map_of_mem member))
  · intro process member
    exact congrArg Prod.snd (steady.rostered.resident _ (List.mem_map_of_mem member))
  · intro process executing
    exact ⟨steady.awake process executing, steady.attends process executing⟩
  · intro process member
    exact steady.kept process.progress (List.mem_map_of_mem member)
  · intro switches process executing
    rcases steady.settled_or_ending with settled | ⟨other, interrupt, _, head, ends⟩
    · rcases settled process executing with ⟨registers, last⟩
      rw [Cpu.saveInto, registers, last]
    · rw [switches, Option.some.injEq] at head
      rw [← head] at ends
      cases ends

end Kernel

end Timeshare
