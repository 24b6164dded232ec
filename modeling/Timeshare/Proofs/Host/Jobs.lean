import Timeshare.Proofs.Host.Session
import Timeshare.Proofs.Kernel.Admission
import Timeshare.Proofs.Program.JobFile

/-!
# The jobs of a session

A session hands the kernel the text of each job that was read, and the kernel reads that text
again.  Both readings agree, so no job is refused as no program.  Nothing else is handled before the
jobs but the keys of the session, so the jobs come up one after the other, and each is admitted with
the bytes and the priority that were read, or there is no room for it.
-/

namespace Timeshare

namespace System

/-- The image of a process is the program: cut to its segment and filled up with zeros, or cut to
the length of segments in its swap file, and filled up when it is brought into one. -/
inductive Loaded (system : System) (pid : Nat) (program : List UInt8) : Prop
  | inMemory (index : Nat) (segment : Segment) (held : system.memory.holding? pid = some index)
      (located : system.memory.segments[index]? = some segment)
      (bytes : system.memory.bytes segment = padded segment.length program)
  | onDisk (homeless : system.memory.holding? pid = none)
      (image : ∀ length, system.storage.image? length pid =
        some (padded length (program.take system.memory.segmentSize)))

variable {system next : System} {program : List UInt8} {priority : Nat}

theorem Accepts.loaded (accepts : system.Accepts program priority next)
    (homeless : system.memory.holding? system.nextPid = none) :
    next.Loaded system.nextPid program := by
  cases accepts with
  | inMemory memory index segment first bytes changes =>
      exact .inMemory index segment changes.held.1 changes.held.2 bytes
  | onDisk files full stores =>
      refine .onDisk homeless fun length => Storage.image?_eq_padded length homeless ?_
      rw [FileSystem.swapImage, if_pos stores.active, stores.stored]
      rfl

/-- Only when memory is full can a program be refused. -/
theorem enroll_accepts (tidy : system.memory.Tidy)
    (homeless : system.memory.holding? system.nextPid = none)
    (serviceable : system.files.Serviceable)
    (unswapped : system.files.swapImage system.nextPid = none) (program : List UInt8)
    (priority : Nat) :
    (system.memory.isFull = true ∧
        ∃ error, (enroll program priority system).value = (.error error, system)) ∨
      ∃ next, (enroll program priority system).value = (.ok system.nextPid, next) ∧
        system.Accepts program priority next := by
  cases full : system.memory.isFull with
  | false => exact Or.inr (enroll_of_vacant tidy homeless full program priority)
  | true =>
      rcases serviceable.storeSwap system.nextPid (program.take system.memory.segmentSize) with
        ⟨error, refused⟩ | ⟨stored, files, succeeded, _⟩
      · exact Or.inl ⟨rfl, .files error, by simp [enroll, full, refused]⟩
      · have stores := serviceable.storesSwap_of_ok unswapped succeeded
        exact Or.inr ⟨_, by simp [enroll, full, succeeded, register, Process.create],
          .onDisk files full stores⟩

end System

namespace Kernel

/-- What becomes of a kernel that takes a job: the job is admitted with its bytes and its priority,
or with the default one, or memory is full and the disk did not take it. -/
inductive Takes (kernel : Kernel) (job : Job) : Kernel → Prop
  | admits (system : System)
      (accepts : kernel.system.Accepts job.bytes (job.priority.getD defaultPriority) system)
      (loaded : system.Loaded kernel.system.nextPid job.bytes) :
      Takes kernel job ({ kernel with
        clock := kernel.clock + 1
        interrupts := kernel.interrupts.tail
        system }.say s!"Process created with PID {kernel.system.nextPid}")
  | refuses (error : TransferError) (full : kernel.system.memory.isFull = true) :
      Takes kernel job ({ kernel with
        clock := kernel.clock + 1
        interrupts := kernel.interrupts.tail }.say s!"Could not load program: {error.message}")

variable {kernel : Kernel} {config : Config}

theorem handled?_pulse_eq_some_iff {interrupt : Interrupt} :
    kernel.handled? .pulse = some interrupt ↔
      kernel.running = true ∧ kernel.interrupts = interrupt :: kernel.interrupts.tail := by
  rw [handled?]
  cases kernel.interrupts with
  | nil => simp
  | cons first rest => simp

theorem takes_of_parse (valid : config.validate = .ok ()) (reached : kernel.Reached config)
    {job : Job} (parsed : ProgramText.parse job.text = .ok job.bytes)
    (handled : kernel.handled? .pulse = some (.loadProgram job.text job.priority)) :
    kernel.Takes job kernel.pulse.value := by
  rcases reached.steady with ⟨history, steady⟩
  have lodges := (reached.housed valid).lodges
  have homeless := lodges.homeless steady.new_nextPid
  rcases handled?_pulse_eq_some_iff.mp handled with ⟨running, queue⟩
  rw [pulse_handle running queue]
  simp only [handle, Journaled.value_bind, loadProgram, parsed]
  rcases System.enroll_accepts lodges.tidy homeless (reached.serviceable valid)
    (reached.unswapped_nextPid valid) job.bytes (job.priority.getD defaultPriority) with
    ⟨full, error, refused⟩ | ⟨next, enrolled, accepts⟩
  · rw [refused]
    exact .refuses error full
  · rw [enrolled]
    exact .admits next accepts (accepts.loaded homeless)

/-! ## One job after the other -/

end Kernel

/-- What arrives before the programs run.  Handling it raises nothing. -/
def Interrupt.Arrives : Interrupt → Prop
  | .keyboard _ => True
  | .loadProgram _ _ => True
  | _ => False

namespace Kernel

variable {kernel : Kernel} {config : Config}

theorem pulse_of_arrives {interrupt : Interrupt} {rest : InterruptQueue}
    (arrives : interrupt.Arrives) (running : kernel.running = true)
    (queue : kernel.interrupts = interrupt :: rest) :
    kernel.pulse.value.running = true ∧ kernel.pulse.value.interrupts = rest := by
  rw [pulse_handle running queue]
  cases interrupt with
  | keyboard key => exact ⟨running, rfl⟩
  | loadProgram text priority =>
      simp only [handle, Journaled.value_bind, loadProgram]
      cases ProgramText.parse text with
      | error error => exact ⟨running, rfl⟩
      | ok program =>
          simp only [Journaled.value_bind]
          split
          · exact ⟨running, rfl⟩
          · exact ⟨running, rfl⟩
  | _ => exact arrives.elim

/-- A kernel works off what has arrived in as many pulses. -/
theorem run_of_arrives {first rest : InterruptQueue}
    (arrives : ∀ interrupt ∈ first, interrupt.Arrives) (running : kernel.running = true)
    (queue : kernel.interrupts = first ++ rest) :
    (kernel.run first.length).running = true ∧ (kernel.run first.length).interrupts = rest := by
  induction first generalizing kernel with
  | nil => exact ⟨running, queue⟩
  | cons interrupt first hypothesis =>
      have busy : kernel.isBusy = true := by
        simp [isBusy, isIdle, running, queue]
      rcases pulse_of_arrives (arrives interrupt List.mem_cons_self) running queue with
        ⟨runningNext, queueNext⟩
      rw [List.length_cons, run, if_pos busy]
      exact hypothesis (fun other member => arrives other (List.mem_cons_of_mem interrupt member))
        runningNext queueNext

theorem Reached.run (reached : kernel.Reached config) (limit : Nat) :
    (kernel.run limit).Reached config := by
  rcases reached with ⟨format, commands, rfl⟩
  rcases run_eq_obeyAll limit ((booted config format).obeyAll commands) with ⟨pulses, _, ran, _⟩
  exact ⟨format, commands ++ List.replicate pulses .pulse, by rw [ran, obeyAll_append]⟩

theorem running_booted (config : Config) (format : Bool) :
    (booted config format).running = true := by
  cases format with
  | false => rfl
  | true => rfl

/-- Only a pulse can stop the kernel. -/
theorem running_obeyAll {commands : List Command}
    (pulseless : ∀ command ∈ commands, command ≠ .pulse) :
    (kernel.obeyAll commands).running = kernel.running := by
  induction commands generalizing kernel with
  | nil => rfl
  | cons command rest hypothesis =>
      have later : ((kernel.obey command).obeyAll rest).running = (kernel.obey command).running :=
        hypothesis fun other member => pulseless other (List.mem_cons_of_mem command member)
      cases command with
      | pulse => exact absurd rfl (pulseless _ List.mem_cons_self)
      | enqueue interrupt => exact later
      | setSchedule schedule => exact later
      | setQuantum quantum => exact later

end Kernel

namespace Session

/-- The kernel once it was pulsed for each key of the session and for this many jobs. -/
def atJob (session : Session) (jobs : List Job) (index : Nat) : Kernel :=
  (session.prepare jobs).value.run (session.keystrokes.toList.length + index)

theorem reached_atJob (session : Session) (jobs : List Job) (index : Nat) :
    (session.atJob jobs index).Reached session.config := by
  apply Kernel.Reached.run
  exact ⟨_, _, session.prepare_eq jobs⟩

theorem handled?_atJob (session : Session) {jobs : List Job} {index : Nat} {job : Job}
    (found : jobs[index]? = some job) :
    (session.atJob jobs index).handled? .pulse = some (.loadProgram job.text job.priority) := by
  let load (job : Job) : Interrupt := .loadProgram job.text job.priority
  let first : InterruptQueue :=
    session.keystrokes.toList.map .keyboard ++ (jobs.take index).map load
  have inside : index < jobs.length := (List.getElem?_eq_some_iff.mp found).1
  have count : first.length = session.keystrokes.toList.length + index := by
    simp [first, Nat.min_eq_left (Nat.le_of_lt inside)]
  have arrives : ∀ interrupt ∈ first, interrupt.Arrives := by
    intro interrupt member
    rcases List.mem_append.mp member with key | before
    · rcases List.mem_map.mp key with ⟨_, _, rfl⟩
      trivial
    · rcases List.mem_map.mp before with ⟨_, _, rfl⟩
      trivial
  have running : (session.prepare jobs).value.running = true := by
    rw [prepare_eq, Kernel.running_obeyAll fun _ => ne_pulse_of_mem]
    exact Kernel.running_booted _ _
  have queue : (session.prepare jobs).value.interrupts =
      first ++ load job :: ((jobs.drop (index + 1)).map load ++ [.runAllPrograms]) := by
    have split : jobs = jobs.take index ++ job :: jobs.drop (index + 1) := by
      rw [← (List.getElem?_eq_some_iff.mp found).2, ← List.drop_eq_getElem_cons inside,
        List.take_append_drop]
    rw [interrupts_prepare, interrupts]
    conv_lhs => rw [split]
    simp [first, load]
  rw [atJob, ← count, Kernel.handled?_pulse_eq_some_iff]
  rcases Kernel.run_of_arrives arrives running queue with ⟨runs, rest⟩
  exact ⟨runs, by rw [rest, List.tail_cons]⟩

/-- The text of every job that was read spells its bytes.  So a session hands the kernel one job
after the other, and each is admitted as it was read, or there is no place for it. -/
theorem takes_jobs {file : List UInt8} {jobs : List Job} (read : readJobs file = .ok jobs) :
    (∀ job ∈ jobs, ProgramText.parse job.text = .ok job.bytes) ∧
    ∀ (session : Session) (index : Nat) (job : Job), jobs[index]? = some job →
      (session.atJob jobs index).handled? .pulse = some (.loadProgram job.text job.priority) ∧
      (session.config.validate = .ok () →
        (session.atJob jobs index).Takes job (session.atJob jobs index).pulse.value) := by
  refine ⟨fun job member => parse_of_readJobs read member, ?_⟩
  intro session index job found
  have handled := session.handled?_atJob found
  have parsed := parse_of_readJobs read (List.mem_of_getElem? found)
  exact ⟨handled, fun valid =>
    Kernel.takes_of_parse valid (session.reached_atJob jobs index) parsed handled⟩

/-- The second job is cut to the one segment, which the first one is in, and goes to disk. -/
theorem takes_jobs_small :
    ∃ (jobs : List Job) (session : Session) (job : Job),
      readJobs (Text.utf8Bytes
        "// JOB 1F\nA9 07 00\n// END\n // JOB\n\ta9  07\n00 01 02 03 04\n// END\n") = .ok jobs ∧
      jobs[1]? = some job ∧ job.bytes = [0xA9, 7, 0, 1, 2, 3, 4] ∧ job.priority = none ∧
      session.config.validate = .ok () ∧ ProgramText.parse job.text = .ok job.bytes ∧
      (session.atJob jobs 1).Takes job (session.atJob jobs 1).pulse.value ∧
      (session.atJob jobs 1).pulse.value.console.lines.back? =
        some "Process created with PID 1" := by
  let first : Job := ⟨"A9 07 00", [0xA9, 7, 0], some 0x1F⟩
  let second : Job := ⟨"a9  07 00 01 02 03 04", [0xA9, 7, 0, 1, 2, 3, 4], none⟩
  let session : Session :=
    { config := Kernel.tight, maxTicks := 10, schedule := none, quantum := none, keystrokes := "k" }
  have read : readJobs (Text.utf8Bytes
      "// JOB 1F\nA9 07 00\n// END\n // JOB\n\ta9  07\n00 01 02 03 04\n// END\n") =
        .ok [first, second] := by decide +kernel
  have valid : session.config.validate = .ok () := by decide
  have said : (session.atJob [first, second] 1).pulse.value.console.lines.back? =
      some "Process created with PID 1" := by decide +kernel
  rcases takes_jobs read with ⟨same, taken⟩
  exact ⟨_, session, second, read, rfl, rfl, rfl, valid, same second (by simp),
    (taken session 1 second rfl).2 valid, said⟩

end Session

end Timeshare
