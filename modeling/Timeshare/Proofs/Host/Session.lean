import Timeshare.Proofs.Kernel.Clock
import Timeshare.Proofs.Kernel.Quiescence

/-!
# Sessions

A session boots a machine, changes its policy, raises the interrupts of a batch, and then does
nothing but give pulses.  So what holds of a kernel that works off a batch holds of a session,
whatever its jobs are.
-/

namespace Timeshare

namespace Kernel

variable {kernel : Kernel}

/-! ## Before the first pulse -/

theorem obeyAll_enqueue (interrupts : List Interrupt) (kernel : Kernel) :
    kernel.obeyAll (interrupts.map .enqueue) =
      { kernel with interrupts := kernel.interrupts ++ interrupts } := by
  induction interrupts generalizing kernel with
  | nil => simp [obeyAll]
  | cons interrupt rest hypothesis =>
      refine (hypothesis (kernel.enqueue interrupt)).trans ?_
      simp [enqueue, InterruptQueue.enqueue]

/-- Memory and disk are as they were, and no time has passed. -/
structure Awaits (kernel next : Kernel) : Prop where
  memory : next.system.memory = kernel.system.memory
  files : next.system.files = kernel.system.files
  clock : next.clock = kernel.clock

theorem Awaits.trans {next last : Kernel} (first : kernel.Awaits next) (second : next.Awaits last) :
    kernel.Awaits last where
  memory := second.memory.trans first.memory
  files := second.files.trans first.files
  clock := second.clock.trans first.clock

/-- Until a pulse is given the kernel handles nothing and runs nothing. -/
theorem obey_of_ne_pulse {command : Command} (pulseless : command ≠ .pulse) :
    kernel.handled? command = none ∧ kernel.cycle? command = none ∧
      kernel.Awaits (kernel.obey command) := by
  cases command with
  | pulse => exact absurd rfl pulseless
  | enqueue interrupt => exact ⟨rfl, rfl, rfl, rfl, rfl⟩
  | setSchedule schedule => exact ⟨rfl, rfl, rfl, rfl, rfl⟩
  | setQuantum quantum => exact ⟨rfl, rfl, rfl, rfl, rfl⟩

theorem Run.pulseless {config : Config} {admitted : List (Nat × List UInt8)}
    {printed : List (Nat × String)} {commands : List Command}
    (run : Run config kernel admitted printed)
    (pulseless : ∀ command ∈ commands, command ≠ .pulse) :
    Run config (kernel.obeyAll commands) admitted printed ∧
      kernel.Awaits (kernel.obeyAll commands) := by
  induction commands generalizing kernel with
  | nil => exact ⟨run, rfl, rfl, rfl⟩
  | cons command rest hypothesis =>
      rcases kernel.obey_of_ne_pulse (pulseless command List.mem_cons_self) with
        ⟨none_handled, none_run, awaits⟩
      have told := run.obey command fun format => absurd (none_handled.symm.trans format) nofun
      simp only [admitted?, none_handled, printed?, none_run, Option.bind_none, Option.toList_none,
        List.append_nil] at told
      rcases hypothesis told fun other member =>
        pulseless other (List.mem_cons_of_mem command member) with ⟨last, awaitsLast⟩
      exact ⟨last, awaits.trans awaitsLast⟩

theorem holdsSwaps_booted {config : Config} (valid : config.validate = .ok ()) :
    (booted config config.formatDisk).system.files.HoldsSwaps config.disk config.formatDisk := by
  cases format : config.formatDisk with
  | false => exact .unformatted rfl rfl rfl
  | true =>
      rcases Config.validate_eq_ok valid with ⟨_, _, hasBlocks⟩
      have system_eq : (booted config true).system = (loaded config).formatDisk.value.system := rfl
      rw [system_eq, system_formatDisk]
      exact .format hasBlocks rfl

end Kernel

namespace Session

variable {session : Session}

/-- The interrupts that are raised for the keys and for the jobs. -/
def interrupts (session : Session) (jobs : List Job) : List Interrupt :=
  session.keystrokes.toList.map .keyboard ++
    jobs.map (fun job => .loadProgram job.text job.priority) ++ [.runAllPrograms]

/-- How the policy is changed after booting. -/
def settings (session : Session) : List Command :=
  session.schedule.toList.map .setSchedule ++ session.quantum.toList.map .setQuantum

/-- What the host tells a booted kernel before it gives the first pulse. -/
def commands (session : Session) (jobs : List Job) : List Command :=
  session.settings ++ (session.interrupts jobs).map .enqueue

/-- The programs among the texts of the jobs. -/
def programs (jobs : List Job) : List (List UInt8) :=
  jobs.filterMap fun job => (ProgramText.parse job.text).toOption

theorem interrupts_settings (session : Session) (kernel : Kernel) :
    (kernel.obeyAll session.settings).interrupts = kernel.interrupts := by
  unfold settings
  cases session.schedule with
  | none =>
      cases session.quantum with
      | none => rfl
      | some quantum => rfl
  | some schedule =>
      cases session.quantum with
      | none => rfl
      | some quantum => rfl

theorem prepare_eq (session : Session) (jobs : List Job) :
    (session.prepare jobs).value =
      (Kernel.booted session.config session.config.formatDisk).obeyAll (session.commands jobs) := by
  rw [commands, Kernel.obeyAll_append, Kernel.obeyAll_enqueue, interrupts_settings]
  unfold settings
  cases schedule : session.schedule with
  | none =>
      cases quantum : session.quantum with
      | none => simp [prepare, schedule, quantum, Kernel.obeyAll, interrupts, Kernel.booted]
      | some length =>
          simp [prepare, schedule, quantum, Kernel.obeyAll, Kernel.obey, Kernel.setQuantum,
            interrupts, Kernel.booted]
  | some algorithm =>
      cases quantum : session.quantum with
      | none =>
          simp [prepare, schedule, quantum, Kernel.obeyAll, Kernel.obey, Kernel.setSchedule,
            interrupts, Kernel.booted]
      | some length =>
          simp [prepare, schedule, quantum, Kernel.obeyAll, Kernel.obey, Kernel.setSchedule,
            Kernel.setQuantum, interrupts, Kernel.booted]

theorem interrupts_prepare (session : Session) (jobs : List Job) :
    (session.prepare jobs).value.interrupts = session.interrupts jobs := by
  rw [prepare_eq, commands, Kernel.obeyAll_append, Kernel.obeyAll_enqueue, interrupts_settings,
    Kernel.interrupts_booted]
  rfl

/-- The first pulse comes after all that the host tells the kernel beforehand. -/
theorem ne_pulse_of_mem {jobs : List Job} {command : Command}
    (member : command ∈ session.commands jobs) : command ≠ .pulse := by
  rintro rfl
  simp [commands, settings] at member

theorem loadsFollowed_interrupts (session : Session) (jobs : List Job) :
    InterruptQueue.LoadsFollowed (session.interrupts jobs) := by
  have loads : InterruptQueue.LoadsFollowed
      (jobs.map (fun job => .loadProgram job.text job.priority) ++ [.runAllPrograms]) := by
    induction jobs with
    | nil => trivial
    | cons job rest hypothesis => exact ⟨by simp, hypothesis⟩
  rw [interrupts, List.append_assoc]
  induction session.keystrokes.toList with
  | nil => exact loads
  | cons key rest hypothesis => exact hypothesis

theorem programs_interrupts (session : Session) (jobs : List Job) :
    (session.interrupts jobs).filterMap Interrupt.program? = programs jobs := by
  have keys (pressed : List Char) :
      (pressed.map Interrupt.keyboard).filterMap Interrupt.program? = [] := by
    rw [List.filterMap_map]
    exact List.filterMap_eq_nil_iff.mpr fun key _ => rfl
  rw [interrupts, List.filterMap_append, List.filterMap_append, keys, List.filterMap_map]
  simp [programs, Interrupt.program?, Function.comp_def]

theorem ofBatch_of_mem {jobs : List Job} {interrupt : Interrupt}
    (member : interrupt ∈ session.interrupts jobs) : interrupt.OfBatch := by
  simp only [interrupts, List.mem_append, List.mem_map, List.mem_singleton] at member
  rcases member with (⟨key, _, rfl⟩ | ⟨job, _, rfl⟩) | rfl
  · trivial
  · trivial
  · trivial

/-- The first pulse finds the batch waiting, the machine as it was booted, and no time passed. -/
theorem working_prepare (valid : session.config.validate = .ok ()) (jobs : List Job) :
    (session.prepare jobs).value.Working session.config (programs jobs) [] ∧
      (session.prepare jobs).value.clock = 0 := by
  have boot := @Kernel.Run.boot session.config session.config.formatDisk
  rcases Kernel.booted_spec valid session.config.formatDisk with ⟨_, _, divided⟩
  have raised := session.interrupts_prepare jobs
  rw [prepare_eq] at raised ⊢
  rcases boot.pulseless fun _ => ne_pulse_of_mem with ⟨run, awaits⟩
  refine ⟨⟨⟨[], run⟩, ⟨?_, ?_, Or.inr ?_, ?_⟩, ?_, ?_⟩, ?_⟩
  · intro interrupt member
    exact ofBatch_of_mem (raised ▸ member)
  · rw [raised]
    exact session.loadsFollowed_interrupts jobs
  · rw [raised]
    exact List.mem_append_right _ (List.mem_singleton_self _)
  · rw [raised, programs_interrupts]
    exact .refl _
  · rw [awaits.memory, divided]
    exact Array.size_replicate
  · rw [awaits.files]
    exact Kernel.holdsSwaps_booted valid
  · exact awaits.clock.trans (Kernel.clock_booted session.config session.config.formatDisk)

/-! ## What a session leaves behind -/

/-- A session ends after as many pulses as its limit allows, or fewer.  If it ends because nothing
is left to do, then nothing is left behind of the programs that were admitted. -/
theorem quiescent_when_idle (session : Session) (jobs : List Job)
    (valid : session.config.validate = .ok ()) :
    ∃ pulses ≤ session.maxTicks,
      session.execute jobs =
        ((session.prepare jobs).value.obeyAll (List.replicate pulses .pulse)).shutdown.value ∧
      (session.execute jobs).clock = pulses ∧
      (((session.prepare jobs).value.admittedIn (List.replicate pulses .pulse)).map
        Prod.snd).Sublist (programs jobs) ∧
      ((session.execute jobs).isIdle = true →
        (session.execute jobs).system.Quiescent session.config
          ((session.prepare jobs).value.admittedIn (List.replicate pulses .pulse))) := by
  rcases (session.prepare jobs).value.run_eq_obeyAll session.maxTicks with
    ⟨pulses, bound, ran, clock⟩
  rcases working_prepare valid jobs with ⟨start, early⟩
  have working := start.pulses valid pulses
  rw [early, Nat.zero_add] at clock
  rw [← ran, List.nil_append] at working
  refine ⟨pulses, bound, ?_, clock, ?_, ?_⟩
  · rw [execute, ran]
  · exact (List.sublist_append_left _ _).trans working.batch.programs
  · -- Shutting down stops the processor and changes nothing else.
    intro idle
    have quiescent := working.quiescent valid idle
    exact ⟨quiescent.nobody, quiescent.ended, quiescent.once, quiescent.cleared, quiescent.vacant,
      quiescent.unswapped, quiescent.formatted, quiescent.emptied⟩

/-- Two programs that take turns in the one segment, and a text that is no program. -/
theorem quiescent_when_idle_small :
    ∃ (session : Session) (jobs : List Job), session.config.validate = .ok () ∧
      (session.execute jobs).isIdle = true ∧ (session.execute jobs).clock ≤ session.maxTicks ∧
      (session.execute jobs).system.Quiescent session.config
        [(0, [0xEA, 0xEA, 0]), (1, [0xA9, 7, 0])] := by
  let session : Session :=
    { config := { memorySize := 3, segmentCount := 1, disk := ⟨2, 1, 4⟩, quantum := 1 }
      maxTicks := 40
      schedule := some .roundRobin
      quantum := some 2
      keystrokes := "k" }
  let jobs : List Job :=
    [.ofText "EA EA 00" none, .ofText "no program" (some 1), .ofText "A9 07 00" none]
  have valid : session.config.validate = .ok () := by decide
  have idle : (session.execute jobs).isIdle = true ∧ (session.execute jobs).clock = 14 := by
    decide +kernel
  have admitted : (session.prepare jobs).value.admittedIn (List.replicate 14 .pulse) =
      [(0, [0xEA, 0xEA, 0]), (1, [0xA9, 7, 0])] := by decide +kernel
  rcases quiescent_when_idle session jobs valid with ⟨pulses, bound, _, clock, _, quiescent⟩
  rw [idle.2] at clock
  subst clock
  exact ⟨session, jobs, valid, idle.1, idle.2 ▸ bound, admitted ▸ quiescent idle.1⟩

end Session

end Timeshare
