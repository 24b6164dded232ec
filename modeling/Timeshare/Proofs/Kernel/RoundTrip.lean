import Timeshare.Proofs.Kernel.Coherence

/-!
# Rolling out and rolling in

A process that is moved to disk lies there untouched until it is brought back.  Then it finds the
bytes it had, as far as its new segment reaches, and zeros where the new segment reaches further
than the old one.  The segments are of one length unless memory leaves a remainder, which the last
segment takes; only then does the process find another address space than it had.
-/

namespace Timeshare

/-! ## The image of a process -/

namespace Storage

/-- The image of the process `pid`, in a segment or in a swap file. -/
inductive Stores (storage : Storage) (pid : Nat) (image : List UInt8) : Prop
  | inMemory (index : Nat) (segment : Segment) (held : storage.memory.holding? pid = some index)
      (located : storage.memory.segments[index]? = some segment)
      (image_eq : image = storage.memory.bytes segment)
  | onDisk (homeless : storage.memory.holding? pid = none)
      (swapped : storage.files.swapImage pid = some image)

variable {storage next : Storage} {processes others : List Process} {pid : Nat}
  {image other : List UInt8}

theorem Stores.eq_bytes (stores : storage.Stores pid image) {index : Nat} {segment : Segment}
    (held : storage.memory.holding? pid = some index)
    (located : storage.memory.segments[index]? = some segment) :
    image = storage.memory.bytes segment := by
  cases stores with
  | inMemory there found heldThere locatedThere image_eq =>
      obtain rfl : there = index := Option.some.inj (heldThere.symm.trans held)
      obtain rfl : found = segment := Option.some.inj (locatedThere.symm.trans located)
      exact image_eq
  | onDisk homeless => simp [homeless] at held

namespace Owns

theorem unswapped_of_held (owns : storage.Owns processes) {index : Nat}
    (held : storage.memory.holding? pid = some index) : storage.files.swapImage pid = none := by
  rcases List.mem_map.mp (owns.held pid index held) with ⟨process, member, rfl⟩
  cases owns.keeps process member with
  | inMemory _ _ _ _ _ _ unswapped => exact unswapped
  | onDisk _ _ _ homeless => simp [homeless] at held

theorem eq_of_swapped (owns : storage.Owns processes) (stores : storage.Stores pid image)
    (swapped : storage.files.swapImage pid = some other) : other = image := by
  cases stores with
  | inMemory _ _ held => simp [owns.unswapped_of_held held] at swapped
  | onDisk _ kept => exact Option.some.inj (swapped.symm.trans kept)

end Owns

namespace Moves

/-- What is in a swap file after a move is the image there was. -/
theorem eq_of_swapped (moves : storage.Moves next pid) (owns : storage.Owns processes)
    (ownsNext : next.Owns others) (stores : storage.Stores pid image)
    (swapped : next.files.swapImage pid = some other) : other = image := by
  cases moves with
  | spared spares => exact owns.eq_of_swapped stores (spares.swapped ▸ swapped)
  | out index segment held located _ stored =>
      rw [stores.eq_bytes held located]
      exact Option.some.inj (swapped.symm.trans stored)
  | back _ _ _ _ _ held => simp [ownsNext.unswapped_of_held held] at swapped
  | again _ _ _ _ _ _ held => simp [ownsNext.unswapped_of_held held] at swapped

/-- What is in a segment after a move is the image there was, cut and filled to the segment. -/
theorem bytes_eq_padded (moves : storage.Moves next pid) (owns : storage.Owns processes)
    (stores : storage.Stores pid image) {index : Nat} {segment : Segment}
    (held : next.memory.holding? pid = some index)
    (located : next.memory.segments[index]? = some segment)
    (segments : next.memory.segments = storage.memory.segments) :
    next.memory.bytes segment = padded segment.length image := by
  cases moves with
  | spared spares =>
      rw [spares.held] at held
      rw [segments] at located
      have whole := Memory.length_bytes (owns.inside located)
      rw [spares.bytes index segment held located, stores.eq_bytes held located,
        padded_of_length whole]
  | out _ _ _ _ homeless => simp [homeless] at held
  | back stored there found _ swapped heldThere locatedThere bytes =>
      obtain rfl : there = index := Option.some.inj (heldThere.symm.trans held)
      obtain rfl : found = segment := Option.some.inj (locatedThere.symm.trans located)
      rw [bytes, owns.eq_of_swapped stores swapped]
  | again before there old found heldBefore locatedBefore heldThere locatedThere bytes =>
      obtain rfl : there = index := Option.some.inj (heldThere.symm.trans held)
      obtain rfl : found = segment := Option.some.inj (locatedThere.symm.trans located)
      rw [bytes, stores.eq_bytes heldBefore locatedBefore]

end Moves

end Storage

namespace Memory

variable {memory next : Memory} {process arrived : Process} {old new : Segment}

/-- What a process reads in another segment, filled with the bytes of its old one. -/
theorem read_of_padded (located : process.segment = some old) (inside : old.Inside memory.store)
    (locatedNext : arrived.segment = some new) (insideNext : new.Inside next.store)
    (same : arrived.pid = process.pid) (bytes : next.bytes new = padded new.length (memory.bytes old))
    (address : Nat) :
    next.read arrived address =
      if new.length ≤ address then .error (.segmentationFault process.pid address)
      else if old.length ≤ address then .ok 0
      else memory.read process address := by
  rw [read_eq locatedNext insideNext, bytes, getElem?_padded, same]
  by_cases beyond : new.length ≤ address
  · rw [if_neg (by omega), if_pos beyond]
  rw [if_pos (by omega), if_neg beyond]
  by_cases filled : old.length ≤ address
  · have absent : (memory.bytes old)[address]? = none := by
      rw [getElem?_bytes inside, if_neg (by omega)]
    rw [absent, if_pos filled]
    rfl
  · have present : address < (memory.bytes old).length := by
      rw [length_bytes inside]
      omega
    rw [read_eq located inside, if_neg filled, List.getElem?_eq_getElem present]
    rfl

/-- It reads the same everywhere just if the segments have the same length. -/
theorem read_eq_iff_of_padded (located : process.segment = some old)
    (inside : old.Inside memory.store) (locatedNext : arrived.segment = some new)
    (insideNext : new.Inside next.store) (same : arrived.pid = process.pid)
    (bytes : next.bytes new = padded new.length (memory.bytes old)) :
    (∀ address, next.read arrived address = memory.read process address) ↔
      new.length = old.length := by
  have whole := length_bytes inside
  constructor
  · intro agree
    -- Where the shorter segment ends, only one of the two reads faults.
    rcases Nat.lt_trichotomy new.length old.length with shorter | equal | longer
    · have lost := agree new.length
      have present : new.length < (memory.bytes old).length := by omega
      rw [read_eq locatedNext insideNext, read_eq located inside, bytes, getElem?_padded,
        if_neg (Nat.lt_irrefl _), List.getElem?_eq_getElem present] at lost
      cases lost
    · exact equal
    · have gained := agree old.length
      have absent : (memory.bytes old)[old.length]? = none := by
        rw [getElem?_bytes inside, if_neg (Nat.lt_irrefl _)]
      rw [read_eq locatedNext insideNext, read_eq located inside, bytes, getElem?_padded,
        if_pos longer, absent] at gained
      cases gained
  · intro equal address
    rw [read_eq locatedNext insideNext, read_eq located inside, bytes,
      padded_of_length (whole.trans equal.symm), same]

end Memory

/-! ## Interrupts and swap files -/

namespace System

variable {system : System} {interrupt : Interrupt}

/-- Unless it is to switch, an interrupt leaves the swap files of the processes that do not end. -/
theorem respond_swapImage (sound : system.Sound) (keeps : interrupt ≠ .contextSwitch)
    (careful : interrupt = .fileSystem .format →
      ∀ process ∈ system.processes, process.isOnDisk = false) {pid : Nat}
    (living : pid ∈ (system.respond interrupt).processes.map Process.pid)
    (old : pid < system.nextPid) :
    (system.respond interrupt).files.swapImage pid = system.files.swapImage pid := by
  have terminated (ended : Nat) (living : pid ∈
      (system.terminate ended).value.2.processes.map Process.pid) :
      (system.terminate ended).value.2.files.swapImage pid = system.files.swapImage pid := by
    rcases terminate_spec sound ended with ⟨result, next, terminates, _, _, _, _, spares⟩
    rw [terminates] at living ⊢
    exact (spares pid living).swapped
  cases interrupt with
  | timer => rfl
  | keyboard key => rfl
  | loadProgram text priority =>
      rw [respond]
      cases ProgramText.parse text with
      | error error => rfl
      | ok program =>
          rcases enroll_spec sound.owns sound.nextPid_not_living program
            (priority.getD defaultPriority) with
            ⟨error, refused⟩ | ⟨process, memory, files, enrolled, _, _, _, spares, _⟩
          · simp only [refused]
          · simp only [enrolled]
            exact (spares pid (Nat.ne_of_lt old)).swapped
  | runProgram number =>
      rw [respond]
      cases activated : system.activate? number with
      | none => rfl
      | some next =>
          rcases activate?_eq_some sound.distinct_resident activated with
            ⟨_, _, _, _, _, _, rfl⟩
          rfl
  | breakProgram ended => exact terminated ended living
  | errProgram ended => exact terminated ended living
  | requestClearMemory =>
      rw [respond]
      cases cleared : system.clearMemory? with
      | none => rfl
      | some outcome =>
          rcases clearMemory?_eq_some cleared with ⟨_, _, next_eq⟩
          simp only [next_eq]
  | contextSwitch => exact absurd rfl keeps
  | runAllPrograms =>
      rcases activateAll_eq system with ⟨queue, next_eq, _⟩
      rw [respond]
      split
      · rfl
      · rw [wake, next_eq]
  | killProgram ended => exact terminated ended living
  | fileSystem request =>
      by_cases format : request = .format
      · subst format
        rcases sound.owns.serviceable.serve_format with ⟨report, files, served, _, dropped⟩
        rw [respond, served, dropped, sound.unswapped_of_nobody (careful rfl)]
      · exact (sound.owns.serviceable.serve format).2 pid
  | unrecognized number => rfl

/-- A process of this number lies on disk. -/
def LiesOnDisk (pid : Nat) (system : System) : Prop :=
  ∃ process ∈ system.processes, process.pid = pid ∧ process.isOnDisk = true

instance (pid : Nat) (system : System) : Decidable (system.LiesOnDisk pid) :=
  inferInstanceAs (Decidable (∃ process ∈ system.processes, _))

theorem LiesOnDisk.mem {pid : Nat} (lies : system.LiesOnDisk pid) :
    pid ∈ system.processes.map Process.pid := by
  rcases lies with ⟨process, member, rfl, _⟩
  exact List.mem_map_of_mem member

theorem Sound.swapped_of_lies {pid : Nat} (sound : system.Sound) (lies : system.LiesOnDisk pid) :
    ∃ image, system.files.swapImage pid = some image ∧ system.memory.holding? pid = none := by
  rcases lies with ⟨process, member, rfl, onDisk⟩
  cases sound.owns.keeps process member with
  | inMemory _ _ residence => simp [Process.isOnDisk, residence] at onDisk
  | onDisk image _ _ homeless swapped => exact ⟨image, swapped, homeless⟩

theorem Sound.held_of_isInMemory {process : Process} (sound : system.Sound)
    (member : process ∈ system.processes) (inMemory : process.isInMemory = true) :
    ∃ index segment, system.memory.holding? process.pid = some index ∧
      system.memory.segments[index]? = some segment ∧ process.segment = some segment ∧
      system.files.swapImage process.pid = none := by
  cases sound.owns.keeps process member with
  | inMemory index segment _ segment_eq held located unswapped =>
      exact ⟨index, segment, held, located, segment_eq, unswapped⟩
  | onDisk _ residence => simp [Process.isInMemory, residence] at inMemory

end System

namespace Kernel

variable {kernel next : Kernel} {command : Command}

/-- The system when a command has given the processor to the next process, before the process runs
a cycle. -/
def dispatched? (command : Command) (kernel : Kernel) : Option System :=
  match command with
  | .pulse =>
    if kernel.running then
      match kernel.interrupts.head? with
      | none => if kernel.system.isIdle then none else some kernel.system.dispatch.value.2
      | some interrupt =>
        if interrupt = .contextSwitch then some kernel.system.contextSwitch.value.2 else none
    else none
  | _ => none

/-- What a command does to the images on disk: it leaves those of the processes that do not end, or
it moves images when it gives the processor to another process. -/
inductive Shifts (kernel : Kernel) (command : Command) (next : Kernel) : Prop
  | rests (none_dispatched : kernel.dispatched? command = none)
      (swapped : ∀ pid ∈ next.system.processes.map Process.pid, pid < kernel.system.nextPid →
        next.system.files.swapImage pid = kernel.system.files.swapImage pid)
  | turns (between : System) (dispatched : kernel.dispatched? command = some between)
      (sound : between.Sound) (segments : between.memory.segments = kernel.system.memory.segments)
      (moves : ∀ pid ∈ between.processes.map Process.pid,
        kernel.system.storage.Moves between.storage pid)
      (files : next.system.files = between.files)
      (living : next.system.processes.map Process.pid = between.processes.map Process.pid)

/-- Once the processor was given away, running a cycle moves no images. -/
theorem execute_shifts (sound : kernel.system.Sound) (running : kernel.running = true)
    (quiet : kernel.interrupts = []) (busy : kernel.system.isIdle = false) :
    kernel.Shifts .pulse ({ kernel with clock := kernel.clock + 1 }.execute).value := by
  rcases System.dispatch_spec sound with
    ⟨result, between, dispatched, soundBetween, carries, _, _, failed, moves⟩
  have turned : kernel.dispatched? .pulse = some between := by
    simp [dispatched?, running, quiet, busy, dispatched]
  rcases execute_cases running quiet busy dispatched failed with
    ⟨_, _, next_eq⟩ | ⟨process, executes, _, next_eq⟩
  · refine .turns between turned soundBetween carries.segments moves ?_ ?_
    · rw [next_eq]
    · rw [next_eq]
  · rw [next_eq]
    exact .turns between turned soundBetween carries.segments moves rfl
      (System.pids_afterCycle executes rfl _)

theorem handle_shifts {interrupt : Interrupt} {rest : InterruptQueue} (order : kernel.InOrder)
    (running : kernel.running = true) (queue : kernel.interrupts = interrupt :: rest)
    (careful : kernel.Careful .pulse) :
    kernel.Shifts .pulse
      ({ kernel with clock := kernel.clock + 1, interrupts := rest }.handle interrupt).value := by
  have next_eq : ({ kernel with clock := kernel.clock + 1, interrupts := rest }.handle
      interrupt).value.system = kernel.system.respond interrupt := system_handle _ _
  by_cases switches : interrupt = .contextSwitch
  · have settled : kernel.system.Settled := by
      rcases order.settled with settled | ⟨process, _, ends⟩
      · exact settled
      · simp [ending?, queue, switches, Interrupt.ended?] at ends
    rcases System.contextSwitch_spec order.sound settled with
      ⟨result, between, switched, sound, carries, _, moves⟩
    have turned : kernel.dispatched? .pulse = some between := by
      simp [dispatched?, running, queue, switches, switched]
    rw [switches, System.respond, switched] at next_eq
    refine .turns between turned sound carries.segments moves ?_ ?_
    · rw [switches, next_eq]
    · rw [switches, next_eq]
  · refine .rests (by simp [dispatched?, running, queue, switches]) ?_
    intro pid living old
    rw [next_eq] at living ⊢
    apply System.respond_swapImage order.sound switches _ living old
    intro format
    exact careful (by simp [handled?, running, queue, format])

theorem obey_shifts (order : kernel.InOrder) (careful : kernel.Careful command) :
    kernel.Shifts command (kernel.obey command) := by
  cases command with
  | enqueue interrupt => exact .rests rfl fun _ _ _ => rfl
  | setSchedule schedule => exact .rests rfl fun _ _ _ => rfl
  | setQuantum quantum => exact .rests rfl fun _ _ _ => rfl
  | pulse =>
      change kernel.Shifts .pulse kernel.pulse.value
      have pulses := kernel.pulse_pulses
      generalize kernel.pulse.value = next at pulses ⊢
      cases pulses with
      | stopped running => exact .rests (by simp [dispatched?, running]) fun _ _ _ => rfl
      | handles interrupt rest running queue => exact handle_shifts order running queue careful
      | executes running quiet busy => exact execute_shifts order.sound running quiet busy
      | idles running quiet idle =>
          exact .rests (by simp [dispatched?, running, quiet, idle]) fun _ _ _ => rfl

namespace Shifts

variable {pid : Nat} {image : List UInt8}

/-- A process that lies on disk after a command has the image there that it had before. -/
theorem stores_of_lies (shifts : kernel.Shifts command next) (sound : kernel.system.Sound)
    (soundNext : next.system.Sound) (stores : kernel.system.storage.Stores pid image)
    (old : pid < kernel.system.nextPid) (lies : next.system.LiesOnDisk pid) :
    next.system.storage.Stores pid image := by
  rcases soundNext.swapped_of_lies lies with ⟨other, swapped, homeless⟩
  have same : other = image := by
    cases shifts with
    | rests _ unmoved =>
        rw [unmoved pid lies.mem old] at swapped
        exact sound.owns.eq_of_swapped stores swapped
    | turns between _ soundBetween _ moves files living =>
        rw [files] at swapped
        exact (moves pid (living ▸ lies.mem)).eq_of_swapped sound.owns soundBetween.owns stores
          swapped
  exact .onDisk homeless (same ▸ swapped)

/-- A process that lay on disk and is in memory after a command was brought there when the processor
was given away. -/
theorem exists_arrived (shifts : kernel.Shifts command next) (sound : kernel.system.Sound)
    (soundNext : next.system.Sound) (old : pid < kernel.system.nextPid)
    (lies : kernel.system.LiesOnDisk pid) {process : Process}
    (member : process ∈ next.system.processes) (same : process.pid = pid)
    (inMemory : process.isInMemory = true) :
    ∃ system, kernel.dispatched? command = some system ∧
      ∃ arrived ∈ system.processes, arrived.pid = pid ∧ arrived.isInMemory = true := by
  rcases sound.swapped_of_lies lies with ⟨image, swapped, _⟩
  have living : pid ∈ next.system.processes.map Process.pid := same ▸ List.mem_map_of_mem member
  rcases soundNext.held_of_isInMemory member inMemory with ⟨_, _, _, _, _, unswapped⟩
  rw [same] at unswapped
  cases shifts with
  | rests _ unmoved =>
      rw [unmoved pid living old, swapped] at unswapped
      cases unswapped
  | turns between dispatched soundBetween _ _ files living_eq =>
      rw [living_eq] at living
      rcases List.mem_map.mp living with ⟨arrived, among, number⟩
      refine ⟨between, dispatched, arrived, among, number, ?_⟩
      rw [(soundBetween.owns.keeps arrived among).isInMemory]
      by_contra onDisk
      rcases soundBetween.swapped_of_lies ⟨arrived, among, number, by simpa using onDisk⟩ with
        ⟨_, stored, _⟩
      rw [← files, unswapped] at stored
      cases stored

/-- A process that is in memory when the processor is given away has its image there, cut and filled
to its segment. -/
theorem bytes_of_arrived (shifts : kernel.Shifts command next) (sound : kernel.system.Sound)
    (stores : kernel.system.storage.Stores pid image) {system : System}
    (dispatched : kernel.dispatched? command = some system) {arrived : Process}
    (member : arrived ∈ system.processes) (same : arrived.pid = pid)
    (inMemory : arrived.isInMemory = true) :
    ∃ new ∈ system.memory.segments, arrived.segment = some new ∧
      system.memory.bytes new = padded new.length image ∧ new.Inside system.memory.store ∧
      system.memory.segments = kernel.system.memory.segments := by
  cases shifts with
  | rests none_dispatched => simp [none_dispatched] at dispatched
  | turns between dispatches soundBetween segments moves _ _ =>
      obtain rfl : between = system := Option.some.inj (dispatches.symm.trans dispatched)
      rcases soundBetween.held_of_isInMemory member inMemory with
        ⟨index, new, held, located, segment_eq, _⟩
      have moved := moves arrived.pid (List.mem_map_of_mem member)
      exact ⟨new, List.mem_of_getElem? located, segment_eq,
        moved.bytes_eq_padded sound.owns (same ▸ stores) held located segments,
        soundBetween.owns.inside located, segments⟩

end Shifts

/-! ## Absence -/

/-- The division of memory stays what it was at the beginning. -/
theorem Run.segments {config : Config} (valid : config.validate = .ok ()) {kernel : Kernel}
    {admitted : List (Nat × List UInt8)} {printed : List (Nat × String)}
    (run : Run config kernel admitted printed) :
    kernel.system.memory.segments = segmentTable config.memorySize config.segmentCount := by
  induction run with
  | boot format => rw [(booted_spec valid format).2.2, Memory.segments_divided]
  | obey command run careful hypothesis =>
      rw [← hypothesis]
      cases (obey_spec command (run.inOrder valid) careful).steps with
      | carries carries => exact carries.segments
      | admits _ admits => exact admits.segments
      | runs _ _ _ _ carries _ _ _ runs => exact runs.segments.trans carries.segments

/-- A process was in memory in the state `before`, and after each command since then it lay on
disk. -/
inductive Away (config : Config) (before : Kernel) (process : Process) : Kernel → Prop
  | leaves {admitted : List (Nat × List UInt8)} {printed : List (Nat × String)}
      (run : Run config before admitted printed) (member : process ∈ before.system.processes)
      (inMemory : process.isInMemory = true) : Away config before process before
  | stays {kernel : Kernel} (away : Away config before process kernel) (command : Command)
      (careful : kernel.Careful command)
      (lies : (kernel.obey command).system.LiesOnDisk process.pid) :
      Away config before process (kernel.obey command)

namespace Away

variable {config : Config} {before : Kernel} {process : Process}

theorem left (away : Away config before process kernel) :
    (∃ admitted printed, Run config before admitted printed) ∧
      process ∈ before.system.processes ∧ process.isInMemory = true := by
  induction away with
  | leaves run member inMemory => exact ⟨⟨_, _, run⟩, member, inMemory⟩
  | stays _ _ _ _ hypothesis => exact hypothesis

theorem run (away : Away config before process kernel) :
    ∃ admitted printed, Run config kernel admitted printed := by
  induction away with
  | leaves run => exact ⟨_, _, run⟩
  | stays _ command careful _ hypothesis =>
      rcases hypothesis with ⟨_, _, run⟩
      exact ⟨_, _, run.obey command careful⟩

theorem old (valid : config.validate = .ok ()) (away : Away config before process kernel) :
    process.pid < kernel.system.nextPid := by
  rcases away.run with ⟨_, _, run⟩
  apply (run.inOrder valid).sound.numbered
  rw [System.everyone, List.map_append]
  apply List.mem_append_left
  cases away with
  | leaves _ member => exact List.mem_map_of_mem member
  | stays _ _ _ lies => exact lies.mem

/-- As long as a process is away, it has the image it left with. -/
theorem stores (valid : config.validate = .ok ()) (away : Away config before process kernel)
    {index : Nat} {segment : Segment}
    (held : before.system.memory.holding? process.pid = some index)
    (located : before.system.memory.segments[index]? = some segment) :
    kernel.system.storage.Stores process.pid (before.system.memory.bytes segment) := by
  induction away with
  | leaves _ _ _ => exact .inMemory index segment held located rfl
  | stays away command careful lies hypothesis =>
      rcases away.run with ⟨_, _, run⟩
      have order := run.inOrder valid
      exact (obey_shifts order careful).stores_of_lies order.sound
        (obey_spec command order careful).order.sound hypothesis (away.old valid) lies

end Away

/-- A process that was away is brought back when the processor is given to a process, and not
otherwise.  Where its new segment ends it then faults, where the old one ended it reads zeros, and
before that what it read when it left.  So it finds its address space as it was just if the segments
have the same length, that is, unless memory leaves a remainder and one of them, but not the other,
is the last. -/
theorem reads_after_return {config : Config} (valid : config.validate = .ok ())
    {before kernel : Kernel} {process : Process} (away : Away config before process kernel)
    {command : Command} (careful : kernel.Careful command) :
    (kernel.system.LiesOnDisk process.pid → ∀ back ∈ (kernel.obey command).system.processes,
      back.pid = process.pid → back.isInMemory = true →
        ∃ system, kernel.dispatched? command = some system ∧
          ∃ arrived ∈ system.processes, arrived.pid = process.pid ∧ arrived.isInMemory = true) ∧
    ∀ system, kernel.dispatched? command = some system → ∀ arrived ∈ system.processes,
      arrived.pid = process.pid → arrived.isInMemory = true →
        ∃ old new, process.segment = some old ∧ arrived.segment = some new ∧
          (∀ address, system.memory.read arrived address =
            if new.length ≤ address then .error (.segmentationFault process.pid address)
            else if old.length ≤ address then .ok 0
            else before.system.memory.read process address) ∧
          ((∀ address, system.memory.read arrived address =
              before.system.memory.read process address) ↔
            config.memorySize % config.segmentCount = 0 ∨
              (old.limit + 1 = config.memorySize ↔ new.limit + 1 = config.memorySize)) := by
  rcases away.left with ⟨⟨_, _, runBefore⟩, living, resident⟩
  rcases away.run with ⟨_, _, run⟩
  have soundBefore := (runBefore.inOrder valid).sound
  have order := run.inOrder valid
  have shifts := obey_shifts order careful
  refine ⟨?_, ?_⟩
  · intro lies back member same inMemory
    exact shifts.exists_arrived order.sound (obey_spec command order careful).order.sound
      (away.old valid) lies member same inMemory
  intro system dispatched arrived member same inMemory
  rcases soundBefore.held_of_isInMemory living resident with
    ⟨index, old, held, located, segment_eq, _⟩
  have inside := soundBefore.owns.inside located
  rcases shifts.bytes_of_arrived order.sound (away.stores valid held located) dispatched member same
    inMemory with ⟨new, among, segmentNew, bytes, insideNext, segments⟩
  refine ⟨old, new, segment_eq, segmentNew,
    Memory.read_of_padded segment_eq inside segmentNew insideNext same bytes, ?_⟩
  rcases Config.validate_eq_ok valid with ⟨positive, fits, _⟩
  rw [segments, run.segments valid] at among
  have amongBefore := List.mem_of_getElem? located
  rw [runBefore.segments valid] at amongBefore
  rw [Memory.read_eq_iff_of_padded segment_eq inside segmentNew insideNext same bytes]
  exact Memory.length_eq_length_iff positive fits amongBefore among

/-- Each of the commands is careful and leaves a process on disk. -/
def AwayFor (pid : Nat) : List Command → Kernel → Prop
  | [], _ => True
  | command :: rest, kernel =>
    kernel.Careful command ∧ (kernel.obey command).system.LiesOnDisk pid ∧
      AwayFor pid rest (kernel.obey command)

instance decidableAwayFor (pid : Nat) :
    (commands : List Command) → (kernel : Kernel) → Decidable (kernel.AwayFor pid commands)
  | [], _ => .isTrue trivial
  | command :: rest, kernel =>
    have := decidableAwayFor pid rest (kernel.obey command)
    inferInstanceAs (Decidable (kernel.Careful command ∧
      (kernel.obey command).system.LiesOnDisk pid ∧ AwayFor pid rest (kernel.obey command)))

theorem Away.of_awayFor {config : Config} {before : Kernel} {process : Process}
    {commands : List Command} (away : Away config before process kernel)
    (remains : kernel.AwayFor process.pid commands) :
    Away config before process (kernel.obeyAll commands) := by
  induction commands generalizing kernel with
  | nil => exact away
  | cons command rest hypothesis =>
      rcases remains with ⟨careful, lies, remains⟩
      exact hypothesis (away.stays command careful lies) remains

theorem Run.obeyAll {config : Config} {commands : List Command}
    {admitted : List (Nat × List UInt8)} {printed : List (Nat × String)}
    (run : Run config kernel admitted printed)
    (careful : (Kernel.follow commands kernel admitted printed).isSome = true) :
    ∃ since shown, Run config (kernel.obeyAll commands) since shown := by
  induction commands generalizing kernel admitted printed with
  | nil => exact ⟨admitted, printed, run⟩
  | cons command rest hypothesis =>
      rw [Kernel.follow] at careful
      by_cases here : kernel.Careful command
      · rw [if_pos here] at careful
        exact hypothesis (run.obey command here) careful
      · simp [here] at careful

/-- Five bytes in two segments, of which the second is longer. -/
def uneven : Config :=
  { memorySize := 5, segmentCount := 2, disk := ⟨2, 1, 4⟩, quantum := 1 }

def threePrograms : List Command :=
  [.enqueue (.loadProgram "EA 00" none), .enqueue (.loadProgram "EA EA EA" none),
    .enqueue (.loadProgram "EA 00" none), .enqueue .runAllPrograms] ++ List.replicate 7 .pulse

/-- The second of three programs leaves the longer segment and comes back to the shorter one. -/
theorem uneven_return :
    (follow threePrograms (booted uneven true) [] []).isSome = true ∧
      ∃ process ∈ ((booted uneven true).obeyAll threePrograms).system.processes,
        process.isInMemory = true ∧ process.segment = some ⟨2, 4⟩ ∧
        ((booted uneven true).obeyAll threePrograms).system.memory.read process 2 = .ok 0xEA ∧
        ((booted uneven true).obeyAll threePrograms).AwayFor process.pid
          (List.replicate 5 .pulse) ∧
        (((booted uneven true).obeyAll threePrograms).obeyAll (List.replicate 5 .pulse)).Careful
          .pulse ∧
        ∃ system ∈ ((((booted uneven true).obeyAll threePrograms).obeyAll
            (List.replicate 5 .pulse)).dispatched? .pulse).toList,
          ∃ arrived ∈ system.processes, arrived.pid = process.pid ∧ arrived.isInMemory = true ∧
            arrived.segment = some ⟨0, 1⟩ ∧
            system.memory.read arrived 2 = .error (.segmentationFault process.pid 2) := by
  decide +kernel

/-- There it cannot read the byte that did not fit. -/
theorem reads_after_return_small :
    ∃ (before kernel : Kernel) (process : Process) (system : System) (arrived : Process),
      Away uneven before process kernel ∧ kernel.dispatched? .pulse = some system ∧
        arrived ∈ system.processes ∧ arrived.pid = process.pid ∧
        before.system.memory.read process 2 = .ok 0xEA ∧
        system.memory.read arrived 2 = .error (.segmentationFault process.pid 2) := by
  rcases uneven_return with ⟨followed, process, living, resident, located, read, remains, careful,
    system, dispatched, arrived, member, same, inMemory, locatedNext, _⟩
  rcases (@Run.boot uneven true).obeyAll followed with ⟨_, _, run⟩
  have away := (Away.leaves run living resident).of_awayFor remains
  rw [Option.mem_toList] at dispatched
  generalize (booted uneven true).obeyAll threePrograms = before at *
  generalize before.obeyAll (List.replicate 5 .pulse) = kernel at *
  rcases (reads_after_return (by decide) away careful).2 system dispatched arrived member same
    inMemory with ⟨old, new, segment_eq, segmentNext, reads, _⟩
  obtain rfl : new = ⟨0, 1⟩ := Option.some.inj (segmentNext.symm.trans locatedNext)
  exact ⟨before, kernel, process, system, arrived, away, dispatched, member, same, read,
    (reads 2).trans (if_pos (by decide))⟩

/-- Without any formatting since the machine was booted, a process need not find its address space
as it was. -/
theorem not_reads_same_after_return : ¬ ∀ config : Config, config.validate = .ok () →
    ∀ (format : Bool) (commands absence : List Command),
      (∀ command ∈ commands ++ absence, command ≠ .enqueue (.fileSystem .format)) →
      ∀ process ∈ ((booted config format).obeyAll commands).system.processes,
        process.isInMemory = true →
        ((booted config format).obeyAll commands).AwayFor process.pid absence →
        ∀ system, (((booted config format).obeyAll commands).obeyAll absence).dispatched? .pulse =
            some system →
          ∀ arrived ∈ system.processes, arrived.pid = process.pid → arrived.isInMemory = true →
            ∀ address, system.memory.read arrived address =
              ((booted config format).obeyAll commands).system.memory.read process address := by
  intro agrees
  rcases uneven_return with ⟨_, process, living, resident, _, before, remains, _, system,
    dispatched, arrived, member, same, inMemory, _, after⟩
  rw [Option.mem_toList] at dispatched
  have agree := agrees uneven (by decide) true threePrograms (List.replicate 5 .pulse)
    (by simp [threePrograms]) process living resident remains system dispatched arrived member same
    inMemory 2
  rw [before, after] at agree
  cases agree

end Kernel

end Timeshare
