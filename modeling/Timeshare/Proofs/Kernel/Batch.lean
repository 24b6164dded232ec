import Timeshare.Proofs.Kernel.Ticks

/-!
# Batches

A batch is a queue of keystrokes and programs to load, with the request to run them all at its end.
While the kernel works it off, what running the programs leads to joins the queue behind it.  So a
program that is loaded does not stay resident: when nothing is left to do the request was handled
after the last program was loaded.
-/

namespace Timeshare

namespace Interrupt

/-- What running programs leads to. -/
def Consequent : Interrupt → Prop
  | .contextSwitch => True
  | .breakProgram _ => True
  | .errProgram _ => True
  | _ => False

/-- What a batch and the running of its programs are made of. -/
def OfBatch : Interrupt → Prop
  | .keyboard _ => True
  | .loadProgram _ _ => True
  | .runAllPrograms => True
  | other => other.Consequent

/-- The program that an interrupt brings, if its text is one. -/
def program? : Interrupt → Option (List UInt8)
  | .loadProgram text _ => (ProgramText.parse text).toOption
  | _ => none

theorem Consequent.ofBatch {interrupt : Interrupt} (consequent : interrupt.Consequent) :
    interrupt.OfBatch := by
  cases interrupt with
  | contextSwitch => exact consequent
  | breakProgram pid => exact consequent
  | errProgram pid => exact consequent
  | _ => exact consequent.elim

theorem Consequent.program? {interrupt : Interrupt} (consequent : interrupt.Consequent) :
    interrupt.program? = none := by
  cases interrupt with
  | loadProgram text priority => exact consequent.elim
  | _ => rfl

end Interrupt

namespace InterruptQueue

/-- After each program to load comes a request to run all programs. -/
def LoadsFollowed : InterruptQueue → Prop
  | [] => True
  | .loadProgram _ _ :: rest => .runAllPrograms ∈ rest ∧ LoadsFollowed rest
  | _ :: rest => LoadsFollowed rest

theorem LoadsFollowed.tail {first : Interrupt} {rest : InterruptQueue}
    (followed : LoadsFollowed (first :: rest)) : LoadsFollowed rest := by
  cases first with
  | loadProgram text priority => exact followed.2
  | _ => exact followed

theorem LoadsFollowed.of_consequent {queue : InterruptQueue}
    (consequent : ∀ interrupt ∈ queue, interrupt.Consequent) : LoadsFollowed queue := by
  induction queue with
  | nil => trivial
  | cons first rest hypothesis =>
      have others := hypothesis fun interrupt member =>
        consequent interrupt (List.mem_cons_of_mem first member)
      cases first with
      | loadProgram text priority => exact (consequent _ List.mem_cons_self).elim
      | _ => exact others

theorem LoadsFollowed.append {queue raised : InterruptQueue} (followed : LoadsFollowed queue)
    (consequent : ∀ interrupt ∈ raised, interrupt.Consequent) :
    LoadsFollowed (queue ++ raised) := by
  induction queue with
  | nil => exact .of_consequent consequent
  | cons first rest hypothesis =>
      cases first with
      | loadProgram text priority =>
          exact ⟨List.mem_append_left raised followed.1, hypothesis followed.2⟩
      | _ => exact hypothesis followed

end InterruptQueue

/-! ## What handlers and cycles raise -/

namespace System

variable {system : System}

theorem consequent_of_raised {interrupt raised : Interrupt}
    (member : raised ∈ system.raised interrupt) : raised.Consequent := by
  have preempting {lineup : Lineup} (among : raised ∈ lineup.preemption) : raised.Consequent := by
    unfold Lineup.preemption at among
    split at among
    · rw [List.mem_singleton.mp among]
      trivial
    · cases among
  unfold System.raised at member
  split at member
  · split at member
    · exact preempting member
    · cases member
  · split at member
    · cases member
    · exact preempting member
  · cases member

/-- Only loading a program makes a process resident. -/
theorem terminate_resident (distinct : (system.resident.map Process.pid).Nodup) (pid : Nat) :
    (terminate pid system).value.2.resident.Sublist system.resident := by
  rcases remove?_spec distinct pid with
    ⟨absent, _⟩ | ⟨process, without, removed, _, _, _, _, _, _, resident, _⟩
  · simp [terminate, absent]
  · rcases reclaim_relocates process without with ⟨memory, files, reclaimed, _⟩
    simpa [terminate, removed, reclaimed, retire] using resident

theorem contextSwitch_resident (nobody : system.resident = []) :
    system.contextSwitch.value.2.resident = [] := by
  have handles := contextSwitch_lineup system
  have before : system.lineup.resident = [] := by simp [lineup, nobody]
  have after : system.contextSwitch.value.2.lineup.resident = [] := by
    generalize system.contextSwitch.value.2.lineup = next at handles ⊢
    generalize ([] : List Interrupt) = raised at handles
    cases handles with
    | enrolls priority steady => exact absurd rfl steady
    | leaves left steady => exact absurd rfl steady
    | joins new left queue steady => exact absurd rfl steady
    | stops rank steady => exact absurd rfl steady
    | withdraws before rank after steady => exact absurd rfl steady
    | skips => exact before
    | switches => exact before
  exact List.map_eq_nil_iff.mp after

theorem runAllPrograms_resident (system : System) :
    (system.respond .runAllPrograms).resident = [] := by
  rcases activateAll_eq system with ⟨queue, activated, _⟩
  rw [respond]
  split
  · rename_i nobody
    simpa [activateAll] using nobody
  · exact congrArg System.resident activated

/-- Nobody stays resident without a request to run all programs that is still to come. -/
theorem nobody_or_requested {interrupt : Interrupt} {rest : InterruptQueue}
    (ofBatch : interrupt.OfBatch) (followed : InterruptQueue.LoadsFollowed (interrupt :: rest))
    (requested : system.resident = [] ∨ .runAllPrograms ∈ interrupt :: rest)
    (distinct : (system.resident.map Process.pid).Nodup) :
    (system.respond interrupt).resident = [] ∨ .runAllPrograms ∈ rest := by
  have waits (different : interrupt ≠ .runAllPrograms)
      (kept : system.resident = [] → (system.respond interrupt).resident = []) :
      (system.respond interrupt).resident = [] ∨ .runAllPrograms ∈ rest := by
    rcases requested with nobody | asked
    · exact Or.inl (kept nobody)
    · rcases List.mem_cons.mp asked with same | later
      · exact absurd same.symm different
      · exact Or.inr later
  have ended (pid : Nat) (nobody : system.resident = []) :
      (terminate pid system).value.2.resident = [] :=
    List.sublist_nil.mp (nobody ▸ terminate_resident distinct pid)
  cases interrupt with
  | keyboard key => exact waits (by simp) id
  | loadProgram text priority => exact Or.inr followed.1
  | runAllPrograms => exact Or.inl (runAllPrograms_resident system)
  | contextSwitch => exact waits (by simp) contextSwitch_resident
  | breakProgram pid => exact waits (by simp) (ended pid)
  | errProgram pid => exact waits (by simp) (ended pid)
  | _ => exact ofBatch.elim

/-- A program that is admitted is the one that the interrupt brings. -/
theorem admission?_sublist (interrupt : Interrupt) (system : System) :
    ((system.admission? interrupt).toList.map Prod.snd).Sublist interrupt.program?.toList := by
  cases interrupt with
  | loadProgram text priority =>
      rw [admission?, Interrupt.program?]
      cases ProgramText.parse text with
      | error error => exact List.nil_sublist _
      | ok program =>
          simp only []
          split
          · exact List.nil_sublist _
          · exact .refl _
  | _ => exact List.nil_sublist _

end System

theorem Cycle.consequent_of_interruptsAfter {cycle : Cycle} {policy : Policy}
    {interrupt : Interrupt} (member : interrupt ∈ Kernel.interruptsAfter cycle policy []) :
    interrupt.Consequent := by
  have raising (among : interrupt ∈ cycle.enqueueRaised []) : interrupt.Consequent := by
    unfold Cycle.enqueueRaised at among
    split at among
    · rename_i raised raises
      rw [InterruptQueue.enqueue, List.nil_append, List.mem_singleton] at among
      subst among
      unfold Cycle.raised at raises
      split at raises
      · cases raises
      · cases raises
        trivial
      · cases raises
        trivial
    · cases among
  simp only [Kernel.interruptsAfter] at member
  split at member
  · rcases List.mem_append.mp member with before | switch
    · exact raising before
    · rw [List.mem_singleton.mp switch]
      trivial
  · exact raising member

namespace Kernel

/-- A kernel that works off a batch with these programs, and has admitted some of them. -/
structure Batch (kernel : Kernel) (programs : List (List UInt8))
    (admitted : List (Nat × List UInt8)) : Prop where
  plain : ∀ interrupt ∈ kernel.interrupts, interrupt.OfBatch
  followed : InterruptQueue.LoadsFollowed kernel.interrupts
  requested : kernel.system.resident = [] ∨ .runAllPrograms ∈ kernel.interrupts
  programs : (admitted.map Prod.snd ++ kernel.interrupts.filterMap Interrupt.program?).Sublist
    programs

variable {kernel : Kernel} {programs : List (List UInt8)} {admitted : List (Nat × List UInt8)}

namespace Batch

/-- No user asks for a file. -/
theorem handled?_ne (batch : kernel.Batch programs admitted) (request : FileRequest) :
    kernel.handled? .pulse ≠ some (.fileSystem request) := by
  intro handled
  simp only [handled?] at handled
  split at handled
  · exact batch.plain _ (List.mem_of_mem_head? handled)
  · cases handled

/-- The queue was worked off by one interrupt, and what it led to was appended. -/
theorem handle (batch : kernel.Batch programs admitted) {interrupt : Interrupt}
    {rest : InterruptQueue} (queue : kernel.interrupts = interrupt :: rest)
    (distinct : (kernel.system.resident.map Process.pid).Nodup) :
    ({ kernel with clock := kernel.clock + 1, interrupts := rest }.handle interrupt).value.Batch
      programs (admitted ++ (kernel.system.admission? interrupt).toList) := by
  have interrupts := interrupts_handle interrupt
    { kernel with clock := kernel.clock + 1, interrupts := rest }
  have system := system_handle interrupt
    { kernel with clock := kernel.clock + 1, interrupts := rest }
  have plain := batch.plain
  have followed := batch.followed
  have requested := batch.requested
  have order := batch.programs
  rw [queue] at plain followed requested order
  constructor
  case plain =>
    intro other member
    rw [interrupts] at member
    rcases List.mem_append.mp member with before | new
    · exact plain other (List.mem_cons_of_mem interrupt before)
    · exact (System.consequent_of_raised new).ofBatch
  case followed =>
    rw [interrupts]
    exact followed.tail.append fun _ => System.consequent_of_raised
  case programs =>
    have none_raised : (kernel.system.raised interrupt).filterMap Interrupt.program? = [] := by
      rw [List.filterMap_eq_nil_iff]
      exact fun _ member => (System.consequent_of_raised member).program?
    rw [interrupts, List.filterMap_append, none_raised, List.append_nil, List.map_append,
      List.append_assoc]
    have next := (System.admission?_sublist interrupt kernel.system).append_right
      (rest.filterMap Interrupt.program?)
    refine (next.append_left _).trans ?_
    cases brings : interrupt.program? with
    | none => simpa [List.filterMap_cons, brings] using order
    | some program => simpa [List.filterMap_cons, brings] using order
  case requested =>
    rw [interrupts, system]
    rcases System.nobody_or_requested (plain interrupt List.mem_cons_self) followed requested
      distinct with nobody | asked
    · exact Or.inl nobody
    · exact Or.inr (List.mem_append_left _ asked)

/-- Nothing is loaded while a cycle runs. -/
theorem execute (batch : kernel.Batch programs admitted) (running : kernel.running = true)
    (quiet : kernel.interrupts = []) (busy : kernel.system.isIdle = false) :
    ({ kernel with clock := kernel.clock + 1 }.execute).value.Batch programs admitted := by
  have nobody : kernel.lineup.resident = [] := by
    rcases batch.requested with nobody | asked
    · simp [lineup, System.lineup, nobody]
    · rw [quiet] at asked
      cases asked
  have ticks := execute_ticks running quiet busy
  generalize ({ kernel with clock := kernel.clock + 1 }.execute).value = next at ticks ⊢
  have after : next.lineup.resident = [] ∧
      ∀ interrupt ∈ next.interrupts, interrupt.Consequent := by
    cases ticks with
    | rests lineup_eq interrupts_eq =>
        rw [lineup_eq, interrupts_eq, quiet]
        exact ⟨nobody, by simp⟩
    | handles interrupt rest raised queue =>
        rw [quiet] at queue
        cases queue
    | fails head rest quiet none_handled none_run interrupts_eq idle ready lineup_eq =>
        rw [lineup_eq, interrupts_eq]
        exact ⟨nobody, by simp⟩
    | runs between cycle quiet none_handled one_run dispatches executing interrupts_eq lineup_eq =>
        rw [lineup_eq, interrupts_eq]
        refine ⟨?_, fun interrupt => Cycle.consequent_of_interruptsAfter⟩
        cases dispatches with
        | stays => exact nobody
        | gives => exact nobody
        | fails => exact nobody
  rcases after with ⟨nobody, consequent⟩
  have none_loads : next.interrupts.filterMap Interrupt.program? = [] := by
    rw [List.filterMap_eq_nil_iff]
    exact fun interrupt member => (consequent interrupt member).program?
  constructor
  case plain => exact fun interrupt member => (consequent interrupt member).ofBatch
  case followed => exact .of_consequent consequent
  case requested => exact Or.inl (List.map_eq_nil_iff.mp nobody)
  case programs =>
    have order := batch.programs
    rw [quiet] at order
    rw [none_loads]
    exact order

/-- A pulse keeps a batch, with the program that it admits. -/
theorem pulse (batch : kernel.Batch programs admitted)
    (distinct : (kernel.system.resident.map Process.pid).Nodup) :
    kernel.pulse.value.Batch programs (admitted ++ (kernel.admitted? .pulse).toList) := by
  have pulses := kernel.pulse_pulses
  have unchanged (none_handled : kernel.handled? .pulse = none) :
      admitted ++ (kernel.admitted? .pulse).toList = admitted := by
    simp [admitted?, none_handled]
  generalize kernel.pulse.value = next at pulses ⊢
  cases pulses with
  | stopped running =>
      rw [unchanged (by simp [handled?, running])]
      exact batch
  | handles interrupt rest running queue =>
      have one_handled : kernel.handled? .pulse = some interrupt := by
        simp [handled?, running, queue]
      rw [admitted?, one_handled]
      exact batch.handle queue distinct
  | executes running quiet busy =>
      rw [unchanged (by simp [handled?, quiet])]
      exact batch.execute running quiet busy
  | idles running quiet idle =>
      rw [unchanged (by simp [handled?, quiet])]
      exact ⟨batch.plain, batch.followed, batch.requested, batch.programs⟩

end Batch

end Kernel

end Timeshare
