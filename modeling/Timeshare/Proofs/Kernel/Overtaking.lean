import Timeshare.Proofs.Kernel.Arrivals
import Timeshare.Proofs.System.ReadyOrder

/-!
# No overtaking

In a run the ready queue stays in the order of the schedule, whatever interrupts are raised: those
who become ready at once enter it in the order of their numbers, whoever is switched out enters it
again, and those who are ended leave it.  So whoever waits is passed only by those who go before it.
-/

namespace Timeshare

/-- The schedule stays as it was at boot. -/
def Command.KeepsSchedule (schedule : Schedule) : Command → Prop
  | .setSchedule other => other = schedule
  | _ => True

namespace Lineup

variable {lineup next : Lineup} {schedule : Schedule} {log : List Nat} {new : List Rank}
  {ending : Option Nat}

/-- Whoever waits behind another one stays behind it or is ended, as long as that one waits. -/
theorem Proceeds.behind {first second : Rank}
    (proceeds : lineup.Proceeds schedule (log ++ new.map Rank.pid) new ending next)
    (waits : lineup.Waits schedule log) (behind : [first, second].Sublist lineup.ready)
    (still : first ∈ next.ready) :
    [first, second].Sublist next.ready ∨ (ending = some second.pid ∧ next.Lacks second) := by
  have distinct := proceeds.distinct
  rw [List.map_append] at distinct
  have apart := List.disjoint_of_nodup_append distinct
  have member : first ∈ lineup.ready := behind.subset (by simp)
  have memberSecond : second ∈ lineup.ready := behind.subset (by simp)
  have precedes : first.Precedes schedule (log ++ new.map Rank.pid) second := by
    have order := waits.order.sublist behind
    rw [Rank.Precedes.append_iff (apart (List.mem_map_of_mem member))
      (apart (List.mem_map_of_mem memberSecond))]
    simpa using order
  by_cases waiting : second ∈ next.ready
  · have different : first ≠ second := by
      rintro rfl
      exact precedes.asymm precedes
    refine (sublist_or_swap still waiting different).imp_right fun swapped => ?_
    have order := proceeds.waits.order.sublist swapped
    exact absurd (by simpa using order) precedes.asymm
  · rcases proceeds.leaving second (List.mem_append_left _ memberSecond) waiting with
      ended | ⟨_, earliest⟩
    · exact Or.inr ended
    · exact absurd (earliest first still) precedes.asymm

end Lineup

namespace Kernel

open Lineup

variable {kernel : Kernel} {history : List Cycle} {schedule : Schedule} {log : List Nat}
  {command : Command}

/-! ## Entries -/

/-- The processes that enter the ready queue under a command, in this order. -/
def entering (command : Command) (kernel : Kernel) : List Rank :=
  match kernel.handled? command with
  | some interrupt => kernel.lineup.entering interrupt
  | none => []

/-- The process that is asked to end under a command. -/
def endAsked? (command : Command) (kernel : Kernel) : Option Nat :=
  (kernel.handled? command).bind Interrupt.ending?

/-- The log of those who enter the ready queue under some commands, the first one first. -/
def entries : List Command → Kernel → List Nat
  | [], _ => []
  | command :: rest, kernel =>
      (kernel.entering command).map Rank.pid ++ entries rest (kernel.obey command)

theorem entries_concat (commands : List Command) (command : Command) (kernel : Kernel) :
    kernel.entries (commands ++ [command]) =
      kernel.entries commands ++ ((kernel.obeyAll commands).entering command).map Rank.pid := by
  induction commands generalizing kernel with
  | nil => simp [entries, obeyAll]
  | cons first rest hypothesis => simp [entries, hypothesis, obeyAll]

/-! ## Steps -/

/-- A pulse handles a pending interrupt. -/
theorem lineup_pulse {interrupt : Interrupt} (handled : kernel.handled? .pulse = some interrupt) :
    kernel.pulse.value.lineup = (kernel.system.respond interrupt).lineup := by
  have pulses := kernel.pulse_pulses
  generalize kernel.pulse.value = next at pulses ⊢
  cases pulses with
  | stopped running => simp [handled?, running] at handled
  | executes running quiet => simp [handled?, quiet] at handled
  | idles running quiet => simp [handled?, quiet] at handled
  | handles pending rest running queue =>
      obtain rfl : pending = interrupt := by simpa [handled?, running, queue] using handled
      rw [lineup, system_handle]

namespace Steady

theorem nodup_entering (steady : kernel.Steady history) (command : Command) :
    ((kernel.lineup.ready ++ kernel.entering command).map Rank.pid).Nodup := by
  rw [entering]
  split
  · exact Lineup.nodup_entering steady.distinct_everyone _
  · -- A timer interrupt lets nobody enter either.
    exact Lineup.nodup_entering steady.distinct_everyone .timer

/-- Where no interrupt is handled, nobody enters the queue. -/
theorem proceeds_of_serves (steady : kernel.Steady history)
    (waits : kernel.lineup.Waits schedule log) (none_handled : kernel.handled? command = none)
    {next : Lineup} (serves : Serves none kernel.lineup.ready next)
    (scheduled : next.policy.schedule = kernel.lineup.policy.schedule)
    (from_ready : ∀ rank, next.executing = some rank →
      kernel.lineup.executing = some rank ∨ rank ∈ kernel.lineup.ready) :
    kernel.lineup.Proceeds schedule (log ++ (kernel.entering command).map Rank.pid)
      (kernel.entering command) (kernel.endAsked? command) next := by
  have distinct := steady.nodup_entering command
  simp only [entering, endAsked?, none_handled, Option.bind_none] at distinct ⊢
  exact serves.proceeds waits (.refl _ _) distinct scheduled from_ready

theorem proceeds_pulse (steady : kernel.Steady history) (waits : kernel.lineup.Waits schedule log) :
    kernel.lineup.Proceeds schedule (log ++ (kernel.entering .pulse).map Rank.pid)
      (kernel.entering .pulse) (kernel.endAsked? .pulse) kernel.pulse.value.lineup := by
  have distinct := steady.distinct_everyone
  cases steady.pulse_ticks with
  | rests lineup_eq _ none_handled =>
      rw [lineup_eq]
      exact steady.proceeds_of_serves waits none_handled (.stays rfl) rfl fun _ => Or.inl
  | fails head rest _ none_handled _ _ idle ready lineup_eq =>
      have dispatches := Dispatches.fails head rest idle ready
      rw [lineup_eq]
      exact steady.proceeds_of_serves waits none_handled (dispatches.serves distinct _) rfl
        fun _ => dispatches.from_ready
  | runs between cycle _ none_handled _ dispatches _ _ lineup_eq =>
      have kept : between.policy.schedule = kernel.lineup.policy.schedule :=
        congrArg Policy.schedule dispatches.policy
      rw [lineup_eq]
      exact steady.proceeds_of_serves waits none_handled (dispatches.serves distinct _) kept
        fun _ => dispatches.from_ready
  | handles interrupt _ _ _ handled _ _ changes =>
      rcases System.respond_serves distinct interrupt with ⟨queue, queues, serves⟩
      rw [← lineup_pulse handled] at serves
      simp only [entering, endAsked?, handled, Option.bind_some]
      exact serves.proceeds waits queues (Lineup.nodup_entering distinct interrupt)
        changes.schedule fun _ => changes.from_ready

/-- Once for all: what a command makes of those who wait. -/
theorem proceeds (steady : kernel.Steady history) (waits : kernel.lineup.Waits schedule log)
    (keeps : command.KeepsSchedule schedule) :
    kernel.lineup.Proceeds schedule (log ++ (kernel.entering command).map Rank.pid)
      (kernel.entering command) (kernel.endAsked? command) (kernel.obey command).lineup := by
  have unmoved {next : Kernel} (none_handled : kernel.handled? command = none)
      (ready : next.lineup.ready = kernel.lineup.ready)
      (scheduled : next.lineup.policy.schedule = kernel.lineup.policy.schedule)
      (executing : next.lineup.executing = kernel.lineup.executing) :
      kernel.lineup.Proceeds schedule (log ++ (kernel.entering command).map Rank.pid)
        (kernel.entering command) (kernel.endAsked? command) next.lineup :=
    steady.proceeds_of_serves waits none_handled (.stays ready) scheduled fun _ executes =>
      Or.inl (executing ▸ executes)
  cases command with
  | pulse => exact steady.proceeds_pulse waits
  | enqueue interrupt => exact unmoved rfl rfl rfl rfl
  | setQuantum quantum => exact unmoved rfl rfl rfl rfl
  | setSchedule other =>
      obtain rfl : other = schedule := keeps
      exact unmoved rfl (System.ready_setSchedule waits) waits.scheduled.symm rfl

theorem waits_obeyAll (steady : kernel.Steady history) (waits : kernel.lineup.Waits schedule log)
    {commands : List Command} (keeps : ∀ command ∈ commands, command.KeepsSchedule schedule) :
    (kernel.obeyAll commands).lineup.Waits schedule (log ++ kernel.entries commands) := by
  induction commands using List.reverseRecOn with
  | nil => simpa [entries, Kernel.obeyAll] using waits
  | append_singleton before command hypothesis =>
      have waits := hypothesis fun other member => keeps other (List.mem_append_left _ member)
      rw [entries_concat, obeyAll_concat, ← List.append_assoc]
      exact ((steady.obeyAll before).proceeds waits (keeps command (by simp))).waits

/-- Whoever is missing among those who have not ended has ended, if it was there before. -/
theorem ended_of_lacks (steady : kernel.Steady history) {rank : Rank}
    (member : rank ∈ kernel.lineup.everyone) (lacks : (kernel.obey command).lineup.Lacks rank) :
    (kernel.obey command).HasEnded rank.pid :=
  (steady.obey command).ended_of_absent
    ((steady.pid_lt_nextPid member).trans_le (steady.continues_obey command).nextPid) lacks

/-- As long as a process waits, those behind it stay behind it or are asked to end. -/
theorem behind_obeyAll (steady : kernel.Steady history) (waits : kernel.lineup.Waits schedule log)
    {since : List Command} (keeps : ∀ command ∈ since, command.KeepsSchedule schedule)
    {first second : Rank} (behind : [first, second].Sublist kernel.lineup.ready)
    (still : ∀ part, part <+: since → first ∈ (kernel.obeyAll part).lineup.ready) :
    [first, second].Sublist (kernel.obeyAll since).lineup.ready ∨
      ((kernel.obeyAll since).HasEnded second.pid ∧
        ∃ interrupt ∈ kernel.handledIn since, interrupt.ending? = some second.pid) := by
  induction since using List.reverseRecOn with
  | nil => exact Or.inl behind
  | append_singleton part command hypothesis =>
      have keepsPart : ∀ other ∈ part, other.KeepsSchedule schedule := fun other member =>
        keeps other (List.mem_append_left _ member)
      have now := steady.obeyAll part
      have waitsNow := steady.waits_obeyAll waits keepsPart
      have stillNext := still (part ++ [command]) List.prefix_rfl
      rw [obeyAll_concat] at stillNext ⊢
      rw [handledIn_append]
      rcases hypothesis keepsPart fun before prefixed =>
        still before (prefixed.trans (List.prefix_append _ _)) with behindNow | ⟨ended, asked⟩
      · have proceeds := now.proceeds waitsNow (keeps command (by simp))
        refine (proceeds.behind waitsNow behindNow stillNext).imp_right
          fun ⟨asked, lacks⟩ => ⟨now.ended_of_lacks ?_ lacks, ?_⟩
        · have member : second ∈ (kernel.obeyAll part).lineup.ready := behindNow.subset (by simp)
          exact List.mem_append_left _ (List.mem_append_right _ member)
        · rcases Option.bind_eq_some_iff.mp asked with ⟨interrupt, handled, ending⟩
          exact ⟨interrupt, by simp [handledIn, handled], ending⟩
      · rcases asked with ⟨interrupt, member, ending⟩
        exact Or.inr ⟨now.ended_obeyAll ended [command],
          interrupt, List.mem_append_left _ member, ending⟩

end Steady

theorem waits_booted (config : Config) (format : Bool) :
    (booted config format).lineup.Waits config.schedule [] := by
  rw [lineup_booted]
  exact ⟨rfl, List.Pairwise.nil, by simp⟩

/-- The ready processes always stand in the order of the schedule, and the first one in this order
is taken from them, whether it can be brought into memory or not.  So a process that waits behind
another one does not get the processor before it. -/
theorem ready_in_order {config : Config} (format : Bool) {commands : List Command}
    (keeps : ∀ command ∈ commands, command.KeepsSchedule config.schedule) :
    ((booted config format).obeyAll commands).lineup.Waits config.schedule
      ((booted config format).entries commands) ∧
    (∀ command : Command, command.KeepsSchedule config.schedule →
      ((booted config format).obeyAll commands).lineup.Proceeds config.schedule
        ((booted config format).entries (commands ++ [command]))
        (((booted config format).obeyAll commands).entering command)
        (((booted config format).obeyAll commands).endAsked? command)
        ((booted config format).obeyAll (commands ++ [command])).lineup) ∧
    ∀ since : List Command, (∀ command ∈ since, command.KeepsSchedule config.schedule) →
      ∀ first second : Rank,
        [first, second].Sublist ((booted config format).obeyAll commands).lineup.ready →
        (∀ part, part <+: since →
          first ∈ (((booted config format).obeyAll commands).obeyAll part).lineup.ready) →
        (((booted config format).obeyAll commands).obeyAll since).lineup.executing ≠ some second ∧
        ([first, second].Sublist
            (((booted config format).obeyAll commands).obeyAll since).lineup.ready ∨
          ∃ interrupt ∈ ((booted config format).obeyAll commands).handledIn since,
            interrupt.ending? = some second.pid) := by
  have steady := steady_obeyAll config format commands
  have waits := (steady_booted config format).waits_obeyAll (waits_booted config format) keeps
  rw [List.nil_append] at waits
  refine ⟨waits, fun command keepsNext => ?_, fun since keepsSince first second behind still => ?_⟩
  · rw [entries_concat, obeyAll_concat]
    exact steady.proceeds waits keepsNext
  · have later := steady.obeyAll since
    rcases steady.behind_obeyAll waits keepsSince behind still with waiting | ⟨ended, asked⟩
    · refine ⟨fun executes => ?_, Or.inl waiting⟩
      have member := waiting.subset (show second ∈ [first, second] by simp)
      exact not_mem_ready later.distinct_everyone executes (List.mem_map_of_mem member)
    · refine ⟨fun executes => later.not_ended ?_ ended, Or.inr asked⟩
      simp [everyone, executes]

/-- Two segments and short turns. -/
def shortTurns : Config :=
  { memorySize := 12, segmentCount := 2, disk := ⟨2, 1, 4⟩, quantum := 1 }

/-- Four processes become ready at once. -/
def fourAtOnce (pulses : Nat) : List Command :=
  List.replicate 4 (.enqueue (.loadProgram "EA EA 00" (some 1))) ++
    .enqueue .runAllPrograms :: List.replicate pulses .pulse

/-- The first process has had a turn and waits behind the last one.  The next one is taken at a
context switch, and the first one does not get the processor while the last one waits. -/
theorem ready_in_order_small :
    (booted shortTurns true).entries (fourAtOnce 8) = [0, 1, 2, 3, 0] ∧
      ((booted shortTurns true).obeyAll (fourAtOnce 8)).lineup.ready = [⟨2, 1⟩, ⟨3, 1⟩, ⟨0, 1⟩] ∧
      ((booted shortTurns true).obeyAll (fourAtOnce 8)).lineup.Waits .roundRobin [0, 1, 2, 3, 0] ∧
      (∀ waiting ∈ ((booted shortTurns true).obeyAll (fourAtOnce 8 ++ [.pulse])).lineup.ready,
        (⟨2, 1⟩ : Rank).Precedes .roundRobin [0, 1, 2, 3, 0, 1] waiting) ∧
      (((booted shortTurns true).obeyAll (fourAtOnce 8)).obeyAll
        (List.replicate 2 .pulse)).lineup.executing ≠ some ⟨0, 1⟩ := by
  have run : (booted shortTurns true).entries (fourAtOnce 8) = [0, 1, 2, 3, 0] ∧
      ((booted shortTurns true).obeyAll (fourAtOnce 8)).lineup.ready = [⟨2, 1⟩, ⟨3, 1⟩, ⟨0, 1⟩] ∧
      (booted shortTurns true).entries (fourAtOnce 8 ++ [.pulse]) = [0, 1, 2, 3, 0, 1] ∧
      ⟨2, 1⟩ ∉ ((booted shortTurns true).obeyAll (fourAtOnce 8 ++ [.pulse])).lineup.ready ∧
      ((booted shortTurns true).obeyAll (fourAtOnce 8)).endAsked? .pulse = none ∧
      ∀ pulses < 3, ⟨3, 1⟩ ∈ (((booted shortTurns true).obeyAll (fourAtOnce 8)).obeyAll
        (List.replicate pulses .pulse)).lineup.ready := by
    decide +kernel
  rcases run with ⟨entries, ready, entriesNext, taken, nobody, still⟩
  have keeps : ∀ command ∈ fourAtOnce 8, command.KeepsSchedule shortTurns.schedule := by
    simp [fourAtOnce, List.replicate, Command.KeepsSchedule]
  rcases @ready_in_order shortTurns true _ keeps with ⟨waits, proceeds, behind⟩
  rw [entries] at waits
  refine ⟨entries, ready, waits, ?_, ?_⟩
  · have next := proceeds .pulse trivial
    rw [entriesNext, nobody] at next
    rcases next.leaving ⟨2, 1⟩ (by simp [ready]) taken with ⟨asked, _⟩ | ⟨_, earliest⟩
    · cases asked
    · exact earliest
  · refine (behind (List.replicate 2 .pulse) (by simp [Command.KeepsSchedule]) ⟨3, 1⟩ ⟨0, 1⟩
      (by simp [ready]) fun part prefixed => ?_).1
    rcases List.prefix_replicate_iff.mp prefixed with ⟨short, part_eq⟩
    rw [part_eq]
    exact still part.length (Nat.lt_succ_of_le short)

end Kernel

end Timeshare
