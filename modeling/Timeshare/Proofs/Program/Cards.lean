import Timeshare.Proofs.Program.JobFile
import Timeshare.Proofs.Program.Tokens

/-!
# Job cards

What a job card names is described apart from how it is read.  Whatever file is read, each of its
job cards names a priority or says that there is none, and the next end card ends a job of that
priority unless another job card comes first.  A card that names anything else ends the reading.
-/

namespace Timeshare

namespace JobFile

/-! ## What a card names -/

/-- What a job card says after `// JOB`: nothing, or first a priority in hexadecimal digits of
either case, after one of the signs. -/
inductive Names (signs : List (List Char)) : List Char → Option Nat → Prop
  | nothing {card} (blank : ∀ c ∈ card, Text.isCardSpace c) : Names signs card none
  | priority {gap sign digits rest} (separates : ∀ c ∈ gap, Text.isCardSpace c)
      (signed : sign ∈ signs) (any : digits ≠ [])
      (hexadecimal : ∀ c ∈ digits, c ∈ "0123456789ABCDEFabcdef".toList)
      (bounded : Text.hexValue digits < priorityBound)
      (separated : ∀ c ∈ rest.head?, Text.isCardSpace c) :
      Names signs (gap ++ (sign ++ digits ++ rest)) (some (Text.hexValue digits))

/-- No digit separates the fields of a card, and neither does the plus sign. -/
theorem solid_of_signed {sign digits : List Char} (signed : sign ∈ [[], ['+']])
    (hexadecimal : ∀ c ∈ digits, c ∈ "0123456789ABCDEFabcdef".toList) :
    ∀ c ∈ sign ++ digits, Text.isCardSpace c = false := by
  intro c member
  rcases List.mem_append.mp member with inSign | inDigits
  · rcases List.mem_pair.mp signed with rfl | rfl
    · cases inSign
    · rw [List.mem_singleton.mp inSign]
      rfl
  · rcases Option.isSome_iff_exists.mp (Text.isHexDigit_iff.mpr (hexadecimal c inDigits)) with
      ⟨value, digit⟩
    exact Text.isCardSpace_eq_false (ProgramText.solid_of_digit digit).1

/-- A card is accepted for a priority just if it names it, with a plus sign or without one. -/
theorem cardPriority_eq_ok_iff {card : List Char} {priority : Option Nat} :
    Deck.cardPriority (String.ofList card) = .ok priority ↔ Names [[], ['+']] card priority := by
  constructor
  · intro accepted
    unfold Deck.cardPriority at accepted
    rcases Text.exists_first_field Text.isCardSpace card with
      blank | ⟨gap, field, rest, rfl, isField, none⟩
    · rw [Text.fields_of_separators blank] at accepted
      cases accepted
      exact .nothing blank
    · rw [isField.fields_eq, none, List.nil_append] at accepted
      simp only at accepted
      split at accepted
      · rename_i value read
        cases accepted
        rcases Text.numeral?_eq_some_iff.mp read with
          ⟨sign, signed, digits, rfl, any, hexadecimal, rfl, bounded⟩
        exact .priority (Text.fields_eq_nil_iff.mp none) signed any hexadecimal bounded
          isField.closes
      · cases accepted
  · rintro (blank | ⟨separates, signed, any, hexadecimal, bounded, separated⟩)
    · rw [Deck.cardPriority, Text.fields_of_separators blank]
    · have solid := solid_of_signed signed hexadecimal
      rw [Deck.cardPriority, Text.fields_append_left separates,
        Text.fields_cons_of_separated (by simp [any]) solid separated]
      simp only [Text.numeral?_eq_some_iff.mpr
        ⟨_, signed, _, rfl, any, hexadecimal, rfl, bounded⟩]

/-- A card that names no priority is refused as a whole. -/
theorem cardPriority_of_not_names {card : String}
    (other : ¬ ∃ priority, Names [[], ['+']] card.toList priority) :
    Deck.cardPriority card = .error (.invalidJobCard (Text.trim card)) := by
  have refused (priority : Option Nat) : Deck.cardPriority card ≠ .ok priority := by
    intro accepted
    rw [← String.ofList_toList (s := card), cardPriority_eq_ok_iff] at accepted
    exact other ⟨priority, accepted⟩
  unfold Deck.cardPriority at refused ⊢
  split
  · rename_i none
    simp [none] at refused
  · rename_i first rest listed
    split
    · rename_i priority read
      simp [listed, read] at refused
    · rfl

/-- What a card names stands after no sign, unless it is a priority after a plus sign. -/
theorem Names.unsigned_or_signed {card : List Char} {priority : Option Nat}
    (names : Names [[], ['+']] card priority) :
    Names [[]] card priority ∨ ∃ number, Names [['+']] card (some number) := by
  cases names with
  | nothing blank => exact Or.inl (.nothing blank)
  | priority separates signed any hexadecimal bounded separated =>
      rcases List.mem_pair.mp signed with rfl | rfl
      · exact Or.inl (.priority separates (by simp) any hexadecimal bounded separated)
      · exact Or.inr ⟨_, .priority separates (by simp) any hexadecimal bounded separated⟩

/-- What stands first on a card that names a priority is its sign or, without one, its first
digit. -/
theorem head?_of_separates {gap sign digits rest : List Char}
    (separates : ∀ c ∈ gap, Text.isCardSpace c) (signed : sign ∈ [[], ['+']]) (any : digits ≠ [])
    (hexadecimal : ∀ c ∈ digits, c ∈ "0123456789ABCDEFabcdef".toList) :
    ((gap ++ (sign ++ digits ++ rest)).dropWhile Text.isCardSpace).head? =
      (sign ++ digits).head? := by
  have solid := solid_of_signed signed hexadecimal
  have some : sign ++ digits ≠ [] := by simp [any]
  rcases List.exists_cons_of_ne_nil some with ⟨first, others, shape⟩
  rw [shape] at solid ⊢
  rw [List.dropWhile_append_of_pos separates, List.cons_append, List.dropWhile_cons_of_neg,
    List.head?_cons, List.head?_cons]
  simp [solid first List.mem_cons_self]

theorem Names.head?_of_signed {card : List Char} {number : Nat}
    (names : Names [['+']] card (some number)) :
    (card.dropWhile Text.isCardSpace).head? = some '+' := by
  cases names with
  | priority separates signed any hexadecimal =>
      rcases List.mem_singleton.mp signed with rfl
      exact head?_of_separates separates (by simp) any hexadecimal

theorem Names.digit_of_head? {card : List Char} {priority : Option Nat}
    (names : Names [[]] card priority) :
    ∀ c ∈ (card.dropWhile Text.isCardSpace).head?, c ∈ "0123456789ABCDEFabcdef".toList := by
  cases names with
  | nothing blank => simp [List.dropWhile_eq_nil_iff.mpr blank]
  | priority separates signed any hexadecimal =>
      rcases List.mem_singleton.mp signed with rfl
      intro c first
      rw [head?_of_separates separates List.mem_cons_self any hexadecimal] at first
      exact hexadecimal c (List.mem_of_mem_head? first)

/-- A priority after a plus sign is not one without a sign. -/
theorem Names.signless {card : List Char} {number : Nat} {priority : Option Nat}
    (signed : Names [['+']] card (some number)) : ¬ Names [[]] card priority := by
  intro unsigned
  exact absurd (unsigned.digit_of_head? '+' signed.head?_of_signed) (by decide)

/-! ## Lines -/

/-- The lines of a file without the white space at their ends, with `none` for bytes that are no
text. -/
def lines (file : List UInt8) : List (Option String) :=
  (file.splitOnP fun byte => byte == 0x0A).map fun line => (Text.decodeUtf8? line).map Text.trim

/-- The lines of a file that is text are those of the text. -/
theorem lines_utf8Bytes (text : String) :
    lines (Text.utf8Bytes text) =
      (Text.lineFeedPieces text).map fun line => some (Text.trim line) := by
  rw [lines, Text.splitOnP_utf8Bytes, List.map_map]
  refine List.map_congr_left fun line _ => ?_
  rw [Function.comp_apply, Text.decodeUtf8?_utf8Bytes, Option.map_some]

def isJobCard (line : Option String) : Bool :=
  line.any (Text.startsWith "// JOB")

def isEndCard (line : Option String) : Bool :=
  line.any (Text.startsWith "// END")

theorem exists_of_isJobCard {line : Option String} (isCard : isJobCard line = true) :
    ∃ card, line = some ("// JOB" ++ card) := by
  rcases (Option.any_eq_true _ _).mp isCard with ⟨text, rfl, starts⟩
  rcases Option.isSome_iff_exists.mp starts with ⟨card, found⟩
  exact ⟨card, congrArg some (Text.after?_eq_some_iff.mp found)⟩

theorem exists_of_isEndCard {line : Option String} (isCard : isEndCard line = true) :
    ∃ text, line = some ("// END" ++ text) := by
  rcases (Option.any_eq_true _ _).mp isCard with ⟨whole, rfl, starts⟩
  rcases Option.isSome_iff_exists.mp starts with ⟨text, found⟩
  exact ⟨text, congrArg some (Text.after?_eq_some_iff.mp found)⟩

end JobFile

namespace Deck

open JobFile

variable {deck next last : Deck} {line : Option String} {lines : List (Option String)}

/-! ## Reading one line -/

/-- Reads a line that has no white space at its ends, unless it is no text. -/
def read (deck : Deck) : Option String → Except JobFileError Deck
  | none => .error .notText
  | some line => (deck.readLine line).mapError .malformed

/-- A job card that is read names a priority, which is kept for the job. -/
theorem names_of_read {card : String} (ran : deck.read (some ("// JOB" ++ card)) = .ok next) :
    ∃ priority, Names [[], ['+']] card.toList priority ∧
      next = { deck with text := "", priority } := by
  rw [read, readLine_job] at ran
  cases accepted : cardPriority card with
  | error error =>
      rw [accepted] at ran
      cases ran
  | ok priority =>
      rw [accepted] at ran
      rw [← String.ofList_toList (s := card), cardPriority_eq_ok_iff] at accepted
      exact ⟨priority, accepted, (Except.ok.inj ran).symm⟩

theorem read_of_not_names {card : String}
    (other : ¬ ∃ priority, Names [[], ['+']] card.toList priority) (deck : Deck) :
    deck.read (some ("// JOB" ++ card)) =
      .error (.malformed (.invalidJobCard (Text.trim card))) := by
  rw [read, readLine_job, cardPriority_of_not_names other]
  rfl

/-- An end card that is read ends a job of the priority that was kept. -/
theorem exists_job_of_read {text : String} (ran : deck.read (some ("// END" ++ text)) = .ok next) :
    ∃ job, job.priority = deck.priority ∧ next.jobs = deck.jobs ++ [job] := by
  rw [read, readLine_end] at ran
  cases parsed : ProgramText.parse deck.text with
  | error error =>
      rw [parsed] at ran
      cases ran
  | ok bytes =>
      rw [parsed] at ran
      cases ran
      exact ⟨_, rfl, rfl⟩

/-- A line that is no card leaves the jobs and the priority alone. -/
theorem kept_of_read (jobless : isJobCard line = false) (endless : isEndCard line = false)
    (ran : deck.read line = .ok next) : next.jobs = deck.jobs ∧ next.priority = deck.priority := by
  cases line with
  | none => cases ran
  | some line =>
      have noJob : Text.after? "// JOB" line = none :=
        Option.isNone_iff_eq_none.mp (Option.isSome_eq_false_iff.mp jobless)
      have noEnd : Text.startsWith "// END" line = false := endless
      simp only [read, readLine, noJob, noEnd, Bool.false_eq_true, if_false] at ran
      split at ran <;> cases ran <;> exact ⟨rfl, rfl⟩

/-- Only end cards end jobs, and each of them ends one. -/
theorem jobs_of_read (ran : deck.read line = .ok next) :
    deck.jobs <+: next.jobs ∧
      next.jobs.length = deck.jobs.length + if isEndCard line then 1 else 0 := by
  cases endCard : isEndCard line with
  | true =>
      rcases exists_of_isEndCard endCard with ⟨text, rfl⟩
      rcases exists_job_of_read ran with ⟨job, _, jobs⟩
      rw [jobs]
      exact ⟨List.prefix_append _ _, by simp⟩
  | false =>
      have same : next.jobs = deck.jobs := by
        cases jobCard : isJobCard line with
        | true =>
            rcases exists_of_isJobCard jobCard with ⟨card, rfl⟩
            rcases names_of_read ran with ⟨priority, _, rfl⟩
            rfl
        | false => exact (kept_of_read jobCard endCard ran).1
      rw [same]
      exact ⟨List.prefix_rfl, by simp⟩

/-! ## Reading a file -/

theorem exists_of_foldlM_append {rest : List (Option String)}
    (ran : (lines ++ rest).foldlM read deck = .ok last) :
    ∃ next, lines.foldlM read deck = .ok next ∧ rest.foldlM read next = .ok last := by
  rw [List.foldlM_append] at ran
  exact exists_of_bind_eq_ok ran

theorem exists_of_foldlM_cons (ran : (line :: lines).foldlM read deck = .ok last) :
    ∃ next, deck.read line = .ok next ∧ lines.foldlM read next = .ok last := by
  rw [List.foldlM_cons] at ran
  exact exists_of_bind_eq_ok ran

/-- Jobs that are read stay, and there is one more for each end card. -/
theorem jobs_of_foldlM (ran : lines.foldlM read deck = .ok last) :
    deck.jobs <+: last.jobs ∧ last.jobs.length = deck.jobs.length + lines.countP isEndCard := by
  induction lines generalizing deck with
  | nil =>
      cases ran
      exact ⟨List.prefix_rfl, rfl⟩
  | cons line lines hypothesis =>
      rcases exists_of_foldlM_cons ran with ⟨next, first, later⟩
      rcases jobs_of_read first with ⟨begins, one⟩
      rcases hypothesis later with ⟨goesOn, more⟩
      rw [List.countP_cons]
      exact ⟨begins.trans goesOn, by omega⟩

/-- Between cards the jobs and the priority are left alone. -/
theorem kept_of_foldlM (cardless : ∀ line ∈ lines, isJobCard line = false ∧ isEndCard line = false)
    (ran : lines.foldlM read deck = .ok last) :
    last.jobs = deck.jobs ∧ last.priority = deck.priority := by
  induction lines generalizing deck with
  | nil =>
      cases ran
      exact ⟨rfl, rfl⟩
  | cons line lines hypothesis =>
      rcases List.forall_mem_cons.mp cardless with ⟨noCard, others⟩
      rcases exists_of_foldlM_cons ran with ⟨next, first, later⟩
      rcases kept_of_read noCard.1 noCard.2 first with ⟨sameJobs, samePriority⟩
      rcases hypothesis others later with ⟨jobs, priority⟩
      exact ⟨jobs.trans sameJobs, priority.trans samePriority⟩

/-- The priority on a job card is that of the job that is ended next, if no other job card comes
first. -/
theorem names_of_foldlM {before between after : List (Option String)} {card text : String}
    (cardless : ∀ line ∈ between, isJobCard line = false ∧ isEndCard line = false)
    (ran : (before ++ some ("// JOB" ++ card) ::
      (between ++ some ("// END" ++ text) :: after)).foldlM read empty = .ok last) :
    ∃ job, last.jobs[before.countP isEndCard]? = some job ∧
      Names [[], ['+']] card.toList job.priority := by
  rcases exists_of_foldlM_append ran with ⟨earlier, readBefore, ran⟩
  rcases exists_of_foldlM_cons ran with ⟨opened, readJob, ran⟩
  rcases exists_of_foldlM_append ran with ⟨filled, readBetween, ran⟩
  rcases exists_of_foldlM_cons ran with ⟨ended, readEnd, readAfter⟩
  rcases names_of_read readJob with ⟨priority, names, rfl⟩
  rcases kept_of_foldlM cardless readBetween with ⟨sameJobs, samePriority⟩
  rcases exists_job_of_read readEnd with ⟨job, jobPriority, jobs⟩
  -- The jobs that are read before the job card are as many as the end cards before it.
  have count : earlier.jobs.length = before.countP isEndCard := by
    rw [(jobs_of_foldlM readBefore).2]
    exact Nat.zero_add _
  refine ⟨job, ?_, by rwa [jobPriority, samePriority]⟩
  rcases (jobs_of_foldlM readAfter).1 with ⟨later, goesOn⟩
  rw [← goesOn, jobs, sameJobs, List.append_assoc, ← count,
    List.getElem?_append_right (Nat.le_refl _), Nat.sub_self]
  rfl

end Deck

namespace JobFile

/-- The jobs on some lines. -/
def jobsOf (lines : List (Option String)) : Except JobFileError (List Job) := do
  let deck ← lines.foldlM Deck.read Deck.empty
  return deck.jobs

theorem readJobs_eq (file : List UInt8) : readJobs file = jobsOf (lines file) := by
  have step (deck : Deck) (line : List UInt8) :
      deck.readRawLine line = deck.read ((Text.decodeUtf8? line).map Text.trim) := by
    unfold Deck.readRawLine
    cases Text.decodeUtf8? line <;> rfl
  rw [readJobs, jobsOf, lines, List.foldlM_map]
  simp only [← step]

theorem exists_deck_of_readJobs {file : List UInt8} {jobs : List Job}
    (read : readJobs file = .ok jobs) :
    ∃ last, (lines file).foldlM Deck.read Deck.empty = .ok last ∧ last.jobs = jobs := by
  rw [readJobs_eq] at read
  rcases exists_of_bind_eq_ok read with ⟨last, ran, same⟩
  exact ⟨last, ran, Except.ok.inj same⟩

theorem jobsOf_append_cons (before after : List (Option String)) (line : Option String) :
    jobsOf (before ++ line :: after) = do
      let deck ← before.foldlM Deck.read Deck.empty
      let next ← deck.read line
      let last ← after.foldlM Deck.read next
      return last.jobs := by
  rw [jobsOf, List.foldlM_append, bind_assoc]
  simp only [List.foldlM_cons, bind_assoc]

/-- A job card that names nothing ends the reading, if an earlier line has not done so. -/
theorem jobsOf_of_not_names {before after : List (Option String)} {card : String}
    (other : ¬ ∃ priority, Names [[], ['+']] card.toList priority) :
    jobsOf (before ++ some ("// JOB" ++ card) :: after) =
      jobsOf before >>= fun _ => .error (.malformed (.invalidJobCard (Text.trim card))) := by
  rw [jobsOf_append_cons, jobsOf, bind_assoc]
  refine congrArg (bind _) (funext fun deck => ?_)
  rw [Deck.read_of_not_names other]
  rfl

/-- A job card that names something does not end the reading. -/
theorem jobsOf_of_names {before : List (Option String)} {card : String} {priority : Option Nat}
    (names : Names [[], ['+']] card.toList priority) :
    jobsOf (before ++ [some ("// JOB" ++ card)]) = jobsOf before := by
  have accepted := cardPriority_eq_ok_iff.mpr names
  rw [String.ofList_toList] at accepted
  rw [jobsOf_append_cons, jobsOf]
  refine congrArg (bind _) (funext fun deck => ?_)
  rw [Deck.read, Deck.readLine_job, accepted]
  rfl

/-- The text of each job that is read is spelled in tokens of two hexadecimal digits. -/
theorem spelled_of_readJobs {file : List UInt8} {jobs : List Job} (read : readJobs file = .ok jobs)
    {job : Job} (member : job ∈ jobs) : ProgramText.Spelled job.text.toList := by
  have parsed := parse_of_readJobs read member
  by_contra other
  rcases ProgramText.refused_of_not_spelled other with ⟨_, _, _, _, _, _, _, _, refused⟩
  rw [refused] at parsed
  cases parsed

/-- What is promised of a file whose job cards may name a priority after these signs.  When the file
is read, each of its job cards names a priority or nothing; there are as many jobs as end cards, and
the job that the next end card ends has the priority of the card unless another job card comes
first; and the text of each job is spelled in tokens of two hexadecimal digits.  With a card that
names anything else the file is not read. -/
structure Conforms (signs : List (List Char)) (file : List UInt8) : Prop where
  names : ∀ jobs, readJobs file = .ok jobs → ∀ card, some ("// JOB" ++ card) ∈ lines file →
    ∃ priority, Names signs card.toList priority
  counts : ∀ jobs, readJobs file = .ok jobs → jobs.length = (lines file).countP isEndCard
  reaches : ∀ jobs, readJobs file = .ok jobs → ∀ before card between text after,
    lines file = before ++ some ("// JOB" ++ card) ::
      (between ++ some ("// END" ++ text) :: after) →
    (∀ line ∈ between, isJobCard line = false ∧ isEndCard line = false) →
    ∃ job, jobs[before.countP isEndCard]? = some job ∧ Names signs card.toList job.priority
  spelled : ∀ jobs, readJobs file = .ok jobs → ∀ job ∈ jobs, ProgramText.Spelled job.text.toList
  refuses : ∀ card, some ("// JOB" ++ card) ∈ lines file →
    (¬ ∃ priority, Names signs card.toList priority) → ∃ error, readJobs file = .error error

theorem refuses_of_names {signs : List (List Char)} {file : List UInt8}
    (named : ∀ jobs, readJobs file = .ok jobs → ∀ card, some ("// JOB" ++ card) ∈ lines file →
      ∃ priority, Names signs card.toList priority)
    {card : String} (listed : some ("// JOB" ++ card) ∈ lines file)
    (other : ¬ ∃ priority, Names signs card.toList priority) :
    ∃ error, readJobs file = .error error := by
  cases read : readJobs file with
  | error error => exact ⟨error, rfl⟩
  | ok jobs => exact absurd (named jobs read card listed) other

theorem conforms (file : List UInt8) : Conforms [[], ['+']] file := by
  have named (jobs : List Job) (read : readJobs file = .ok jobs) (card : String)
      (listed : some ("// JOB" ++ card) ∈ lines file) :
      ∃ priority, Names [[], ['+']] card.toList priority := by
    rcases exists_deck_of_readJobs read with ⟨last, ran, _⟩
    rcases List.append_of_mem listed with ⟨before, after, shape⟩
    rw [shape] at ran
    rcases Deck.exists_of_foldlM_append ran with ⟨earlier, _, later⟩
    rcases Deck.exists_of_foldlM_cons later with ⟨next, readJob, _⟩
    rcases Deck.names_of_read readJob with ⟨priority, names, _⟩
    exact ⟨priority, names⟩
  refine ⟨named, fun jobs read => ?_,
    fun jobs read before card between text after shape cardless => ?_,
    fun jobs read job => spelled_of_readJobs read, fun card => refuses_of_names named⟩
  · rcases exists_deck_of_readJobs read with ⟨last, ran, rfl⟩
    rw [(Deck.jobs_of_foldlM ran).2]
    exact Nat.zero_add _
  · rcases exists_deck_of_readJobs read with ⟨last, ran, rfl⟩
    rw [shape] at ran
    exact Deck.names_of_foldlM cardless ran

/-- What is promised for some signs holds for others too, when no card of a file that is read tells
them apart. -/
theorem Conforms.change {signs others : List (List Char)} {file : List UInt8}
    (conforms : Conforms signs file)
    (alike : ∀ jobs, readJobs file = .ok jobs → ∀ card, some ("// JOB" ++ card) ∈ lines file →
      ∀ priority, Names signs card.toList priority → Names others card.toList priority) :
    Conforms others file := by
  have named (jobs : List Job) (read : readJobs file = .ok jobs) (card : String)
      (listed : some ("// JOB" ++ card) ∈ lines file) :
      ∃ priority, Names others card.toList priority :=
    (conforms.names jobs read card listed).imp (alike jobs read card listed)
  refine ⟨named, conforms.counts,
    fun jobs read before card between text after shape cardless => ?_, conforms.spelled,
    fun card => refuses_of_names named⟩
  have listed : some ("// JOB" ++ card) ∈ lines file := by simp [shape]
  rcases conforms.reaches jobs read before card between text after shape cardless with
    ⟨job, found, names⟩
  exact ⟨job, found, alike jobs read card listed _ names⟩

/-- Job cards are accepted in their grammar and in no other, but for a plus sign that may stand
before the digits of a priority.  So the promise without signs is kept just if no card of a file
that is read has one.  A card that names anything else is reported, if no earlier line ends the
reading, and one that is in the grammar does not end it. -/
theorem cards_name_priorities (file : List UInt8) :
    Conforms [[], ['+']] file ∧
    (Conforms [[]] file ↔ ∀ jobs, readJobs file = .ok jobs →
      ∀ card, some ("// JOB" ++ card) ∈ lines file →
        ¬ ∃ number, Names [['+']] card.toList (some number)) ∧
    ∀ before card after, lines file = before ++ some ("// JOB" ++ card) :: after →
      ((¬ ∃ priority, Names [[], ['+']] card.toList priority) →
        readJobs file =
          jobsOf before >>= fun _ => .error (.malformed (.invalidJobCard (Text.trim card)))) ∧
      ∀ priority, Names [[], ['+']] card.toList priority →
        jobsOf (before ++ [some ("// JOB" ++ card)]) = jobsOf before := by
  refine ⟨conforms file, ⟨?_, ?_⟩, fun before card after shape => ⟨fun other => ?_, ?_⟩⟩
  · rintro promised jobs read card listed ⟨number, signed⟩
    rcases promised.names jobs read card listed with ⟨priority, unsigned⟩
    exact signed.signless unsigned
  · intro signless
    refine (conforms file).change fun jobs read card listed priority names => ?_
    rcases names.unsigned_or_signed with unsigned | signed
    · exact unsigned
    · exact absurd signed (signless jobs read card listed)
  · rw [readJobs_eq, shape, jobsOf_of_not_names other]
  · exact fun priority => jobsOf_of_names

/-- Two job cards, of which the later one counts; what follows its priority does not. -/
def twoCards : List UInt8 :=
  Text.utf8Bytes "// JOB 7\n\u3000// JOB\t0fF two\r\nA9 0b\n\n// END\n"

theorem readJobs_twoCards : readJobs twoCards = .ok [⟨"A9 0b", [0xA9, 0x0B], some 0xFF⟩] := by
  rw [twoCards, readJobs_eq, lines_utf8Bytes]
  decide

/-- No card of the file has a sign, so that all promises are kept.  A minus sign ends the
reading. -/
theorem cards_name_priorities_small :
    Conforms [[]] twoCards ∧
    (∃ jobs job, readJobs twoCards = .ok jobs ∧ jobs[0]? = some job ∧
      Names [[], ['+']] "\t0fF two".toList job.priority ∧
      ProgramText.Spelled job.text.toList) ∧
    readJobs (Text.utf8Bytes "// JOB\n// JOB -5\n// END") =
      .error (.malformed (.invalidJobCard "-5")) := by
  refine ⟨?_, ?_, ?_⟩
  · have signless : ∀ line ∈ lines twoCards, ∀ card ∈ line.bind (Text.after? "// JOB"),
        (card.toList.dropWhile Text.isCardSpace).head? ≠ some '+' := by
      rw [twoCards, lines_utf8Bytes]
      decide
    rw [(cards_name_priorities twoCards).2.1]
    rintro jobs _ card listed ⟨number, signed⟩
    exact signless _ listed card (Text.after?_eq_some_iff.mpr rfl) signed.head?_of_signed
  · have conforms := (cards_name_priorities twoCards).1
    have shape : lines twoCards = [some "// JOB 7"] ++ some ("// JOB" ++ "\t0fF two") ::
        ([some "A9 0b", some ""] ++ some ("// END" ++ "") :: [some ""]) := by
      rw [twoCards, lines_utf8Bytes]
      decide
    rcases conforms.reaches _ readJobs_twoCards _ _ _ _ _ shape (by decide) with
      ⟨job, found, named⟩
    exact ⟨_, job, readJobs_twoCards, found, named,
      conforms.spelled _ readJobs_twoCards job (List.mem_of_getElem? found)⟩
  · have unnamed : ¬ ∃ priority, Names [[], ['+']] " -5".toList priority := by
      rintro ⟨priority, names⟩
      have refused : Deck.cardPriority (String.ofList " -5".toList) =
          .error (.invalidJobCard "-5") := by
        decide
      rw [cardPriority_eq_ok_iff.mpr names] at refused
      cases refused
    have shape : lines (Text.utf8Bytes "// JOB\n// JOB -5\n// END") =
        [some "// JOB"] ++ some ("// JOB" ++ " -5") :: [some "// END"] := by
      rw [lines_utf8Bytes]
      decide
    rw [((cards_name_priorities _).2.2 _ _ _ shape).1 unnamed]
    decide

/-- A job card with a plus sign. -/
def signedCard : List UInt8 :=
  Text.utf8Bytes "// JOB +5\nEA 00\n// END\n"

/-- Without signs the promise is not kept of each file: the priority on this card has one, and
the file is read. -/
theorem not_conforms_without_signs : ¬ ∀ file, Conforms [[]] file := by
  intro promised
  have conforms := promised signedCard
  have read : readJobs signedCard = .ok [⟨"EA 00", [0xEA, 0x00], some 5⟩] := by
    rw [signedCard, readJobs_eq, lines_utf8Bytes]
    decide
  have listed : some ("// JOB" ++ " +5") ∈ lines signedCard := by
    rw [signedCard, lines_utf8Bytes]
    decide
  rcases conforms.names _ read " +5" listed with ⟨priority, names⟩
  exact absurd (names.digit_of_head? '+' (by decide)) (by decide)

end JobFile

end Timeshare
