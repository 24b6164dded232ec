import Timeshare.Program.JobFile
import Timeshare.Proofs.Program.Source
import Timeshare.Proofs.Text.Lines

/-!
# Reading a job file

The layout of a job file is described apart from how it is read: what a line may look like, which
lines make up a job, and which jobs make up a file.  Every file that is laid out so is read as the
jobs it lists, and whatever file is read, the text of each of its jobs spells the bytes of that job.
-/

namespace Timeshare

namespace JobFile

/-! ## Layout -/

/-- A line that says nothing: a blank one, or a comment that is neither a job card nor an end
card. -/
inductive Remark : List Char → Prop
  | blank {margin} (white : ∀ c ∈ margin, Text.isWhiteSpace c) : Remark margin
  | comment {margin text} (white : ∀ c ∈ margin, Text.isWhiteSpace c)
      (jobless : ¬ " JOB".toList <+: text) (endless : ¬ " END".toList <+: text) :
      Remark (margin ++ ("//".toList ++ text))

/-- A job card: it names no priority, or one in hexadecimal digits of either case. -/
inductive JobCard : List Char → Option Nat → Prop
  | unnamed {before after} (whiteBefore : ∀ c ∈ before, Text.isWhiteSpace c)
      (whiteAfter : ∀ c ∈ after, Text.isWhiteSpace c) :
      JobCard (before ++ ("// JOB".toList ++ after)) none
  | named {before gap digits after priority} (zeros : Nat)
      (whiteBefore : ∀ c ∈ before, Text.isWhiteSpace c) (separates : ∀ c ∈ gap, Text.isCardSpace c)
      (spells : digits.map Char.toUpper = (Text.hex priority).toList)
      (bounded : priority < priorityBound) (whiteAfter : ∀ c ∈ after, Text.isWhiteSpace c) :
      JobCard (before ++ ("// JOB".toList ++ gap ++ (List.replicate zeros '0' ++ digits) ++ after))
        (some priority)

/-- An end card, whatever it says after its first word. -/
inductive EndCard : List Char → Prop
  | mk {before} (white : ∀ c ∈ before, Text.isWhiteSpace c) (text) :
      EndCard (before ++ ("// END".toList ++ text))

/-- The lines between the cards of a job: rows of its program, with remarks anywhere. -/
inductive Body : List (List Char) → List UInt8 → Prop
  | done : Body [] []
  | remark {line lines bytes} (remark : Remark line) (body : Body lines bytes) :
      Body (line :: lines) bytes
  | row {line first lines bytes} (row : ProgramText.Row line first) (body : Body lines bytes) :
      Body (line :: lines) (first ++ bytes)

/-- The lines of a job file: the jobs, each with its priority and its bytes, with remarks
anywhere. -/
inductive Lists : List (List Char) → List (Option Nat × List UInt8) → Prop
  | done : Lists [] []
  | remark {line lines jobs} (remark : Remark line) (lists : Lists lines jobs) :
      Lists (line :: lines) jobs
  | job {jobCard priority body bytes endCard lines jobs} (opens : JobCard jobCard priority)
      (holds : Body body bytes) (closes : EndCard endCard) (lists : Lists lines jobs) :
      Lists (jobCard :: body ++ endCard :: lines) ((priority, bytes) :: jobs)

/-- The text of a file with these lines.  Each ends with a line feed or with a carriage return and
a line feed; the last may also end with the file. -/
inductive Written : List (List Char) → List Char → Prop
  | done : Written [] []
  | last {line} (whole : '\n' ∉ line) : Written [line] line
  | lineFeed {line lines text} (whole : '\n' ∉ line) (written : Written lines text) :
      Written (line :: lines) (line ++ '\n' :: text)
  | carriageReturn {line lines text} (whole : '\n' ∉ line) (written : Written lines text) :
      Written (line :: lines) (line ++ '\r' :: '\n' :: text)

end JobFile

namespace Deck

open JobFile

variable {deck : Deck} {line : List Char} {bytes : List UInt8}

/-! ## Lines -/

/-- Reads lines that may have white space at their ends. -/
def readLines (deck : Deck) (lines : List (List Char)) : Except ProgramError Deck :=
  lines.foldlM (fun deck line => deck.readLine (Text.trim (String.ofList line))) deck

theorem readLines_cons {next : Deck} (lines : List (List Char))
    (read : deck.readLine (Text.trim (String.ofList line)) = .ok next) :
    deck.readLines (line :: lines) = next.readLines lines := by
  rw [readLines, List.foldlM_cons, read]
  rfl

theorem readLines_append {first : List (List Char)} {next : Deck} (rest : List (List Char))
    (read : deck.readLines first = .ok next) :
    deck.readLines (first ++ rest) = next.readLines rest := by
  rw [readLines] at read
  rw [readLines, List.foldlM_append, read]
  rfl

/-- A line is read alike whether its bytes or its text are given. -/
theorem foldlM_readRawLine_cons {text : String} {next : Deck} (pieces : List String)
    (read : deck.readLine (Text.trim text) = .ok next) :
    ((text :: pieces).map Text.utf8Bytes).foldlM readRawLine deck =
      (pieces.map Text.utf8Bytes).foldlM readRawLine next := by
  rw [List.map_cons, List.foldlM_cons, readRawLine, Text.decodeUtf8?_utf8Bytes]
  simp only [read]
  rfl

/-! ## One line -/

theorem readLine_empty (deck : Deck) : deck.readLine "" = .ok deck := by
  have notJob := Text.leadless "// JOB" "" (by decide)
  have notEnd := Text.leadless "// END" "" (by decide)
  simp only [readLine, notJob.1, notEnd.2, Bool.false_eq_true, if_false]
  rfl

theorem readLine_job (deck : Deck) (card : String) :
    deck.readLine ("// JOB" ++ card) = do
      let priority ← cardPriority card
      return { deck with text := "", priority } := by
  rw [readLine, Text.after?_eq_some_iff.mpr rfl]

theorem readLine_end (deck : Deck) (text : String) :
    deck.readLine ("// END" ++ text) = do
      let bytes ← ProgramText.parse deck.text
      return ⟨deck.jobs ++ [⟨Text.trim deck.text, bytes, deck.priority⟩], "", none⟩ := by
  have notJob : Text.after? "// JOB" ("// END" ++ text) = none := by
    refine (Text.leadless _ _ ?_).1
    rw [String.toList_append]
    rintro ⟨rest, same⟩
    simp at same
  simp only [readLine, notJob, Text.startsWith_append, if_true]

theorem readLine_comment (deck : Deck) {text : List Char} (jobless : ¬ " JOB".toList <+: text)
    (endless : ¬ " END".toList <+: text) :
    deck.readLine ("//" ++ String.ofList text) = .ok deck := by
  have noCard {lead : List Char} (other : ¬lead <+: text) :
      ¬ '/' :: '/' :: lead <+: ("//" ++ String.ofList text).toList := by
    rw [String.toList_append, String.toList_ofList]
    rintro ⟨rest, same⟩
    simp at same
    exact other ⟨rest, same⟩
  have notJob := Text.leadless "// JOB" _ (noCard jobless)
  have notEnd := Text.leadless "// END" _ (noCard endless)
  simp only [readLine, notJob.1, notEnd.2, Text.startsWith_append, Bool.or_true,
    Bool.false_eq_true, if_true, if_false]

theorem readLine_row (deck : Deck) {first : Char} (other : first ≠ '/') (rest : List Char) :
    deck.readLine (String.ofList (first :: rest)) =
      .ok { deck with text := deck.text ++ String.ofList (first :: rest) ++ " " } := by
  have noCard (lead : List Char) : ¬ '/' :: lead <+: (String.ofList (first :: rest)).toList := by
    rw [String.toList_ofList, List.cons_prefix_cons]
    exact fun same => other same.1.symm
  have notJob := Text.leadless "// JOB" _ (noCard _)
  have notEnd := Text.leadless "// END" _ (noCard _)
  have noComment := Text.leadless "//" _ (noCard _)
  have some : (String.ofList (first :: rest)).isEmpty = false := by
    simp
  simp only [readLine, notJob.1, notEnd.2, noComment.2, some, Bool.or_false, Bool.false_eq_true,
    if_false]

/-! ## One line of a layout -/

theorem readLine_remark (remark : Remark line) (deck : Deck) :
    deck.readLine (Text.trim (String.ofList line)) = .ok deck := by
  cases remark with
  | blank white => rw [Text.trim_of_white white, readLine_empty]
  | @comment margin text white jobless endless =>
      have bare : Text.Bare "//".toList := ⟨⟨'/', rfl, by decide⟩, ⟨'/', rfl, by decide⟩⟩
      -- Trimming shortens the comment at its end, so it brings no card about.
      have shorter := List.rdropWhile_prefix Text.isWhiteSpace text
      rw [bare.trim_eq white, String.ofList_append, String.ofList_toList]
      exact deck.readLine_comment (fun card => jobless (card.trans shorter))
        fun card => endless (card.trans shorter)

theorem cardPriority_named {gap digits : List Char} {priority : Nat}
    (separates : ∀ c ∈ gap, Text.isCardSpace c)
    (spells : digits.map Char.toUpper = (Text.hex priority).toList)
    (bounded : priority < priorityBound) (zeros : Nat) :
    cardPriority (String.ofList (gap ++ (List.replicate zeros '0' ++ digits))) =
      .ok (some priority) := by
  rcases Text.digitsValue?_hex spells zeros with ⟨any, value⟩
  have solid : ∀ c ∈ List.replicate zeros '0' ++ digits, Text.isCardSpace c = false := by
    intro c member
    rcases Text.digitValue?_of_mem value member with ⟨_, digit⟩
    exact Text.isCardSpace_eq_false (ProgramText.solid_of_digit digit).1
  rw [cardPriority, Text.fields_append_left separates, Text.fields_of_solid any solid]
  simp only [Text.numeral?_of_digits any value bounded]

theorem readLine_jobCard {priority : Option Nat} (card : JobCard line priority) (deck : Deck) :
    deck.readLine (Text.trim (String.ofList line)) = .ok { deck with text := "", priority } := by
  have bareLead : Text.Bare "// JOB".toList :=
    ⟨⟨'/', rfl, by decide⟩, ⟨'B', rfl, by decide⟩⟩
  cases card with
  | unnamed whiteBefore whiteAfter =>
      rw [bareLead.trim_eq_of_white whiteBefore whiteAfter, String.ofList_toList,
        ← String.append_empty (s := "// JOB"), readLine_job]
      rfl
  | @named before gap digits after priority zeros whiteBefore separates spells bounded
      whiteAfter =>
      rcases Text.digitsValue?_hex spells zeros with ⟨any, value⟩
      have bareValue : Text.Bare (List.replicate zeros '0' ++ digits) := by
        refine .of_solid any fun c member => ?_
        rcases Text.digitValue?_of_mem value member with ⟨_, digit⟩
        exact (ProgramText.solid_of_digit digit).1
      rw [(bareLead.append bareValue gap).trim_eq_of_white whiteBefore whiteAfter,
        List.append_assoc, String.ofList_append, String.ofList_toList, readLine_job,
        cardPriority_named separates spells bounded zeros]
      rfl

theorem readLine_endCard (card : EndCard line) (deck : Deck)
    (begins : ProgramText.Begins deck.text bytes) :
    deck.readLine (Text.trim (String.ofList line)) =
      .ok ⟨deck.jobs ++ [⟨Text.trim deck.text, bytes, deck.priority⟩], "", none⟩ := by
  have bareLead : Text.Bare "// END".toList :=
    ⟨⟨'/', rfl, by decide⟩, ⟨'D', rfl, by decide⟩⟩
  cases card with
  | mk white text =>
      rw [bareLead.trim_eq white, String.ofList_append, String.ofList_toList, readLine_end,
        begins.parse]
      rfl

theorem readLine_of_row {first : List UInt8} (row : ProgramText.Row line first) (deck : Deck)
    (begins : ProgramText.Begins deck.text bytes) :
    ∃ text, deck.readLine (Text.trim (String.ofList line)) = .ok { deck with text } ∧
      ProgramText.Begins text (bytes ++ first) := by
  have read := (ProgramText.parse_trim _).trans row.parse
  rcases row.trim with ⟨rfl, blank⟩ | ⟨c, rest, value, trimmed, digit⟩
  · refine ⟨deck.text, ?_, by rwa [List.append_nil]⟩
    rw [blank, readLine_empty]
  · rw [trimmed] at read ⊢
    exact ⟨_, deck.readLine_row (ProgramText.solid_of_digit digit).2 rest,
      begins.append_space read⟩

/-! ## Jobs and files -/

/-- The lines of a body add the bytes they spell, and change nothing else of the deck. -/
theorem readLines_body {lines : List (List Char)} {more : List UInt8} (body : Body lines more)
    (deck : Deck) (begins : ProgramText.Begins deck.text bytes) :
    ∃ text, deck.readLines lines = .ok { deck with text } ∧
      ProgramText.Begins text (bytes ++ more) := by
  induction body generalizing deck bytes with
  | done => exact ⟨deck.text, rfl, by rwa [List.append_nil]⟩
  | remark remark _ hypothesis =>
      rcases hypothesis deck begins with ⟨text, read, begun⟩
      exact ⟨text, (readLines_cons _ (readLine_remark remark deck)).trans read, begun⟩
  | row row _ hypothesis =>
      rcases readLine_of_row row deck begins with ⟨text, read, begun⟩
      rcases hypothesis { deck with text } begun with ⟨last, readRest, begunRest⟩
      exact ⟨last, (readLines_cons _ read).trans readRest, by rwa [List.append_assoc] at begunRest⟩

/-- Whatever is left in the deck of earlier lines, a job card clears it.  So the jobs are read one
by one. -/
theorem readLines_lists {lines : List (List Char)} {jobs : List (Option Nat × List UInt8)}
    (lists : Lists lines jobs) (deck : Deck) :
    ∃ last read, deck.readLines lines = .ok last ∧ last.jobs = deck.jobs ++ read ∧
      read.map (fun job => (job.priority, job.bytes)) = jobs := by
  induction lists generalizing deck with
  | done => exact ⟨deck, [], rfl, (List.append_nil _).symm, rfl⟩
  | remark remark _ hypothesis =>
      rcases hypothesis deck with ⟨last, read, ran, jobs, same⟩
      exact ⟨last, read, (readLines_cons _ (readLine_remark remark deck)).trans ran, jobs, same⟩
  | @job jobCard priority body bytes endCard lines jobs opens holds closes _ hypothesis =>
      rcases readLines_body holds { deck with text := "", priority } .empty with
        ⟨text, readBody, begins⟩
      rw [List.nil_append] at begins
      have readEnd := readLine_endCard closes { deck with text, priority } begins
      rcases hypothesis ⟨deck.jobs ++ [⟨Text.trim text, bytes, priority⟩], "", none⟩ with
        ⟨last, read, ran, jobs, same⟩
      refine ⟨last, ⟨Text.trim text, bytes, priority⟩ :: read, ?_, ?_, ?_⟩
      · rw [List.cons_append, readLines_cons _ (readLine_jobCard opens deck),
          readLines_append _ readBody, readLines_cons _ readEnd, ran]
      · rw [jobs, List.append_assoc, List.singleton_append]
      · rw [List.map_cons, same]

theorem exists_of_readLines_cons {lines : List (List Char)} {last : Deck}
    (read : deck.readLines (line :: lines) = .ok last) :
    ∃ next, deck.readLine (Text.trim (String.ofList line)) = .ok next ∧
      next.readLines lines = .ok last := by
  rw [readLines, List.foldlM_cons] at read
  exact exists_of_bind_eq_ok read

/-- A carriage return before the line feed is white space at the end of its line, and past the last
line feed there is nothing. -/
theorem foldlM_readRawLine {lines : List (List Char)} {text : List Char} {last : Deck}
    (written : Written lines text) (read : deck.readLines lines = .ok last) :
    ((Text.lineFeedPieces (String.ofList text)).map Text.utf8Bytes).foldlM readRawLine deck =
      .ok last := by
  induction written generalizing deck with
  | done =>
      have blank : Text.trim (String.ofList []) = "" := Text.trim_of_white (by simp)
      rw [Text.lineFeedPieces_of_whole (by simp),
        foldlM_readRawLine_cons [] (blank ▸ readLine_empty deck)]
      exact congrArg Except.ok (Except.ok.inj read)
  | last whole =>
      rcases exists_of_readLines_cons read with ⟨next, first, rest⟩
      rw [Text.lineFeedPieces_of_whole whole, foldlM_readRawLine_cons [] first]
      exact congrArg Except.ok (Except.ok.inj rest)
  | lineFeed whole _ hypothesis =>
      rcases exists_of_readLines_cons read with ⟨next, first, rest⟩
      rw [Text.lineFeedPieces_append_cons whole, foldlM_readRawLine_cons _ first]
      exact hypothesis rest
  | @carriageReturn line lines text whole _ hypothesis =>
      rcases exists_of_readLines_cons read with ⟨next, first, rest⟩
      have split : line ++ '\r' :: '\n' :: text = line ++ ['\r'] ++ '\n' :: text := by simp
      rw [← Text.trim_concat (c := '\r') (by decide)] at first
      rw [split, Text.lineFeedPieces_append_cons (by simpa using whole),
        foldlM_readRawLine_cons _ first]
      exact hypothesis rest

end Deck

namespace JobFile

/-- A file is read as the jobs it lists: in their order, and each with its priority and its
bytes. -/
theorem readJobs_written {lines : List (List Char)} {text : List Char}
    {jobs : List (Option Nat × List UInt8)} (lists : Lists lines jobs)
    (written : Written lines text) :
    ∃ read, readJobs (Text.utf8Bytes (String.ofList text)) = .ok read ∧
      read.map (fun job => (job.priority, job.bytes)) = jobs := by
  rcases Deck.readLines_lists lists .empty with ⟨last, read, ran, same, listed⟩
  refine ⟨read, ?_, listed⟩
  rw [readJobs, Text.splitOnP_utf8Bytes, Deck.foldlM_readRawLine written ran]
  exact congrArg Except.ok same

/-- Two jobs, the second of them empty: white space of several kinds, digits of either case, remarks
between and inside the jobs, line ends of both kinds, and a last line that has none. -/
theorem readJobs_written_small :
    ∃ read, readJobs (Text.utf8Bytes
        "\u3000// two\r\n // JOB 0Ff\t\n\u00a0a9\u20030B\r\n\r\n//END\n0c\n// END\n// JOB\r\n// END") =
          .ok read ∧
      read.map (fun job => (job.priority, job.bytes)) =
        [(some 0xFF, [0xA9, 0x0B, 0x0C]), (none, [])] := by
  have white {margin : List Char} (all : margin.all Text.isWhiteSpace = true) :
      ∀ c ∈ margin, Text.isWhiteSpace c := List.all_eq_true.mp all
  have comment : Remark (['\u3000'] ++ ("//".toList ++ " two".toList)) :=
    .comment (white rfl) (by decide) (by decide)
  have named : JobCard ([' '] ++ ("// JOB".toList ++ [' '] ++
      (List.replicate 1 '0' ++ ['F', 'f']) ++ ['\t'])) (some 0xFF) :=
    .named 1 (white rfl) (List.all_eq_true.mp rfl) (by decide) (by decide) (white rfl)
  have row : ProgramText.Row (['\u00a0'] ++ (['a', '9'] ++ (['\u2003'] ++ (['0', 'B'] ++ []))))
      [0xA9, 0x0B] :=
    .token (white rfl) rfl (by simp [Text.isWhiteSpace])
      (.token (white rfl) rfl (by simp) (.blank (white rfl)))
  have blank : Remark [] := .blank (white rfl)
  have almostEnd : Remark ([] ++ ("//".toList ++ "END".toList)) :=
    .comment (white rfl) (by decide) (by decide)
  have lastRow : ProgramText.Row ([] ++ (['0', 'c'] ++ [])) [0x0C] :=
    .token (white rfl) rfl (by simp) (.blank (white rfl))
  have endCard : EndCard ([] ++ ("// END".toList ++ [])) := .mk (white rfl) []
  have unnamed : JobCard ([] ++ ("// JOB".toList ++ [])) none := .unnamed (white rfl) (white rfl)
  have body := Body.row row (.remark blank (.remark almostEnd (.row lastRow .done)))
  have lists := Lists.remark comment (.job named body endCard (.job unnamed .done endCard .done))
  exact readJobs_written lists (.carriageReturn (by decide) (.lineFeed (by decide)
    (.carriageReturn (by decide) (.carriageReturn (by decide) (.lineFeed (by decide)
      (.lineFeed (by decide) (.lineFeed (by decide) (.carriageReturn (by decide)
        (.last (by decide))))))))))

/-! ## Every job has a layout -/

theorem exists_body (bytes : List UInt8) :
    ∃ lines, Body lines bytes ∧ ∀ line ∈ lines, '\n' ∉ line := by
  induction bytes with
  | nil => exact ⟨[], .done, by simp⟩
  | cons byte bytes hypothesis =>
      rcases hypothesis with ⟨lines, body, whole⟩
      have spells := ProgramText.spells_hexByte byte
      have row : ProgramText.Row ([] ++ ((Text.hexByte byte).toList ++ [])) [byte] :=
        .token (by simp) spells (by simp) (.blank (by simp))
      refine ⟨_ :: lines, .row row body, ?_⟩
      rw [List.forall_mem_cons]
      refine ⟨fun lineFeed => ?_, whole⟩
      rw [List.nil_append, List.append_nil] at lineFeed
      exact absurd (spells.solid.2 _ lineFeed) (by decide)

theorem exists_jobCard {priority : Option Nat}
    (bounded : ∀ value ∈ priority, value < priorityBound) :
    ∃ line, JobCard line priority ∧ '\n' ∉ line := by
  cases priority with
  | none =>
      have card : JobCard ([] ++ ("// JOB".toList ++ [])) none := .unnamed (by simp) (by simp)
      exact ⟨_, card, by simp⟩
  | some value =>
      have digits : (Nat.toDigits 16 value).map Char.toUpper = (Text.hex value).toList := by
        rw [Text.hex, String.toList_ofList]
      have space : ∀ c ∈ [' '], Text.isCardSpace c := List.all_eq_true.mp rfl
      have card := JobCard.named 0 (List.forall_mem_nil _) space digits (bounded value rfl)
        (List.forall_mem_nil _)
      refine ⟨_, card, ?_⟩
      have noDigit : '\n' ∉ Nat.toDigits 16 value := by
        intro member
        rcases Text.digitValue?_of_mem (Text.digitsValue?_toDigits value) member with ⟨_, digit⟩
        exact absurd (ProgramText.solid_of_digit digit).1 (by decide)
      simpa using noDigit

/-- Each list of jobs with priorities of 32 bits is listed by some file. -/
theorem exists_layout {jobs : List (Option Nat × List UInt8)}
    (bounded : ∀ job ∈ jobs, ∀ priority ∈ job.1, priority < priorityBound) :
    ∃ lines text, Lists lines jobs ∧ Written lines text := by
  have layout : ∃ lines, Lists lines jobs ∧ ∀ line ∈ lines, '\n' ∉ line := by
    induction jobs with
    | nil => exact ⟨[], .done, by simp⟩
    | cons job jobs hypothesis =>
        rcases List.forall_mem_cons.mp bounded with ⟨first, rest⟩
        rcases hypothesis rest with ⟨lines, lists, whole⟩
        rcases exists_jobCard first with ⟨jobCard, opens, wholeCard⟩
        rcases exists_body job.2 with ⟨body, holds, wholeBody⟩
        have endCard : EndCard ([] ++ ("// END".toList ++ [])) := .mk (by simp) []
        refine ⟨_, .job opens holds endCard lists, ?_⟩
        simp only [List.cons_append, List.mem_cons, List.mem_append]
        rintro line (rfl | inside | rfl | later)
        · exact wholeCard
        · exact wholeBody line inside
        · decide
        · exact whole line later
  rcases layout with ⟨lines, lists, whole⟩
  have written : ∃ text, Written lines text := by
    clear lists
    induction lines with
    | nil => exact ⟨[], .done⟩
    | cons line lines hypothesis =>
        rcases List.forall_mem_cons.mp whole with ⟨first, rest⟩
        rcases hypothesis rest with ⟨text, written⟩
        exact ⟨_, .lineFeed first written⟩
  rcases written with ⟨text, written⟩
  exact ⟨lines, text, lists, written⟩

end JobFile

/-! ## The text of a job -/

namespace Deck

variable {deck next : Deck}

/-- The text of each finished job spells its bytes. -/
def Faithful (deck : Deck) : Prop :=
  ∀ job ∈ deck.jobs, ProgramText.parse job.text = .ok job.bytes

theorem Faithful.readLine (faithful : deck.Faithful) {line : String}
    (read : deck.readLine line = .ok next) : next.Faithful := by
  unfold Deck.readLine at read
  split at read
  · rcases exists_of_bind_eq_ok read with ⟨priority, _, cleared⟩
    exact Except.ok.inj cleared ▸ faithful
  · split at read
    · rcases exists_of_bind_eq_ok read with ⟨bytes, parsed, finished⟩
      cases finished
      intro job member
      rcases List.mem_append.mp member with before | new
      · exact faithful job before
      · rw [List.mem_singleton.mp new]
        exact (ProgramText.parse_trim deck.text).trans parsed
    · split at read
      · exact Except.ok.inj read ▸ faithful
      · exact Except.ok.inj read ▸ faithful

theorem Faithful.readRawLine (faithful : deck.Faithful) {line : List UInt8}
    (read : deck.readRawLine line = .ok next) : next.Faithful := by
  unfold Deck.readRawLine at read
  split at read
  · cases read
  · rename_i text _
    cases first : deck.readLine (Text.trim text) with
    | error error =>
        rw [first] at read
        cases read
    | ok after =>
        rw [first] at read
        exact Except.ok.inj read ▸ faithful.readLine first

theorem Faithful.foldlM (faithful : deck.Faithful) {lines : List (List UInt8)}
    (read : lines.foldlM Deck.readRawLine deck = .ok next) : next.Faithful := by
  induction lines generalizing deck with
  | nil => exact Except.ok.inj read ▸ faithful
  | cons line lines hypothesis =>
      rw [List.foldlM_cons] at read
      rcases exists_of_bind_eq_ok read with ⟨after, first, rest⟩
      exact hypothesis (faithful.readRawLine first) rest

end Deck

/-- Whatever is read, the text of a job spells the bytes of the job. -/
theorem parse_of_readJobs {file : List UInt8} {jobs : List Job} (read : readJobs file = .ok jobs)
    {job : Job} (member : job ∈ jobs) : ProgramText.parse job.text = .ok job.bytes := by
  have faithful : Deck.empty.Faithful := by
    intro job none
    cases none
  rcases exists_of_bind_eq_ok read with ⟨deck, ran, same⟩
  cases same
  exact faithful.foldlM ran job member

end Timeshare
