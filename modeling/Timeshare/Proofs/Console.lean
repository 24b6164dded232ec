import Timeshare.Console
import Timeshare.Proofs.Text.Lines

/-!
# Two writers of one console

Programs and the kernel share a console.  Whose line was completed is read off the console before
and after each request.  The lines of programs and the line being written are the text of programs
cut at its line feeds, whatever system messages come between, and the system messages are all there,
in their order.

What is put out of a console are its lines with a line feed between each two, with one exception: a
single completed line that is empty is left out when another line is being written.
-/

namespace Timeshare.Console

/-- What is asked of a console. -/
inductive Request
  | putText (text : String)
  | putSystemText (text : String)
  | advanceLine
  | clear
deriving DecidableEq

/-- Who completes a line. -/
inductive Author
  | program
  | system
deriving DecidableEq

namespace Request

def author : Request → Author
  | putSystemText _ => .system
  | _ => .program

/-- The text that a program writes.  To advance the line is to write a line feed. -/
def written : Request → String
  | putText text => text
  | advanceLine => "\n"
  | _ => ""

def message? : Request → Option String
  | putSystemText text => some text
  | _ => none

end Request

def perform (console : Console) : Request → Console
  | .putText text => console.putText text
  | .putSystemText text => console.putSystemText text
  | .advanceLine => console.advanceLine
  | .clear => console.clear

def performAll (console : Console) (requests : List Request) : Console :=
  requests.foldl perform console

/-- The lines that a request adds to those that are there. -/
def completed (console : Console) (request : Request) : List String :=
  (console.perform request).lines.toList.drop console.lines.size

/-- The lines that are completed on the way, each with its author. -/
def ledger (console : Console) : List Request → List (Author × String)
  | [] => []
  | request :: rest =>
    (console.completed request).map (request.author, ·) ++ ledger (console.perform request) rest

/-- The lines that an author completes. -/
def linesBy (author : Author) (console : Console) (requests : List Request) : List String :=
  ((console.ledger requests).filter (·.1 = author)).map Prod.snd

/-- All that programs write. -/
def programText (requests : List Request) : String :=
  String.join (requests.map Request.written)

/-- The lines of a console: those that are completed and, unless it is empty, the one being
written. -/
def shownLines (console : Console) : List String :=
  console.lines.toList ++ if console.line.isEmpty then [] else [console.line]

variable {console : Console} {request : Request} {requests : List Request}

/-! ## One request -/

/-- The console with more lines completed, and another line being written. -/
def extended (console : Console) (done : List String) (line : String) : Console where
  lines := console.lines ++ done.toArray
  line := line
  transcript := console.transcript ++ done.toArray

theorem foldl_advance (pieces : List String) (console : Console) :
    ∃ done last, console.line :: pieces = done ++ [last] ∧
      pieces.foldl (fun console piece => console.advanceLine.continueLine piece) console =
        console.extended done last := by
  induction pieces generalizing console with
  | nil => exact ⟨[], console.line, rfl, by simp [extended]⟩
  | cons piece pieces hypothesis =>
      rcases hypothesis (console.advanceLine.continueLine piece) with ⟨done, last, split, same⟩
      have begun : (console.advanceLine.continueLine piece).line = piece := String.empty_append
      rw [begun] at split
      refine ⟨console.line :: done, last, by rw [split, List.cons_append], ?_⟩
      rw [List.foldl_cons, same]
      simp [extended, advanceLine, complete, continueLine]

/-- The line being written and the text that is put cut at its line feeds. -/
theorem putText_eq_extended (text : String) (console : Console) :
    ∃ done last, (Text.lineFeedPieces text).modifyHead (console.line ++ ·) = done ++ [last] ∧
      console.putText text = console.extended done last := by
  unfold putText
  cases pieces : Text.lineFeedPieces text with
  | nil => exact absurd pieces (Text.lineFeedPieces_ne_nil text)
  | cons first rest =>
      rcases foldl_advance rest (console.continueLine first) with ⟨done, last, split, same⟩
      exact ⟨done, last, split, same⟩

theorem completed_of_extended {done : List String} {last : String}
    (same : console.perform request = console.extended done last) :
    console.completed request = done ∧ (console.perform request).line = last := by
  simp [completed, same, extended]

/-- A request of a program writes on from the line that is being written. -/
theorem perform_of_program (kept : request ≠ .clear) (asks : request.author = .program) :
    ∃ done last,
      (Text.lineFeedPieces request.written).modifyHead (console.line ++ ·) = done ++ [last] ∧
      console.perform request = console.extended done last := by
  cases request with
  | putText text => exact putText_eq_extended text console
  | putSystemText text => cases asks
  | advanceLine =>
      have pieces : Text.lineFeedPieces "\n" = ["", ""] := by decide
      refine ⟨[console.line], "", ?_, ?_⟩
      · rw [Request.written, pieces, List.modifyHead_cons, String.append_empty]
        rfl
      · simp [perform, advanceLine, complete, extended]
  | clear => exact absurd rfl kept

/-- A system message is a line of its own, and leaves the line that is being written. -/
theorem perform_of_system (asks : request.author = .system) :
    ∃ message, request.message? = some message ∧ request.written = "" ∧
      console.perform request = console.extended [message] console.line := by
  cases request with
  | putSystemText text =>
      exact ⟨text, rfl, rfl, by simp [perform, putSystemText, complete, extended]⟩
  | putText text => cases asks
  | advanceLine => cases asks
  | clear => cases asks

theorem message?_of_program (asks : request.author = .program) : request.message? = none := by
  cases request with
  | putSystemText text => cases asks
  | putText text => rfl
  | advanceLine => rfl
  | clear => rfl

theorem exists_extended (kept : request ≠ .clear) :
    ∃ done last, console.perform request = console.extended done last := by
  cases asks : request.author with
  | program =>
      rcases perform_of_program kept asks with ⟨done, last, _, same⟩
      exact ⟨done, last, same⟩
  | system =>
      rcases perform_of_system asks with ⟨message, _, _, same⟩
      exact ⟨[message], console.line, same⟩

/-! ## Any number of requests -/

theorem map_snd_authored (author : Author) (lines : List String) :
    (lines.map (author, ·)).map Prod.snd = lines := by
  rw [List.map_map]
  exact List.map_id lines

theorem linesBy_cons (author : Author) (console : Console) (request : Request)
    (requests : List Request) :
    console.linesBy author (request :: requests) =
      (if request.author = author then console.completed request else []) ++
        (console.perform request).linesBy author requests := by
  rw [linesBy, ledger, List.filter_append, List.map_append, ← linesBy]
  congr 1
  split
  · rename_i same
    rw [List.filter_eq_self.mpr (by simp [same]), map_snd_authored]
  · rename_i other
    rw [List.filter_eq_nil_iff.mpr (by simp [other]), List.map_nil]

theorem programText_cons (request : Request) (requests : List Request) :
    programText (request :: requests) = request.written ++ programText requests := by
  rw [programText, List.map_cons, String.join_cons, programText]

/-- The ledger has all lines that are added. -/
theorem lines_performAll (kept : Request.clear ∉ requests) (console : Console) :
    (console.performAll requests).lines.toList =
      console.lines.toList ++ (console.ledger requests).map Prod.snd := by
  induction requests generalizing console with
  | nil => exact (List.append_nil _).symm
  | cons request requests hypothesis =>
      rcases List.ne_and_not_mem_of_not_mem_cons kept with ⟨first, rest⟩
      rcases exists_extended first.symm with ⟨done, last, same⟩
      have added : (console.perform request).lines.toList = console.lines.toList ++ done := by
        rw [same]
        simp [extended]
      rw [performAll, List.foldl_cons, ← performAll, hypothesis rest, added, ledger,
        (completed_of_extended same).1, List.map_append, map_snd_authored, List.append_assoc]

/-- If the lines of programs so far, and the line being written, are the text of programs so far
cut at its line feeds, then so it is after any more requests. -/
theorem lineFeedPieces_programText (kept : Request.clear ∉ requests) {text : String}
    {before : List String} (split : Text.lineFeedPieces text = before ++ [console.line]) :
    Text.lineFeedPieces (text ++ programText requests) =
      before ++ console.linesBy .program requests ++ [(console.performAll requests).line] := by
  induction requests generalizing console text before with
  | nil =>
      rw [programText, List.map_nil, String.join_nil, String.append_empty, split, linesBy, ledger,
        List.filter_nil, List.map_nil, List.append_nil]
      rfl
  | cons request requests hypothesis =>
      rcases List.ne_and_not_mem_of_not_mem_cons kept with ⟨first, rest⟩
      rw [programText_cons, linesBy_cons, performAll, List.foldl_cons, ← performAll]
      cases asks : request.author with
      | program =>
          rcases perform_of_program first.symm asks with ⟨done, last, pieces, same⟩
          rcases completed_of_extended same with ⟨completed, line⟩
          have longer := Text.lineFeedPieces_append split request.written
          rw [pieces, ← line, ← List.append_assoc] at longer
          rw [← String.append_assoc, hypothesis rest longer, if_pos rfl, completed,
            List.append_assoc before]
      | system =>
          rcases perform_of_system asks with ⟨message, _, none, same⟩
          have line := (completed_of_extended same).2
          rw [none, String.empty_append, hypothesis rest (line ▸ split), if_neg (by decide),
            List.nil_append]

theorem linesBy_system (console : Console) (requests : List Request) :
    console.linesBy .system requests = requests.filterMap Request.message? := by
  induction requests generalizing console with
  | nil => rfl
  | cons request requests hypothesis =>
      rw [linesBy_cons, hypothesis]
      cases asks : request.author with
      | system =>
          rcases perform_of_system asks with ⟨message, told, _, same⟩
          rw [if_pos rfl, (completed_of_extended same).1, List.filterMap_cons_some told]
          rfl
      | program =>
          rw [if_neg (by decide), List.filterMap_cons_none (message?_of_program asks),
            List.nil_append]

/-- System messages do not disturb what programs write.  Every completed line is in the ledger, the
lines of programs and the line being written are the text of programs cut at its line feeds, and the
lines of the system are its messages.  So neither the parts in which programs write their text nor
the messages between them make a difference to it. -/
theorem messages_leave_text (kept : Request.clear ∉ requests) :
    (empty.ledger requests).map Prod.snd = (empty.performAll requests).lines.toList ∧
    empty.linesBy .program requests ++ [(empty.performAll requests).line] =
      Text.lineFeedPieces (programText requests) ∧
    "\n".intercalate (empty.linesBy .program requests ++ [(empty.performAll requests).line]) =
      programText requests ∧
    (∀ line ∈ empty.linesBy .program requests ++ [(empty.performAll requests).line],
      '\n' ∉ line.toList) ∧
    empty.linesBy .system requests = requests.filterMap Request.message? ∧
    ∀ others, Request.clear ∉ others → programText others = programText requests →
      empty.linesBy .program others = empty.linesBy .program requests ∧
      (empty.performAll others).line = (empty.performAll requests).line := by
  have cut {requests : List Request} (kept : Request.clear ∉ requests) :
      empty.linesBy .program requests ++ [(empty.performAll requests).line] =
        Text.lineFeedPieces (programText requests) := by
    have nothing : Text.lineFeedPieces "" = [] ++ [empty.line] := by decide
    rw [← String.empty_append (s := programText requests),
      lineFeedPieces_programText kept nothing, List.nil_append]
  refine ⟨?_, cut kept, ?_, ?_, linesBy_system empty requests, ?_⟩
  · rw [lines_performAll kept]
    rfl
  · rw [cut kept, Text.intercalate_lineFeedPieces]
  · rw [cut kept]
    exact fun line => Text.whole_of_mem_lineFeedPieces
  · intro others keptOthers same
    have pieces := (cut keptOthers).trans ((congrArg Text.lineFeedPieces same).trans (cut kept).symm)
    rcases List.append_inj' pieces rfl with ⟨lines, line⟩
    exact ⟨lines, List.singleton_inj.mp line⟩

/-- A text in two parts, with a message of two lines in the middle of its first line. -/
def interrupted : List Request :=
  [.putText "lo", .putSystemText "one\ntwo", .putText "ng\n\nend", .advanceLine]

/-- Written at once, the text leaves the same lines. -/
theorem messages_leave_text_small :
    Request.clear ∉ interrupted ∧
      empty.linesBy .program interrupted = ["long", "", "end"] ∧
      empty.linesBy .system interrupted = ["one\ntwo"] ∧
      empty.linesBy .program [.putText "long\n\nend\n"] = ["long", "", "end"] := by
  have kept : Request.clear ∉ interrupted := by decide
  rcases messages_leave_text kept with ⟨_, cut, _, _, system, others⟩
  have lines : empty.linesBy .program interrupted = ["long", "", "end"] := by
    have pieces : Text.lineFeedPieces (programText interrupted) = ["long", "", "end"] ++ [""] := by
      decide
    exact (List.append_inj' (cut.trans pieces) rfl).1
  have same : programText [.putText "long\n\nend\n"] = programText interrupted := by decide
  exact ⟨kept, lines, system, (others _ (by decide) same).1.trans lines⟩

/-! ## What is put out -/

theorem intercalate_eq_empty_iff {lines : List String} :
    "\n".intercalate lines = "" ↔ lines = [] ∨ lines = [""] := by
  match lines with
  | [] => simp
  | [line] => simp
  | first :: second :: rest =>
      rw [String.intercalate_cons_cons]
      simp

/-- A single completed line that is empty is taken for no line at all. -/
theorem output_eq (console : Console) :
    console.output =
      if console.lines = #[""] then console.line else "\n".intercalate console.shownLines := by
  have single : console.lines = #[""] ↔ console.lines.toList = [""] :=
    Array.toList_inj.symm
  rw [output, shownLines]
  simp only [String.isEmpty_iff, intercalate_eq_empty_iff, single]
  generalize console.lines.toList = lines
  by_cases started : console.line = ""
  · simp only [if_pos started, List.append_nil]
    split
    · rename_i blank
      rw [blank, started, String.intercalate_singleton]
    · rfl
  · simp only [if_neg started]
    by_cases blank : lines = [""]
    · rw [if_pos (Or.inr blank), if_pos blank]
    · rw [if_neg blank]
      by_cases none : lines = []
      · rw [if_pos (Or.inl none), none, List.nil_append, String.intercalate_singleton]
      · rw [if_neg (not_or.mpr ⟨none, blank⟩),
          String.intercalate_append_of_ne_nil none (List.cons_ne_nil _ _),
          String.intercalate_singleton]

theorem output_eq_shown_iff (console : Console) :
    console.output = "\n".intercalate console.shownLines ↔
      ¬ (console.lines = #[""] ∧ console.line ≠ "") := by
  rw [output_eq]
  split
  · rename_i blank
    rw [shownLines, blank]
    by_cases started : console.line = ""
    · simp [started]
    · have longer : console.line ≠ "\n" ++ console.line := by
        intro same
        have size := congrArg String.length same
        rw [String.length_append] at size
        simp at size
      simp [started, longer]
  · rename_i other
    simp [other]

/-- What a new console holds of a text. -/
theorem putText_empty (text : String) :
    ∃ done last, Text.lineFeedPieces text = done ++ [last] ∧
      empty.putText text = empty.extended done last := by
  rcases putText_eq_extended text empty with ⟨done, last, pieces, same⟩
  refine ⟨done, last, ?_, same⟩
  rw [← pieces]
  cases Text.lineFeedPieces text with
  | nil => rfl
  | cons first rest => exact congrArg (· :: rest) String.empty_append.symm

/-- Only a text that ends in a line feed, or is empty, has nothing in the line being written. -/
theorem eq_nil_of_unfinished {text : String} {done : List String}
    (unfinished : text.toList.getLast? ≠ some '\n')
    (pieces : Text.lineFeedPieces text = done ++ [""]) : done = [] := by
  cases done with
  | nil => rfl
  | cons first rest =>
      have joined := Text.intercalate_lineFeedPieces text
      rw [pieces, String.intercalate_append_of_ne_nil (List.cons_ne_nil _ _) (List.cons_ne_nil _ _),
        String.intercalate_singleton, String.append_empty] at joined
      rw [← joined, String.toList_append] at unfinished
      simp at unfinished

theorem lineFeedPieces_of_begun {rest : String} (whole : '\n' ∉ rest.toList) :
    Text.lineFeedPieces ("\n" ++ rest) = ["", rest] := by
  have joined : "\n" ++ rest = "\n".intercalate ["", rest] := by
    rw [String.intercalate_cons_cons, String.intercalate_singleton, String.empty_append]
  rw [joined]
  exact Text.lineFeedPieces_intercalate (List.cons_ne_nil _ _) (by simpa using whole)

/-- A line feed and then one line, not empty, is what a new console puts out without the line
feed. -/
theorem output_putText_of_begun {rest : String} (whole : '\n' ∉ rest.toList) :
    (empty.putText ("\n" ++ rest)).output = rest := by
  rcases putText_empty ("\n" ++ rest) with ⟨done, last, pieces, same⟩
  rw [lineFeedPieces_of_begun whole, ← List.singleton_append] at pieces
  rcases List.append_inj' pieces rfl with ⟨rfl, ended⟩
  rw [same, output_eq, ← List.singleton_inj.mp ended]
  simp [extended, empty]

theorem output_putText_eq_self {text : String} (unfinished : text.toList.getLast? ≠ some '\n')
    (other : ¬ ∃ rest, '\n' ∉ rest.toList ∧ text = "\n" ++ rest) :
    (empty.putText text).output = text := by
  rcases putText_empty text with ⟨done, last, pieces, same⟩
  have joined := Text.intercalate_lineFeedPieces text
  rw [pieces] at joined
  have lines : (empty.putText text).lines.toList = done := by
    rw [same]
    simp [extended, empty]
  have line : (empty.putText text).line = last := by rw [same, extended]
  have shown : (empty.putText text).output =
      "\n".intercalate (empty.putText text).shownLines := by
    rw [output_eq_shown_iff, ← Array.toList_inj, lines, line]
    rintro ⟨rfl, _⟩
    have listed : last ∈ Text.lineFeedPieces text := by
      rw [pieces]
      exact List.mem_append_right _ List.mem_cons_self
    refine other ⟨last, Text.whole_of_mem_lineFeedPieces listed, ?_⟩
    rw [← joined, List.singleton_append, String.intercalate_cons_cons, String.intercalate_singleton,
      String.empty_append]
  rw [shown, shownLines, lines, line]
  by_cases started : last = ""
  · subst started
    rw [eq_nil_of_unfinished unfinished pieces] at joined ⊢
    exact joined
  · rw [if_neg (by simpa using started), joined]

/-- The output is the lines of the console with a line feed between each two, whatever is asked of
it, unless one line is completed, which is empty, and another one is being written: then the output
is that one alone.  So a text that does not end in a line feed is put out as it is, unless a line
feed and one line are all of it. -/
theorem output_joins_lines (requests : List Request) :
    ((empty.performAll requests).output = "\n".intercalate (empty.performAll requests).shownLines ↔
      ¬ ((empty.performAll requests).lines = #[""] ∧ (empty.performAll requests).line ≠ "")) ∧
    ((empty.performAll requests).lines = #[""] →
      (empty.performAll requests).output = (empty.performAll requests).line) ∧
    ∀ text : String, text.toList.getLast? ≠ some '\n' →
      ((empty.putText text).output = text ↔
        ¬ ∃ rest, '\n' ∉ rest.toList ∧ text = "\n" ++ rest) ∧
      ∀ rest, '\n' ∉ rest.toList → text = "\n" ++ rest → (empty.putText text).output = rest := by
  refine ⟨output_eq_shown_iff _, fun blank => ?_, fun text unfinished => ⟨⟨?_, ?_⟩, ?_⟩⟩
  · rw [output_eq, if_pos blank]
  · rintro whole ⟨rest, unbroken, rfl⟩
    rw [output_putText_of_begun unbroken] at whole
    have size := congrArg String.length whole
    rw [String.length_append] at size
    simp at size
  · exact output_putText_eq_self unfinished
  · rintro rest unbroken rfl
    exact output_putText_of_begun unbroken

/-- A text of four lines, two of them empty, is put out as it is; one that has a line feed before
its only line is not. -/
theorem output_joins_lines_small :
    "\na\n\nb".toList.getLast? ≠ some '\n' ∧
      (empty.putText "\na\n\nb").output = "\na\n\nb" ∧
      "\nb".toList.getLast? ≠ some '\n' ∧ (empty.putText "\nb").output = "b" := by
  have unfinished : "\na\n\nb".toList.getLast? ≠ some '\n' := by decide
  have unfinishedToo : "\nb".toList.getLast? ≠ some '\n' := by decide
  rcases output_joins_lines [] with ⟨_, _, texts⟩
  refine ⟨unfinished, (texts _ unfinished).1.mpr ?_, unfinishedToo,
    (texts _ unfinishedToo).2 "b" (by decide) rfl⟩
  rintro ⟨rest, unbroken, same⟩
  have begun : "\na\n\nb" = "\n" ++ "a\n\nb" := rfl
  rw [begun, String.append_right_inj] at same
  exact unbroken (same ▸ by decide)

/-- The line feed that a text begins with can be lost: of what is put, and of the lines that the
console has. -/
theorem not_output_joins_lines :
    (¬ ∀ requests : List Request, (empty.performAll requests).output =
      "\n".intercalate (empty.performAll requests).shownLines) ∧
    ¬ ∀ text : String, text.toList.getLast? ≠ some '\n' →
      (empty.putText text).output = text := by
  constructor
  · intro joins
    exact absurd (joins [.putText "\nb"]) (by decide)
  · intro whole
    exact absurd (whole "\nb" (by decide)) (by decide)

end Timeshare.Console
