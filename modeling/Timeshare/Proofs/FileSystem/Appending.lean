import Timeshare.Proofs.FileSystem.Atomicity

/-!
# Appending

How many blocks an append needs follows from the lengths alone, whatever room there is in the last
block of the file and whether the file has blocks at all.  So data may be appended in one piece or
in several: the contents and the blocks in use are the same.
-/

namespace Timeshare

/-- How many more blocks some contents need with data behind them. -/
def growth (content data : List UInt8) : Nat :=
  blocksFor (content ++ data).length - blocksFor content.length

/-- Appending in two pieces needs as many blocks as appending in one. -/
theorem growth_append (content first second : List UInt8) :
    growth content first + growth (content ++ first) second = growth content (first ++ second) := by
  simp only [growth, blocksFor, contentSize, List.length_append]
  omega

/-- What the last block of a file has room for needs no block. -/
theorem StoredFile.Sound.blocksNeeded_eq {file : StoredFile} (sound : file.Sound)
    (data : List UInt8) : FileSystem.blocksNeeded file.chain data = growth file.content data := by
  rcases file with ⟨entry, chain⟩
  rcases List.eq_nil_or_concat chain with rfl | ⟨front, tail, rfl⟩
  · simp [FileSystem.blocksNeeded, growth, StoredFile.content, blocksFor, contentSize]
  · rw [List.concat_eq_append] at sound ⊢
    have packed := sound.packed
    rw [List.map_append, List.map_singleton] at packed
    have inhabited := List.length_pos_iff.mpr packed.last
    have counted := packed.length_flatten
    rw [← List.map_singleton, ← List.map_append, ← List.flatMap_def, List.length_map,
      Block.length_payload] at counted
    rw [Block.length_payload] at inhabited
    have short := tail.length_le
    simp only [FileSystem.blocksNeeded, List.getLast?_concat, growth, StoredFile.content,
      List.length_append, counted, Block.room, blocksFor, contentSize] at short ⊢
    omega

namespace FileSystem

/-- The number of content blocks of a file. -/
def blockCount (files : FileSystem) (name : String) : Except FileSystemError Nat :=
  (files.openFile name).map fun opened => opened.2.length

theorem Catalogues.blockCount {files : FileSystem} {file : StoredFile} {rest : List StoredFile}
    {name : String} (catalogue : files.Catalogues (file :: rest))
    (named : file.name = Text.utf8Bytes name) :
    files.blockCount name = .ok (blocksFor file.content.length) := by
  rw [FileSystem.blockCount, catalogue.openFile named,
    ← (catalogue.sound file List.mem_cons_self).length_chain]
  rfl

/-- Data is appended to a file. -/
def Appends (files : FileSystem) (name : String) (data : List UInt8) (next : FileSystem) : Prop :=
  perform (appendToFile name data) files = (.ok (), next)

/-- The data is behind the contents of the file, and the first of the free blocks are in use for
it. -/
structure Appended (files : FileSystem) (name : String) (content data : List UInt8)
    (next : FileSystem) : Prop where
  read : next.readBytes name = .ok (content ++ data)
  blocks : next.blockCount name = .ok (blocksFor (content ++ data).length)
  claimed : next.freeContent.elements = files.freeContent.elements.drop (growth content data)
  shrunk : next.freeContent.size + growth content data = files.freeContent.size
  others : ∀ other, other ≠ name → next.readBytes other = files.readBytes other

/-- A way to get data behind the contents of a file succeeds exactly if the free blocks suffice. -/
structure AppendLaw (files : FileSystem) (name : String) (content data : List UInt8)
    (leadsTo : FileSystem → Prop) : Prop where
  succeeds : (∃ next, leadsTo next) ↔ growth content data ≤ files.freeContent.size
  appended : ∀ next, leadsTo next → files.Appended name content data next

theorem Appended.trans {files between next : FileSystem} {name : String}
    {content first second : List UInt8} (appended : files.Appended name content first between)
    (further : between.Appended name (content ++ first) second next) :
    files.Appended name content (first ++ second) next := by
  have together := growth_append content first second
  constructor
  case read => rw [further.read, List.append_assoc]
  case blocks => rw [further.blocks, List.append_assoc]
  case claimed => rw [further.claimed, appended.claimed, List.drop_drop, together]
  case shrunk =>
    have shrunk := appended.shrunk
    have shrunkFurther := further.shrunk
    omega
  case others =>
    intro other different
    rw [further.others other different, appended.others other different]

namespace Catalogues

variable {files next : FileSystem} {file : StoredFile} {rest : List StoredFile} {name : String}
  {data : List UInt8}

/-- Changing one file does not change what is read from another. -/
theorem readBytes_of_replaced (catalogue : files.Catalogues (file :: rest)) {changed : StoredFile}
    (replaced : next.Catalogues (changed :: rest)) (named : file.name = Text.utf8Bytes name)
    (same : changed.name = file.name) {other : String} (different : other ≠ name) :
    next.readBytes other = files.readBytes other := by
  have apart : file.name ≠ Text.utf8Bytes other := fun both =>
    different (Text.utf8Bytes_injective (both.symm.trans named))
  rw [replaced.readBytes_eq, catalogue.readBytes_eq,
    List.find?_cons_of_neg (by simpa [same] using apart),
    List.find?_cons_of_neg (by simpa using apart)]

theorem appends (catalogue : files.Catalogues (file :: rest))
    (named : file.name = Text.utf8Bytes name)
    (enough : growth file.content data ≤ files.freeContent.size) :
    ∃ longer next, files.Appends name data next ∧ next.Catalogues (longer :: rest) ∧
      longer.name = Text.utf8Bytes name ∧ longer.content = file.content ++ data ∧
      files.Appended name file.content data next := by
  have needed := (catalogue.sound file List.mem_cons_self).blocksNeeded_eq data
  rcases catalogue.appendToFile named (needed.symm ▸ enough) with
    ⟨longer, next, succeeded, catalogued, same, content, keeps, claimed⟩
  rw [needed] at claimed
  refine ⟨longer, next, succeeded, catalogued, same.trans named, content, ?_⟩
  constructor
  case read => rw [catalogued.readBytes (same.trans named), content]
  case blocks => rw [catalogued.blockCount (same.trans named), content]
  case claimed => exact claimed
  case shrunk =>
    rw [OrderedSet.size_eq_length, claimed, List.length_drop]
    exact Nat.sub_add_cancel enough
  case others =>
    exact fun other different => catalogue.readBytes_of_replaced catalogued named same different

/-- Data that was appended had enough room, and its file is known again. -/
theorem of_appends (catalogue : files.Catalogues (file :: rest))
    (named : file.name = Text.utf8Bytes name) (appends : files.Appends name data next) :
    growth file.content data ≤ files.freeContent.size ∧
      ∃ longer, next.Catalogues (longer :: rest) ∧ longer.name = Text.utf8Bytes name ∧
        longer.content = file.content ++ data ∧ files.Appended name file.content data next := by
  by_cases enough : growth file.content data ≤ files.freeContent.size
  · rcases catalogue.appends named enough with ⟨longer, reached, succeeded, outcome⟩
    cases appends.symm.trans succeeded
    exact ⟨enough, longer, outcome⟩
  · rw [← (catalogue.sound file List.mem_cons_self).blocksNeeded_eq, Nat.not_le] at enough
    cases appends.symm.trans (appendToFile_refused catalogue named enough)

theorem append_once (catalogue : files.Catalogues (file :: rest))
    (named : file.name = Text.utf8Bytes name) (data : List UInt8) :
    files.AppendLaw name file.content data (files.Appends name data) := by
  constructor
  case succeeds =>
    constructor
    · rintro ⟨next, appends⟩
      exact (catalogue.of_appends named appends).1
    · intro enough
      rcases catalogue.appends named enough with ⟨_, next, appends, _⟩
      exact ⟨next, appends⟩
  case appended =>
    intro next appends
    rcases (catalogue.of_appends named appends).2 with ⟨_, _, _, _, appended⟩
    exact appended

theorem append_twice (catalogue : files.Catalogues (file :: rest))
    (named : file.name = Text.utf8Bytes name) (first second : List UInt8) :
    files.AppendLaw name file.content (first ++ second) fun next =>
      ∃ between, files.Appends name first between ∧ between.Appends name second next := by
  have together := growth_append file.content first second
  constructor
  case succeeds =>
    constructor
    · rintro ⟨next, between, appends, further⟩
      rcases (catalogue.of_appends named appends).2 with
        ⟨longer, catalogued, same, content, appended⟩
      have room := (catalogued.of_appends same further).1
      have shrunk := appended.shrunk
      rw [content] at room
      omega
    · intro enough
      have roomFirst : growth file.content first ≤ files.freeContent.size := by omega
      rcases catalogue.appends named roomFirst with
        ⟨longer, between, appends, catalogued, same, content, appended⟩
      have shrunk := appended.shrunk
      have room : growth longer.content second ≤ between.freeContent.size := by
        rw [content]
        omega
      rcases catalogued.appends same room with ⟨_, next, further, _⟩
      exact ⟨next, between, appends, further⟩
  case appended =>
    rintro next ⟨between, appends, further⟩
    rcases (catalogue.of_appends named appends).2 with ⟨longer, catalogued, same, content, appended⟩
    rcases (catalogued.of_appends same further).2 with ⟨_, _, _, _, appendedFurther⟩
    rw [content] at appendedFurther
    exact appended.trans appendedFurther

end Catalogues

/-- Data is appended to a file of a formatted disk exactly if the blocks that the contents will
need beside those of the file are free, and appending it in two pieces does the same. -/
theorem append_law (disk : Disk) (calls : List Call) {name : String} {entry : Block}
    (formatted : ((onDisk disk).callAll calls).formatted = true)
    (present : ((onDisk disk).callAll calls).findEntry name = .ok (some entry)) :
    ∃ content, ((onDisk disk).callAll calls).readBytes name = .ok content ∧
      (∀ data, ((onDisk disk).callAll calls).AppendLaw name content data
        (((onDisk disk).callAll calls).Appends name data)) ∧
      ∀ first second, ((onDisk disk).callAll calls).AppendLaw name content (first ++ second)
        fun next => ∃ between, ((onDisk disk).callAll calls).Appends name first between ∧
          between.Appends name second next := by
  have known := (Known.onDisk disk).callAll calls
  generalize (onDisk disk).callAll calls = files at known formatted present
  rcases known.exists_catalogue formatted with ⟨_, stored, catalogue⟩
  rcases catalogue.absent_or_extract name with absent | ⟨file, rest, _, extracted, named⟩
  · cases present.symm.trans (catalogue.findEntry_none absent)
  · exact ⟨file.content, extracted.readBytes named, extracted.append_once named,
      extracted.append_twice named⟩

/-- The last block has room for all but one byte of what is appended. -/
theorem append_law_small :
    noted.formatted = true ∧ (∃ entry, noted.findEntry "notes" = .ok (some entry)) ∧
      noted.readBytes "notes" = .ok [1] ∧ growth [1] (List.replicate 60 2) = 1 ∧
      noted.AppendLaw "notes" [1] (List.replicate 60 2)
        (noted.Appends "notes" (List.replicate 60 2)) := by
  have state : noted.formatted = true ∧ noted.readBytes "notes" = .ok [1] ∧
      ∃ entry ∈ (noted.findEntry "notes").toOption.join.toList,
        noted.findEntry "notes" = .ok (some entry) := by
    decide +kernel
  rcases state with ⟨formatted, read, entry, _, present⟩
  rcases append_law (.blank ⟨2, 1, 4⟩) noting formatted present with ⟨content, reads, law, _⟩
  cases read.symm.trans reads
  exact ⟨formatted, ⟨entry, present⟩, read, rfl, law _⟩

end FileSystem

end Timeshare
