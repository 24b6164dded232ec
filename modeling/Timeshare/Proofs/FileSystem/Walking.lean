import Timeshare.Proofs.FileSystem.Updates

/-!
# Following pointers on any disk

Walking a chain keeps no record of the blocks that it has visited.  It gives up after as many blocks
as the disk has.  `Disk.Leads` says where pointers lead without counting: if they end, at a block
that points to itself or at a pointer that leaves the disk, then no block was visited twice.  So the
bound never cuts a chain short, and pointers that go on past it go on for ever.

Nothing is assumed of what the blocks hold, only that each of them was written, as formatting does.
-/

namespace Timeshare

namespace Disk

/-- Every block of the disk was written at some time. -/
def Written (disk : Disk) : Prop :=
  ∀ location ∈ disk.geometry.locations, (disk.read? location).isSome = true

instance (disk : Disk) : Decidable disk.Written :=
  inferInstanceAs (Decidable (∀ location ∈ disk.geometry.locations, _))

/-- The block that the bytes at a location stand for; `none` where nothing was written. -/
def block? (disk : Disk) (location : Location) : Option Block :=
  (disk.read? location).map (Block.decode location)

/-- From a block the pointers lead over the blocks of a list to the last of them, or to the block
itself if there are none.  No block on the way points to itself. -/
inductive Leads (disk : Disk) : Block → List Block → Block → Prop
  | stay (block : Block) : Leads disk block [] block
  | hop {block next last : Block} {rest : List Block} (onward : block.isTerminus = false)
      (found : disk.block? block.pointer = some next) (leads : Leads disk next rest last) :
      Leads disk block (next :: rest) last

/-- The pointers end at a block: it points to itself, or off the disk. -/
def Ends (disk : Disk) (last : Block) : Prop :=
  last.isTerminus = true ∨ disk.geometry.contains last.pointer = false

/-- From a block the pointers stay on the disk for ever and come to no block that points to
itself. -/
def Endless (disk : Disk) (block : Block) : Prop :=
  ∀ hops, ∃ visited last, disk.Leads block visited last ∧ visited.length = hops ∧
    last.isTerminus = false ∧ disk.geometry.contains last.pointer = true

variable {disk : Disk} {block next last : Block} {visited : List Block} {location : Location}

/-! ## Blocks of the disk -/

theorem location_of_block? (found : disk.block? location = some block) :
    block.location = location := by
  rcases Option.map_eq_some_iff.mp found with ⟨raw, _, rfl⟩
  rfl

/-- A block that was read from the disk lies where it says. -/
theorem block?_location (found : disk.block? location = some block) :
    disk.block? block.location = some block := by
  rw [location_of_block? found, found]

theorem contains_of_block? (found : disk.block? location = some block) :
    disk.geometry.contains location = true := by
  rw [← Bool.not_eq_false]
  intro outside
  simp [block?, read?_eq_none outside] at found

theorem Written.exists_block? (written : disk.Written)
    (inside : disk.geometry.contains location = true) :
    ∃ block, disk.block? location = some block := by
  rcases Option.isSome_iff_exists.mp
    (written location (Geometry.mem_locations.mpr inside)) with ⟨raw, read⟩
  exact ⟨Block.decode location raw, by rw [block?, read, Option.map_some]⟩

theorem LaidOut.written {blocks : List Block} (laidOut : disk.LaidOut blocks) : disk.Written := by
  intro location member
  rcases List.mem_map.mp (laidOut.locations.mem_iff.mpr member) with ⟨block, among, rfl⟩
  rw [laidOut.holds block among, Option.isSome_some]

/-- Whatever is written over a block, all blocks stay written. -/
theorem Written.write? {raw : RawBlock} {after : Disk} (written : disk.Written)
    (succeeded : disk.write? location raw = some after) : after.Written := by
  have inside : disk.geometry.contains location = true := by
    rw [← Bool.not_eq_false]
    intro outside
    simp [Disk.write?, indexOf?_eq_none outside] at succeeded
  rcases write?_eq_some raw inside with ⟨other, again, geometry, here, elsewhere⟩
  obtain rfl : other = after := Option.some.inj (again.symm.trans succeeded)
  intro site member
  by_cases same : site = location
  · rw [same, here, Option.isSome_some]
  · rw [elsewhere site same]
    exact written site (geometry ▸ member)

/-! ## Where pointers lead -/

namespace Leads

/-- The pointers lead one block further. -/
theorem extend (leads : disk.Leads block visited last) (onward : last.isTerminus = false)
    (found : disk.block? last.pointer = some next) : disk.Leads block (visited ++ [next]) next := by
  induction leads with
  | stay => exact .hop onward found (.stay next)
  | hop first start _ hypothesis => exact .hop first start (hypothesis onward found)

/-- Pointers lead only one way: where they do not end they go on to the end. -/
theorem exists_rest {other : Block} {fewer : List Block} (leads : disk.Leads block visited last)
    (ends : disk.Ends last) (before : disk.Leads block fewer other) :
    ∃ rest, visited = fewer ++ rest ∧ disk.Leads other rest last := by
  induction before generalizing visited with
  | stay => exact ⟨visited, rfl, leads⟩
  | hop onward found _ hypothesis =>
      cases leads with
      | stay =>
          rcases ends with terminus | outside
          · simp [onward] at terminus
          · simp [contains_of_block? found] at outside
      | hop _ same leads =>
          obtain rfl := Option.some.inj (same.symm.trans found)
          rcases hypothesis leads with ⟨rest, rfl, onwards⟩
          exact ⟨rest, rfl, onwards⟩

theorem found_of_mem (leads : disk.Leads block visited last) :
    ∀ other ∈ visited, disk.block? other.location = some other := by
  induction leads with
  | stay => simp
  | hop _ found _ hypothesis => exact List.forall_mem_cons.mpr ⟨block?_location found, hypothesis⟩

/-- From a block on the way there are fewer blocks left. -/
theorem exists_shorter {other : Block} (leads : disk.Leads block visited last)
    (member : other ∈ visited) :
    ∃ rest, rest.length < visited.length ∧ disk.Leads other rest last := by
  induction leads with
  | stay => simp at member
  | hop _ _ leads hypothesis =>
      rcases List.mem_cons.mp member with rfl | later
      · exact ⟨_, Nat.lt_succ_self _, leads⟩
      · rcases hypothesis later with ⟨rest, fewer, onwards⟩
        exact ⟨rest, Nat.lt_succ_of_lt fewer, onwards⟩

/-- Pointers that end come to no block twice, for they would never end. -/
theorem distinct (leads : disk.Leads block visited last) (ends : disk.Ends last)
    (found : disk.block? block.location = some block) :
    ((block :: visited).map Block.location).Nodup := by
  induction leads with
  | stay => simp
  | @hop block next last rest onward start leads hypothesis =>
      rw [List.map_cons, List.nodup_cons]
      refine ⟨?_, hypothesis ends (block?_location start)⟩
      intro again
      rcases List.mem_map.mp again with ⟨other, member, place⟩
      have whole := Leads.hop onward start leads
      have same := whole.found_of_mem other member
      rw [place, found, Option.some.injEq] at same
      rcases whole.exists_shorter (same ▸ member) with ⟨fewer, shorter, onwards⟩
      rcases onwards.exists_rest ends whole with ⟨beyond, longer, _⟩
      rw [longer, List.length_append] at shorter
      omega

/-- Pointers that end visit fewer blocks than there are, not counting the first. -/
theorem length_lt_capacity (leads : disk.Leads block visited last) (ends : disk.Ends last)
    (found : disk.block? block.location = some block) :
    visited.length < disk.geometry.capacity := by
  have present : ∀ other ∈ block :: visited, disk.block? other.location = some other :=
    List.forall_mem_cons.mpr ⟨found, leads.found_of_mem⟩
  have inside : (block :: visited).map Block.location ⊆ disk.geometry.locations := by
    intro location member
    rcases List.mem_map.mp member with ⟨other, among, rfl⟩
    exact Geometry.mem_locations.mpr (contains_of_block? (present other among))
  have counted := (List.subperm_of_subset (leads.distinct ends found) inside).length_le
  rw [Geometry.length_locations, List.length_map, List.length_cons] at counted
  exact counted

end Leads

/-- After any number of hops the pointers have ended, or they have led over as many blocks. -/
theorem Written.ends_or_leads (written : disk.Written) (block : Block) (hops : Nat) :
    (∃ visited last, disk.Leads block visited last ∧ disk.Ends last) ∨
      ∃ visited last, disk.Leads block visited last ∧ visited.length = hops := by
  induction hops with
  | zero => exact .inr ⟨[], block, .stay block, rfl⟩
  | succ hops hypothesis =>
      rcases hypothesis with ended | ⟨visited, last, leads, length⟩
      · exact .inl ended
      · by_cases ends : disk.Ends last
        · exact .inl ⟨visited, last, leads, ends⟩
        · rw [Ends, not_or, Bool.not_eq_true, Bool.not_eq_false] at ends
          rcases written.exists_block? ends.2 with ⟨next, found⟩
          exact .inr ⟨visited ++ [next], next, leads.extend ends.1 found, by simp [length]⟩

/-- The pointers end, or they go on for ever. -/
theorem Written.ends_or_endless (written : disk.Written) (block : Block) :
    (∃ visited last, disk.Leads block visited last ∧ disk.Ends last) ∨ disk.Endless block := by
  by_cases ended : ∃ visited last, disk.Leads block visited last ∧ disk.Ends last
  · exact .inl ended
  · refine .inr fun hops => ?_
    rcases written.ends_or_leads block hops with ends | ⟨visited, last, leads, length⟩
    · exact absurd ends ended
    · have onward : ¬ disk.Ends last := fun ends => ended ⟨visited, last, leads, ends⟩
      rw [Ends, not_or, Bool.not_eq_true, Bool.not_eq_false] at onward
      exact ⟨visited, last, leads, length, onward⟩

end Disk

namespace FileSystem

open Disk (Leads)

variable {files : FileSystem} {block last entry : Block} {visited : List Block} {hops : Nat}

theorem readBlock_eq (files : FileSystem) (location : Location) :
    files.readBlock location =
      match files.disk.block? location with
      | some block => .ok block
      | none => .error (.invalidLocation location) := by
  unfold readBlock Disk.block?
  cases files.disk.read? location with
  | none => rfl
  | some raw => rfl

/-! ## Walking with a bound -/

/-- One hop over a block of the disk. -/
theorem chainFrom_hop {next : Block} (directory : Location) (onward : block.isTerminus = false)
    (found : files.disk.block? block.pointer = some next) (hops : Nat) :
    files.chainFrom directory (hops + 1) block =
      (files.chainFrom directory hops next).map (next :: ·) := by
  rw [chainFrom, if_neg (by simp [onward]), readBlock_eq, found]
  change (files.chainFrom directory hops next >>= fun rest => pure (next :: rest)) = _
  cases files.chainFrom directory hops next with
  | error error => rfl
  | ok rest => rfl

theorem chainFrom_of_terminus (leads : files.disk.Leads block visited last)
    (terminus : last.isTerminus = true) (enough : visited.length ≤ hops) (directory : Location) :
    files.chainFrom directory hops block = .ok visited := by
  induction leads generalizing hops with
  | stay =>
      unfold chainFrom
      rw [if_pos terminus]
  | hop onward found _ hypothesis =>
      cases hops with
      | zero => simp at enough
      | succ hops =>
          rw [chainFrom_hop directory onward found,
            hypothesis terminus (Nat.le_of_succ_le_succ enough)]
          rfl

theorem chainFrom_of_outside (leads : files.disk.Leads block visited last)
    (onward : last.isTerminus = false)
    (outside : files.disk.geometry.contains last.pointer = false)
    (enough : visited.length < hops) (directory : Location) :
    files.chainFrom directory hops block = .error (.invalidLocation last.pointer) := by
  induction leads generalizing hops with
  | stay block =>
      cases hops with
      | zero => simp at enough
      | succ hops =>
          have missing : files.disk.block? block.pointer = none := by
            simp [Disk.block?, Disk.read?_eq_none outside]
          rw [chainFrom, if_neg (by simp [onward]), readBlock_eq, missing]
          rfl
  | hop inner found _ hypothesis =>
      cases hops with
      | zero => simp at enough
      | succ hops =>
          rw [chainFrom_hop directory inner found,
            hypothesis onward outside (Nat.lt_of_succ_lt_succ enough)]
          rfl

theorem chainFrom_of_long (leads : files.disk.Leads block visited last)
    (onward : last.isTerminus = false) (directory : Location) :
    files.chainFrom directory visited.length block = .error (.corruptChain directory) := by
  induction leads with
  | stay => rw [List.length_nil, chainFrom, if_neg (by simp [onward])]
  | hop inner found _ hypothesis =>
      rw [List.length_cons, chainFrom_hop directory inner found, hypothesis onward]
      rfl

/-! ## Walking the chain of a directory entry -/

/-- What comes of walking the chain of a directory entry. -/
inductive Walked (files : FileSystem) (entry : Block) :
    Except FileSystemError (List Block) → Prop
  | whole {chain : List Block} {last : Block} (leads : files.disk.Leads entry chain last)
      (terminus : last.isTerminus = true) : Walked files entry (.ok chain)
  | outside {visited : List Block} {last : Block} (leads : files.disk.Leads entry visited last)
      (onward : last.isTerminus = false)
      (outside : files.disk.geometry.contains last.pointer = false) :
      Walked files entry (.error (.invalidLocation last.pointer))
  | endless (endless : files.disk.Endless entry) :
      Walked files entry (.error (.corruptChain entry.location))

theorem Walked.never_ends {directory : Location}
    (walked : files.Walked entry (.error (.corruptChain directory))) :
    files.disk.Endless entry := by
  cases walked with
  | endless endless => exact endless

/-- Walking finds out where the pointers lead. -/
theorem Walked.eq_walkChain {result : Except FileSystemError (List Block)}
    (walked : files.Walked entry result)
    (found : files.disk.block? entry.location = some entry) : files.walkChain entry = result := by
  cases walked with
  | whole leads terminus =>
      have short := leads.length_lt_capacity (.inl terminus) found
      exact chainFrom_of_terminus leads terminus (Nat.le_of_lt short) entry.location
  | outside leads onward outside =>
      have short := leads.length_lt_capacity (.inr outside) found
      exact chainFrom_of_outside leads onward outside short entry.location
  | endless endless =>
      rcases endless files.disk.geometry.capacity with ⟨visited, last, leads, length, onward, _⟩
      rw [walkChain, ← length, chainFrom_of_long leads onward]

theorem exists_walked (written : files.disk.Written) (entry : Block) :
    ∃ result, files.Walked entry result := by
  rcases written.ends_or_endless entry with ⟨visited, last, leads, ends⟩ | endless
  · cases terminus : last.isTerminus with
    | true => exact ⟨_, .whole leads terminus⟩
    | false =>
        have outside : files.disk.geometry.contains last.pointer = false :=
          ends.resolve_left (by simp [terminus])
        exact ⟨_, .outside leads terminus outside⟩
  · exact ⟨_, .endless endless⟩

theorem walked_iff (written : files.disk.Written)
    (found : files.disk.block? entry.location = some entry)
    {result : Except FileSystemError (List Block)} :
    files.walkChain entry = result ↔ files.Walked entry result := by
  refine ⟨?_, fun walked => walked.eq_walkChain found⟩
  rintro rfl
  rcases exists_walked written entry with ⟨result, walked⟩
  rwa [walked.eq_walkChain found]

/-- The directory lists every block in use that lies where a directory entry can. -/
theorem directoryBlocks_of_written (written : files.disk.Written) :
    ∃ entries, files.directoryBlocks = .ok entries ∧
      ∀ entry, entry ∈ entries ↔ files.disk.block? entry.location = some entry ∧
        entry.location.isDirectoryEntry = true ∧ entry.state = .occupied := by
  have onDisk : ∀ block ∈ files.disk.geometry.locations.filterMap files.disk.block?,
      files.disk.block? block.location = some block := by
    intro block member
    rcases List.mem_filterMap.mp member with ⟨location, _, found⟩
    exact Disk.block?_location found
  have readable : ∀ block ∈ files.disk.geometry.locations.filterMap files.disk.block?,
      files.readBlock block.location = .ok block := by
    intro block member
    rw [readBlock_eq, onDisk block member]
  obtain ⟨blocks, read, locations, known⟩ := readBlocks_eq_ok
    (files.disk.geometry.locations.filter Location.isDirectoryEntry) readable (by
      intro location member
      have site := List.mem_of_mem_filter member
      rcases written.exists_block? (Geometry.mem_locations.mp site) with ⟨block, found⟩
      exact ⟨block, List.mem_filterMap.mpr ⟨location, site, found⟩,
        Disk.location_of_block? found⟩)
  refine ⟨blocks.filter fun entry => entry.state = .occupied, ?_, fun entry => ?_⟩
  · rw [directoryBlocks, read]
    rfl
  · rw [List.mem_filter, decide_eq_true_eq]
    constructor
    · rintro ⟨member, occupied⟩
      have site : entry.location ∈ blocks.map Block.location := List.mem_map_of_mem member
      rw [locations, List.mem_filter] at site
      exact ⟨onDisk entry (known entry member), site.2, occupied⟩
    · rintro ⟨found, site, occupied⟩
      have inside := Geometry.mem_locations.mpr (Disk.contains_of_block? found)
      have listed : entry.location ∈ blocks.map Block.location := by
        rw [locations, List.mem_filter]
        exact ⟨inside, site⟩
      rcases List.mem_map.mp listed with ⟨other, member, same⟩
      have foundOther := onDisk other (known other member)
      rw [same, found, Option.some.injEq] at foundOther
      exact ⟨foundOther ▸ member, occupied⟩

/-- Whatever the blocks of a disk hold, walking the chain of a directory entry gives the blocks that
the pointers lead over if they come to one that points to itself, the pointer that leaves the disk
if they come to one, and otherwise the news that they never end. -/
theorem walkChain_finds_out (written : files.disk.Written) :
    ∃ entries, files.directoryBlocks = .ok entries ∧
      (∀ entry, entry ∈ entries ↔ files.disk.block? entry.location = some entry ∧
        entry.location.isDirectoryEntry = true ∧ entry.state = .occupied) ∧
      ∀ entry ∈ entries,
        (∀ result, files.walkChain entry = result ↔ files.Walked entry result) ∧
        ∀ chain, files.walkChain entry = .ok chain →
          ((entry :: chain).map Block.location).Nodup := by
  rcases directoryBlocks_of_written written with ⟨entries, listed, entry_iff⟩
  refine ⟨entries, listed, entry_iff, fun entry member => ?_⟩
  have found := ((entry_iff entry).mp member).1
  refine ⟨fun result => walked_iff written found, fun chain walked => ?_⟩
  cases (walked_iff written found).mp walked with
  | whole leads terminus => exact leads.distinct (.inl terminus) found

/-! ## A disk that was tampered with -/

theorem written_of_format {next : FileSystem} {report : Formatted}
    (hasBlocks : files.disk.geometry.HasBlocks)
    (formatted : perform format files = (.ok report, next)) : next.disk.Written := by
  rcases @Catalogues.format files hasBlocks with ⟨other, succeeded, catalogue, _⟩
  obtain rfl : other = next := (Prod.mk.inj (succeeded.symm.trans formatted)).2
  exact catalogue.accounts.laidOut.written

/-- The disk with blocks in use written at some locations, each with a pointer. -/
def tamper : List (Location × Location) → Disk → Disk
  | [], disk => disk
  | (location, pointer) :: rest, disk =>
    match disk.write? location { Block.occupied location with pointer }.encode with
    | some after => tamper rest after
    | none => tamper rest disk

theorem written_tamper (pointers : List (Location × Location)) {disk : Disk}
    (written : disk.Written) : (tamper pointers disk).Written := by
  induction pointers generalizing disk with
  | nil => exact written
  | cons first rest hypothesis =>
      unfold tamper
      split
      · rename_i after succeeded
        exact hypothesis (written.write? succeeded)
      · exact hypothesis written

/-- A formatted disk that was tampered with. -/
def tampered (geometry : Geometry) (pointers : List (Location × Location)) : FileSystem :=
  let files := (perform format (blank geometry)).2
  { files with disk := tamper pointers files.disk }

theorem written_tampered {geometry : Geometry} (hasBlocks : geometry.HasBlocks)
    (pointers : List (Location × Location)) : (tampered geometry pointers).disk.Written := by
  rcases @Catalogues.format (blank geometry) hasBlocks with ⟨next, formatted, _⟩
  apply written_tamper
  rw [formatted]
  exact written_of_format hasBlocks formatted

/-- A chain over the boot record, a loop through a directory entry, and a way off the disk. -/
def astray : FileSystem :=
  tampered ⟨2, 1, 4⟩ [(⟨0, 0, 1⟩, ⟨1, 0, 3⟩), (⟨1, 0, 3⟩, ⟨0, 0, 0⟩), (⟨0, 0, 0⟩, ⟨1, 0, 1⟩),
    (⟨1, 0, 1⟩, ⟨1, 0, 1⟩), (⟨0, 0, 2⟩, ⟨1, 0, 2⟩), (⟨1, 0, 2⟩, ⟨0, 0, 2⟩), (⟨0, 0, 3⟩, ⟨9, 0, 0⟩)]

theorem walkChain_finds_out_astray :
    astray.disk.Written ∧ ∃ whole looping leaving chain,
      astray.directoryBlocks = .ok [whole, looping, leaving] ∧
      chain.map Block.location = [⟨1, 0, 3⟩, ⟨0, 0, 0⟩, ⟨1, 0, 1⟩] ∧
      astray.Walked whole (.ok chain) ∧
      astray.disk.Endless looping ∧
      astray.Walked leaving (.error (.invalidLocation ⟨9, 0, 0⟩)) := by
  have written : astray.disk.Written := written_tampered (by constructor <;> decide) _
  have states : astray.directoryBlocks.toOption.map (fun entries => entries.map fun entry =>
      (astray.walkChain entry).map (List.map Block.location)) =
      some [.ok [⟨1, 0, 3⟩, ⟨0, 0, 0⟩, ⟨1, 0, 1⟩], .error (.corruptChain ⟨0, 0, 2⟩),
        .error (.invalidLocation ⟨9, 0, 0⟩)] := by
    decide +kernel
  rcases walkChain_finds_out written with ⟨entries, listed, _, walks⟩
  rw [listed] at states
  rcases List.map_eq_cons_iff.mp (Option.some.inj states) with ⟨whole, rest, rfl, first, states⟩
  rcases List.map_eq_cons_iff.mp states with ⟨looping, rest, rfl, second, states⟩
  rcases List.map_eq_singleton_iff.mp states with ⟨leaving, rfl, third⟩
  rcases walked : astray.walkChain whole with error | chain
  · simp [walked, Except.map] at first
  rcases looped : astray.walkChain looping with error | others
  · rcases left : astray.walkChain leaving with reason | others
    · simp only [walked, looped, left, Except.map, Except.ok.injEq, Except.error.injEq]
        at first second third
      subst second third
      exact ⟨written, whole, looping, leaving, chain, listed, first,
        ((walks whole (by simp)).1 _).mp walked,
        (((walks looping (by simp)).1 _).mp looped).never_ends,
        ((walks leaving (by simp)).1 _).mp left⟩
    · simp [left, Except.map] at third
  · simp [looped, Except.map] at second

end FileSystem

end Timeshare
