import Timeshare.FileSystem.Swap
import Timeshare.Proofs.Disk
import Timeshare.Proofs.FileSystem.Block
import Timeshare.Proofs.FileSystem.Perform
import Timeshare.Proofs.OrderedSet

/-!
# Accounting for every block

`Disk.LaidOut` says which block lies at which location of a disk: it is a list with one block for
each location, so no block is lost and none is counted twice.  `FileSystem.Accounts` divides that
list into the boot record, the free blocks, which are as formatting leaves them, and the blocks in
use.  Writing, claiming and releasing blocks move them between these parts.
-/

namespace Timeshare

namespace Disk

/-- The disk holds a block at the block's location. -/
def Holds (disk : Disk) (block : Block) : Prop :=
  disk.read? block.location = some block.encode

/-- What a disk holds at a location is one block. -/
theorem Holds.unique {disk : Disk} {first second : Block} (heldFirst : disk.Holds first)
    (heldSecond : disk.Holds second) (same : first.location = second.location) :
    first = second := by
  rw [Holds, same, heldSecond, Option.some.injEq] at heldFirst
  have decoded := congrArg (Block.decode second.location) heldFirst
  rw [Block.decode_encode, ← same, Block.decode_encode] at decoded
  exact decoded.symm

/-- The disk holds these blocks, one at each of its locations. -/
structure LaidOut (disk : Disk) (blocks : List Block) : Prop where
  locations : (blocks.map Block.location).Perm disk.geometry.locations
  holds : ∀ block ∈ blocks, disk.Holds block

namespace LaidOut

variable {disk : Disk} {blocks : List Block}

theorem nodup (laidOut : disk.LaidOut blocks) : (blocks.map Block.location).Nodup :=
  laidOut.locations.nodup_iff.mpr (Geometry.locations_nodup _)

theorem contains (laidOut : disk.LaidOut blocks) {block : Block} (member : block ∈ blocks) :
    disk.geometry.contains block.location = true :=
  Geometry.mem_locations.mp (laidOut.locations.mem_iff.mp (List.mem_map_of_mem member))

theorem perm (laidOut : disk.LaidOut blocks) {reordered : List Block}
    (order : blocks.Perm reordered) : disk.LaidOut reordered where
  locations := (order.map Block.location).symm.trans laidOut.locations
  holds block member := laidOut.holds block (order.mem_iff.mpr member)

/-- No other block than these is on the disk. -/
theorem mem_of_holds (laidOut : disk.LaidOut blocks) {block : Block}
    (held : disk.Holds block) : block ∈ blocks := by
  have inside : disk.geometry.contains block.location = true := by
    by_contra outside
    rw [Bool.not_eq_true] at outside
    have unread := read?_eq_none outside
    rw [held] at unread
    exact Option.some_ne_none _ unread
  have site := laidOut.locations.mem_iff.mpr (Geometry.mem_locations.mpr inside)
  rcases List.mem_map.mp site with ⟨known, member, same⟩
  exact held.unique (laidOut.holds known member) same.symm ▸ member

/-- Writing a block in place of another one at its location changes only that block. -/
theorem write {old new : Block} {rest : List Block} (laidOut : disk.LaidOut (old :: rest))
    (place : new.location = old.location) :
    ∃ written, disk.write? new.location new.encode = some written ∧
      written.geometry = disk.geometry ∧ written.LaidOut (new :: rest) := by
  have inside : disk.geometry.contains new.location = true :=
    place ▸ laidOut.contains List.mem_cons_self
  rcases write?_eq_some new.encode inside with ⟨written, succeeded, geometry, here, elsewhere⟩
  refine ⟨written, succeeded, geometry, ?_, ?_⟩
  · rw [geometry, List.map_cons, place]
    exact laidOut.locations
  · intro block member
    rcases List.mem_cons.mp member with rfl | inRest
    · exact here
    · have apart : block.location ≠ new.location := by
        have distinct := laidOut.nodup
        rw [List.map_cons, List.nodup_cons] at distinct
        intro same
        exact distinct.1 (place ▸ same ▸ List.mem_map_of_mem inRest)
      exact (elsewhere _ apart).trans (laidOut.holds block (List.mem_cons_of_mem _ inRest))

end LaidOut

end Disk

namespace Geometry

/-- The number of files that the directory has room for. -/
def fileCapacity (geometry : Geometry) : Nat :=
  geometry.sectors.toNat * geometry.blocks.toNat - 1

/-- The number of blocks that the contents of all files may take. -/
def contentCapacity (geometry : Geometry) : Nat :=
  (geometry.tracks.toNat - 1) * (geometry.sectors.toNat * geometry.blocks.toNat)

theorem length_contentSites {geometry : Geometry} (nonzero : geometry.tracks ≠ 0) :
    (geometry.locations.filter fun location => !location.inDirectoryTrack).length =
      geometry.contentCapacity := by
  rcases below_eq_cons nonzero with ⟨others, tracks, positive, length⟩
  rw [locations, tracks, List.flatMap_cons, List.filter_append, List.filter_eq_nil_iff.mpr,
    List.filter_eq_self.mpr]
  · simp [contentCapacity, ← length, List.length_flatMap, length_below]
  · intro location member
    simp only [List.mem_flatMap, List.mem_map] at member
    rcases member with ⟨track, inOthers, _, _, _, _, rfl⟩
    have apart : track ≠ 0 := fun zero => positive (zero ▸ inOthers)
    simpa [Location.inDirectoryTrack] using apart
  · intro location member
    simp only [List.mem_flatMap, List.mem_map] at member
    rcases member with ⟨_, _, _, _, rfl⟩
    simp [Location.inDirectoryTrack]

end Geometry

namespace FileSystem

theorem readBlock_of_holds {files : FileSystem} {block : Block}
    (holds : files.disk.Holds block) : files.readBlock block.location = .ok block := by
  rw [readBlock, show files.disk.read? block.location = some block.encode from holds]
  exact congrArg Except.ok block.decode_encode

/-- The free blocks as they lie on disk. -/
def freeBlocks (files : FileSystem) : List Block :=
  (files.freeDirectory.elements ++ files.freeContent.elements).map Block.available

/-- The blocks in use are known: beside the boot record, every other block of the disk is free. -/
structure Accounts (files : FileSystem) (inUse : List Block) : Prop where
  formatted : files.formatted = true
  laidOut : files.disk.LaidOut (bootRecord :: (files.freeBlocks ++ inUse))
  directory_sites : ∀ location ∈ files.freeDirectory.elements, location.isDirectoryEntry = true
  content_sites : ∀ location ∈ files.freeContent.elements, location.inDirectoryTrack = false

/-- What the operations on files leave as it is, formatting apart: the size of the disk, the driver
and which processes have a swap file. -/
structure Keeps (files next : FileSystem) : Prop where
  geometry : next.disk.geometry = files.disk.geometry
  status : next.status = files.status
  swaps : next.swaps = files.swaps

namespace Keeps

variable {files between next : FileSystem}

theorem refl (files : FileSystem) : files.Keeps files := ⟨rfl, rfl, rfl⟩

theorem trans (first : files.Keeps between) (second : between.Keeps next) : files.Keeps next where
  geometry := second.geometry.trans first.geometry
  status := second.status.trans first.status
  swaps := second.swaps.trans first.swaps

end Keeps

namespace Accounts

variable {files : FileSystem} {inUse : List Block}

theorem perm (accounts : files.Accounts inUse) {reordered : List Block}
    (order : inUse.Perm reordered) : files.Accounts reordered where
  formatted := accounts.formatted
  laidOut := accounts.laidOut.perm ((order.append_left _).cons _)
  directory_sites := accounts.directory_sites
  content_sites := accounts.content_sites

theorem readBlock (accounts : files.Accounts inUse) {block : Block} (member : block ∈ inUse) :
    files.readBlock block.location = .ok block :=
  readBlock_of_holds (accounts.laidOut.holds block
    (List.mem_cons_of_mem _ (List.mem_append_right _ member)))

theorem writeBlock {old : Block} (accounts : files.Accounts (old :: inUse)) (new : Block)
    (place : new.location = old.location) :
    ∃ next, perform (writeBlock new) files = (.ok ⟨⟩, next) ∧ next.Accounts (new :: inUse) ∧
      files.Keeps next ∧ next.freeDirectory = files.freeDirectory ∧
      next.freeContent = files.freeContent := by
  have middle (block : Block) :
      (bootRecord :: (files.freeBlocks ++ block :: inUse)).Perm
        (block :: bootRecord :: (files.freeBlocks ++ inUse)) :=
    (List.perm_middle.cons _).trans (List.Perm.swap ..)
  rcases (accounts.laidOut.perm (middle old)).write place with
    ⟨written, succeeded, geometry, laidOut⟩
  refine ⟨{ files with disk := written }, ?_, ?_, ⟨geometry, rfl, rfl⟩, rfl, rfl⟩
  · rw [FileSystem.writeBlock, perform_bind_ok _ (perform_modifyGet _)]
    simp [succeeded]
  · exact ⟨accounts.formatted, laidOut.perm (middle new).symm, accounts.directory_sites,
      accounts.content_sites⟩

/-- The first free content block is claimed, and still lies on disk as it was. -/
theorem claimContentBlock (accounts : files.Accounts inUse)
    (available : 0 < files.freeContent.size) :
    ∃ location next, perform claimContentBlock files = (.ok (Block.occupied location), next) ∧
      next.Accounts (Block.available location :: inUse) ∧ files.Keeps next ∧
      location.inDirectoryTrack = false ∧
      files.freeContent.elements = location :: next.freeContent.elements := by
  have inhabited : files.freeContent.elements ≠ [] := List.ne_nil_of_length_pos available
  rcases OrderedSet.exists_popFirst? inhabited with ⟨location, rest, popped⟩
  have elements := OrderedSet.popFirst?_eq_some popped
  refine ⟨location, { files with freeContent := rest }, ?_, ?_, ⟨rfl, rfl, rfl⟩, ?_, elements⟩
  · rw [FileSystem.claimContentBlock, perform_bind_ok _ (perform_modifyGet _)]
    simp [popped]
  · refine ⟨accounts.formatted, accounts.laidOut.perm ?_, accounts.directory_sites, ?_⟩
    · simp only [freeBlocks, elements, List.map_append, List.map_cons, List.append_assoc,
        List.cons_append, List.perm_cons]
      exact List.Perm.append_left _ List.perm_middle.symm
    · intro other member
      exact accounts.content_sites other (by simp [elements, member])
  · exact accounts.content_sites location (by simp [elements])

/-- A free directory block that is claimed still lies on disk as it was. -/
theorem claimDirectoryBlock (accounts : files.Accounts inUse)
    (available : files.freeDirectory.elements ≠ []) :
    ∃ location next, perform claimDirectoryBlock files = (.ok location, next) ∧
      next.Accounts (Block.available location :: inUse) ∧ files.Keeps next ∧
      location.isDirectoryEntry = true ∧ next.freeContent = files.freeContent := by
  rcases OrderedSet.exists_popFirst? available with ⟨location, rest, popped⟩
  have elements := OrderedSet.popFirst?_eq_some popped
  refine ⟨location, { files with freeDirectory := rest }, ?_, ?_, ⟨rfl, rfl, rfl⟩, ?_, rfl⟩
  · rw [FileSystem.claimDirectoryBlock, perform_bind_ok _ (perform_modifyGet _)]
    simp [popped]
  · refine ⟨accounts.formatted, accounts.laidOut.perm ?_, ?_, accounts.content_sites⟩
    · simp only [freeBlocks, elements, List.map_append, List.map_cons, List.append_assoc,
        List.cons_append, List.perm_cons]
      rw [← List.append_assoc, ← List.append_assoc]
      exact List.perm_middle.symm
    · intro other member
      exact accounts.directory_sites other (by simp [elements, member])
  · exact accounts.directory_sites location (by simp [elements])

/-- A block in use lies at no free location. -/
theorem not_free {block : Block} (accounts : files.Accounts (block :: inUse)) :
    block.location ∉ files.freeDirectory.elements ∧
      block.location ∉ files.freeContent.elements := by
  have distinct := accounts.laidOut.nodup
  simp only [freeBlocks, List.map_cons, List.map_append, List.map_map, List.nodup_cons,
    List.nodup_append] at distinct
  have apart := distinct.2.2.2
  simp only [List.mem_append, List.mem_map, Function.comp_apply, Block.available_location,
    exists_eq_right, List.mem_cons] at apart
  exact ⟨fun member => apart _ (Or.inl member) _ (Or.inl rfl) rfl,
    fun member => apart _ (Or.inr member) _ (Or.inl rfl) rfl⟩

/-- A content block that is cleared and given back is free. -/
theorem releaseContent {block : Block} (accounts : files.Accounts (block :: inUse))
    (site : block.location.inDirectoryTrack = false) :
    ∃ next, perform (releaseBlocks [block]) files = (.ok ⟨⟩, next) ∧ next.Accounts inUse ∧
      files.Keeps next ∧ next.freeContent.size = files.freeContent.size + 1 := by
  rcases accounts.writeBlock (Block.available block.location) rfl with
    ⟨written, succeeded, accounted, keeps, directory, content⟩
  have new := content ▸ accounts.not_free.2
  refine ⟨{ written with freeContent := written.freeContent.insert block.location }, ?_, ?_,
    ⟨keeps.geometry, keeps.status, keeps.swaps⟩, ?_⟩
  · simp only [FileSystem.releaseBlocks, List.forM_eq_forM, List.forM_cons, List.forM_nil,
      bind_assoc]
    rw [perform_bind_ok _ succeeded, perform_bind_ok _ (perform_modify _), perform_pure]
  · refine ⟨accounted.formatted, accounted.laidOut.perm ?_, accounted.directory_sites, ?_⟩
    · simp only [freeBlocks, List.map_append, List.append_assoc, List.perm_cons]
      refine List.Perm.append_left _ ?_
      refine List.perm_middle.trans ?_
      exact ((OrderedSet.insert_perm new).map Block.available).symm.append_right inUse
    · intro other member
      rcases OrderedSet.mem_insert.mp member with rfl | old
      · exact site
      · exact accounted.content_sites other old
  · rw [OrderedSet.size_eq_length, (OrderedSet.insert_perm new).length_eq, content]
    rfl

/-- A directory entry that is cleared and given back is free. -/
theorem releaseDirectory {block : Block} (accounts : files.Accounts (block :: inUse))
    (site : block.location.isDirectoryEntry = true) :
    ∃ written, perform (FileSystem.writeBlock (Block.available block.location)) files =
        (.ok ⟨⟩, written) ∧
      Accounts { written with freeDirectory := written.freeDirectory.insert block.location } inUse ∧
      files.Keeps written := by
  rcases accounts.writeBlock (Block.available block.location) rfl with
    ⟨written, succeeded, accounted, keeps, directory, _⟩
  have new := directory ▸ accounts.not_free.1
  refine ⟨written, succeeded, ⟨accounted.formatted, accounted.laidOut.perm ?_, ?_,
    accounted.content_sites⟩, keeps⟩
  · simp only [freeBlocks, List.map_append, List.append_assoc, List.perm_cons]
    rw [← List.append_assoc]
    refine List.perm_middle.trans ?_
    rw [← List.cons_append, ← List.cons_append, List.append_assoc]
    exact ((OrderedSet.insert_perm new).map Block.available).symm.append_right _
  · intro other member
    rcases OrderedSet.mem_insert.mp member with rfl | old
    · exact site
    · exact accounted.directory_sites other old

theorem releaseBlocks {chain : List Block} (accounts : files.Accounts (chain ++ inUse))
    (sites : ∀ block ∈ chain, block.location.inDirectoryTrack = false) :
    ∃ next, perform (releaseBlocks chain) files = (.ok ⟨⟩, next) ∧ next.Accounts inUse ∧
      files.Keeps next ∧ next.freeContent.size = files.freeContent.size + chain.length := by
  induction chain generalizing files with
  | nil => exact ⟨files, rfl, accounts, Keeps.refl files, rfl⟩
  | cons block rest hypothesis =>
      rcases accounts.releaseContent (sites block List.mem_cons_self) with
        ⟨between, released, accounted, keeps, size⟩
      rcases hypothesis accounted fun other member => sites other (List.mem_cons_of_mem _
          member) with
        ⟨next, others, accountedNext, keepsNext, sizeNext⟩
      refine ⟨next, ?_, accountedNext, keeps.trans keepsNext, ?_⟩
      · have split : FileSystem.releaseBlocks (block :: rest) =
            FileSystem.releaseBlocks [block] >>= fun _ => FileSystem.releaseBlocks rest := by
          simp [FileSystem.releaseBlocks]
        rw [split, perform_bind_ok _ released, others]
      · rw [sizeNext, size, List.length_cons]
        omega

end Accounts

/-! ## Formatting -/

theorem writeFree {files : FileSystem} (sites : List Location)
    (inside : ∀ location ∈ sites, files.disk.geometry.contains location = true) :
    ∃ disk, perform (sites.forM fun location => writeBlock (Block.available location)) files =
        (.ok ⟨⟩, { files with disk := disk }) ∧
      disk.geometry = files.disk.geometry ∧
      ∀ location, location ∈ sites ∨ files.disk.Holds (Block.available location) →
        disk.Holds (Block.available location) := by
  induction sites generalizing files with
  | nil => exact ⟨files.disk, rfl, rfl, by simp⟩
  | cons location sites hypothesis =>
      rcases Disk.write?_eq_some (Block.available location).encode (inside location
          List.mem_cons_self) with
        ⟨written, succeeded, geometry, here, elsewhere⟩
      obtain ⟨disk, others, sameGeometry, holds⟩ :=
        @hypothesis { files with disk := written } (by
          intro other member
          rw [geometry]
          exact inside other (List.mem_cons_of_mem _ member))
      refine ⟨disk, ?_, sameGeometry.trans geometry, ?_⟩
      · have first : perform (writeBlock (Block.available location)) files =
            (.ok ⟨⟩, { files with disk := written }) := by
          rw [writeBlock, perform_bind_ok _ (perform_modifyGet _)]
          simp only [Block.available_location, succeeded, if_true, perform_pure]
        rw [List.forM_eq_forM] at others ⊢
        rw [List.forM_cons, perform_bind_ok _ first, others]
      · intro other given
        by_cases same : other = location
        · exact holds other (Or.inr (same ▸ here))
        · refine holds other ?_
          rcases given with member | held
          · exact Or.inl ((List.mem_cons.mp member).resolve_left same)
          · exact Or.inr ((elsewhere other same).trans held)

/-- The locations of a disk are that of the boot record, those of directory entries and those of
content blocks. -/
theorem locations_perm {geometry : Geometry} (hasBlocks : geometry.HasBlocks) :
    (bootRecordLocation :: (geometry.locations.filter Location.isDirectoryEntry ++
      geometry.locations.filter fun location => !location.inDirectoryTrack)).Perm
        geometry.locations := by
  have inside : bootRecordLocation ∈ geometry.locations := by
    have positive {number : UInt8} (nonzero : number ≠ 0) : 0 < number :=
      UInt8.pos_iff_ne_zero.mpr nonzero
    simp [Geometry.mem_locations, Geometry.contains, bootRecordLocation,
      positive hasBlocks.tracks, positive hasBlocks.sectors, positive hasBlocks.blocks]
  have nodup := geometry.locations_nodup
  refine (List.perm_ext_iff_of_nodup ?_ nodup).mpr ?_
  · rw [List.nodup_cons, List.nodup_append]
    refine ⟨?_, nodup.filter _, nodup.filter _, ?_⟩
    · simp [Location.isDirectoryEntry, Location.inDirectoryTrack, bootRecordLocation]
    · intro first inDirectory second inContent same
      subst same
      simp only [List.mem_filter, Location.isDirectoryEntry, Bool.and_eq_true,
        Bool.not_eq_true'] at inDirectory inContent
      rw [inContent.2] at inDirectory
      exact Bool.false_ne_true inDirectory.2.1
  · intro location
    simp only [List.mem_cons, List.mem_append, List.mem_filter, Location.isDirectoryEntry,
      Bool.and_eq_true, bne_iff_ne, Bool.not_eq_true']
    constructor
    · rintro (rfl | ⟨member, _⟩ | ⟨member, _⟩)
      · exact inside
      · exact member
      · exact member
    · intro member
      by_cases boot : location = bootRecordLocation
      · exact Or.inl boot
      · cases track : location.inDirectoryTrack with
        | true => exact Or.inr (Or.inl ⟨member, rfl, boot⟩)
        | false => exact Or.inr (Or.inr ⟨member, rfl⟩)

theorem length_directorySites {geometry : Geometry} (hasBlocks : geometry.HasBlocks) :
    (geometry.locations.filter Location.isDirectoryEntry).length = geometry.fileCapacity := by
  have counted := (locations_perm hasBlocks).length_eq
  rw [List.length_cons, List.length_append, Geometry.length_contentSites hasBlocks.tracks,
    Geometry.length_locations, Geometry.contentCapacity, Nat.sub_mul, Nat.one_mul] at counted
  have positive := Nat.le_mul_of_pos_left (geometry.sectors.toNat * geometry.blocks.toNat)
    (UInt8.lt_iff_toNat_lt.mp (UInt8.pos_iff_ne_zero.mpr hasBlocks.tracks))
  rw [Geometry.capacity, Nat.mul_assoc] at counted
  rw [Geometry.fileCapacity]
  omega

/-- Whatever was on the disk, after formatting it holds the boot record and free blocks only. -/
theorem format_accounts {files : FileSystem} (hasBlocks : files.disk.geometry.HasBlocks) :
    ∃ next, perform format files =
        (.ok ⟨files.disk.geometry.fileCapacity, files.disk.geometry.contentCapacity⟩, next) ∧
      next.Accounts [] ∧ next.disk.geometry = files.disk.geometry ∧
      next.status = files.status ∧ next.swaps = .empty := by
  have order := locations_perm hasBlocks
  have nodup := files.disk.geometry.locations_nodup
  rcases writeFree files.disk.geometry.locations fun location member => Geometry.mem_locations.mp
      member with
    ⟨disk, cleared, geometry, holds⟩
  have laidOut : disk.LaidOut ((bootRecordLocation ::
      (files.disk.geometry.locations.filter Location.isDirectoryEntry ++
        files.disk.geometry.locations.filter fun location =>
          !location.inDirectoryTrack)).map Block.available) := by
    refine ⟨?_, ?_⟩
    · rw [geometry, List.map_map]
      exact (List.map_id _).symm ▸ order
    · intro block member
      rcases List.mem_map.mp member with ⟨location, inside, rfl⟩
      exact holds location (Or.inl (order.mem_iff.mp inside))
  have place : bootRecord.location = (Block.available bootRecordLocation).location := by
    rw [bootRecord, Block.fill_location, Block.occupied_location, Block.available_location]
  rcases laidOut.write place with ⟨written, succeeded, geometryWritten, laidOutWritten⟩
  have booted : perform (writeBlock bootRecord) { files with disk := disk } =
      (.ok ⟨⟩, { files with disk := written }) := by
    rw [writeBlock, perform_bind_ok _ (perform_modifyGet _)]
    simp only [succeeded, if_true, perform_pure]
  refine ⟨{ files with
      disk := written
      freeDirectory := .ofList (files.disk.geometry.locations.filter Location.isDirectoryEntry)
      freeContent := .ofList (files.disk.geometry.locations.filter fun location =>
        !location.inDirectoryTrack)
      swaps := .empty
      formatted := true }, ?_, ⟨rfl, laidOutWritten.perm ?_, ?_, ?_⟩,
    geometryWritten.trans geometry, rfl, rfl⟩
  · rw [format, perform_bind_ok _ perform_get, perform_bind_ok _ cleared,
      perform_bind_ok _ booted, perform_bind_ok _ (perform_modify _), perform_pure,
      length_directorySites hasBlocks, Geometry.length_contentSites hasBlocks.tracks]
  · rw [List.append_nil]
    refine List.Perm.cons _ (List.Perm.map _ ?_)
    exact ((OrderedSet.ofList_perm (nodup.filter _)).append
      (OrderedSet.ofList_perm (nodup.filter _))).symm
  · intro location member
    exact (List.mem_filter.mp (OrderedSet.mem_ofList.mp member)).2
  · intro location member
    simpa using (List.mem_filter.mp (OrderedSet.mem_ofList.mp member)).2

end FileSystem

end Timeshare
