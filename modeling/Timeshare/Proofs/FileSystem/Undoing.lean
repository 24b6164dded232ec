import Timeshare.Proofs.FileSystem.Atomicity

/-!
# Deleting undoes creating

Nothing is on a disk but its files, and nothing is remembered of them that is not on the disk.  So
a file system is as it was as soon as it has the same files again at the same places.  Creating a
file, giving it contents any number of times and deleting it leaves no trace, and neither does
storing an image and fetching it.
-/

namespace Timeshare

namespace FileSystem

namespace Catalogues

variable {files next : FileSystem} {stored : List StoredFile}

/-- A file system is determined by its files and by what operations leave. -/
theorem unique (catalogue : files.Catalogues stored) (catalogueNext : next.Catalogues stored)
    (keeps : files.Keeps next) : next = files := by
  have directory : next.freeDirectory = files.freeDirectory := by
    apply OrderedSet.ext_mem
    intro location
    have order := catalogueNext.directory_sites_perm
    rw [keeps.geometry] at order
    exact ((List.perm_append_right_iff _).mp
      (order.trans catalogue.directory_sites_perm.symm)).mem_iff
  have content : next.freeContent = files.freeContent := by
    apply OrderedSet.ext_mem
    intro location
    have order := catalogueNext.content_sites_perm
    rw [keeps.geometry] at order
    exact ((List.perm_append_right_iff _).mp
      (order.trans catalogue.content_sites_perm.symm)).mem_iff
  have disk : next.disk = files.disk := by
    have laidOut := catalogue.accounts.laidOut
    have laidOutNext := catalogueNext.accounts.laidOut
    -- The same blocks are free and the same ones in use, so that the disks are laid out alike.
    rw [freeBlocks, directory, content, ← freeBlocks] at laidOutNext
    apply Disk.ext_read? keeps.geometry
    intro location
    by_cases inside : files.disk.geometry.contains location = true
    · have site := laidOut.locations.mem_iff.mpr (Geometry.mem_locations.mpr inside)
      rcases List.mem_map.mp site with ⟨block, member, rfl⟩
      exact (laidOutNext.holds block member).trans (laidOut.holds block member).symm
    · rw [Bool.not_eq_true] at inside
      rw [Disk.read?_eq_none inside, Disk.read?_eq_none (keeps.geometry ▸ inside)]
  have formatted := catalogueNext.accounts.formatted.trans catalogue.accounts.formatted.symm
  cases files
  cases next
  simp only [FileSystem.mk.injEq]
  exact ⟨disk, keeps.status, formatted, directory, content, keeps.swaps⟩

/-- Giving a file contents any number of times touches no other file. -/
theorem fillAll {file : StoredFile} {rest : List StoredFile}
    (catalogue : files.Catalogues (file :: rest)) {name : String}
    (named : file.name = Text.utf8Bytes name) {operations : List Operation}
    (fills : ∀ operation ∈ operations, operation.Fills name) :
    ∃ filled, (operations.foldl FileSystem.apply files).Catalogues (filled :: rest) ∧
      filled.name = Text.utf8Bytes name ∧
      files.Keeps (operations.foldl FileSystem.apply files) := by
  induction operations generalizing files file with
  | nil => exact ⟨file, catalogue, named, Keeps.refl files⟩
  | cons operation others hypothesis =>
      have fillsOthers : ∀ other ∈ others, other.Fills name := fun other member =>
        fills other (List.mem_cons_of_mem _ member)
      rw [List.foldl_cons, ← snd_attempt]
      rcases catalogue.fill named (fills operation List.mem_cons_self) with
        ⟨error, refused⟩ | ⟨filled, next, succeeded, catalogued, same, keeps⟩
      · rw [refused]
        exact hypothesis catalogue named fillsOthers
      · rw [succeeded]
        rcases hypothesis catalogued (same.trans named) fillsOthers with
          ⟨last, cataloguedLast, namedLast, keepsLast⟩
        exact ⟨last, cataloguedLast, namedLast, keeps.trans keepsLast⟩

end Catalogues

/-! ## Swap files behind the index -/

/-- Every process that is remembered has a swap file. -/
def Backed (files : FileSystem) : Prop :=
  ∀ pid, files.hasSwap pid = true → ∃ entry, files.findEntry (swapName pid) = .ok (some entry)

theorem Catalogues.backed_iff {files : FileSystem} {stored : List StoredFile}
    (catalogue : files.Catalogues stored) :
    files.Backed ↔ ∀ pid, files.hasSwap pid = true →
      ∃ file ∈ stored, file.name = Text.utf8Bytes (swapName pid) := by
  constructor
  · intro backed pid active
    rcases backed pid active with ⟨entry, found⟩
    by_contra absent
    have missing := catalogue.findEntry_none fun file member named => absent ⟨file, member, named⟩
    cases found.symm.trans missing
  · intro backed pid active
    rcases backed pid active with ⟨file, member, named⟩
    exact ⟨file.entry, catalogue.findEntry member named⟩

namespace Backed

variable {files : FileSystem}

theorem of_none_swapped (none_swapped : files.swaps.elements = []) : files.Backed := by
  intro pid active
  rw [hasSwap_eq_false none_swapped] at active
  exact absurd active Bool.false_ne_true

/-- The swap files of the processes that are remembered stay, unless one of them is touched by its
name. -/
theorem alters (backed : files.Backed) {stored : List StoredFile}
    (catalogue : files.Catalogues stored) {operation : Operation} (proper : operation.Proper)
    {outcome : Except FileSystemError Unit × FileSystem}
    (alters : Alters files stored operation outcome) : outcome.2.Backed := by
  have known := catalogue.backed_iff.mp backed
  have remembered {next : FileSystem} (swaps : next.swaps = files.swaps) {pid : Nat}
      (active : next.hasSwap pid = true) :
      ∃ file ∈ stored, file.name = Text.utf8Bytes (swapName pid) := by
    apply known
    rwa [hasSwap, swaps] at active
  cases alters with
  | refuses => exact backed
  | formats _ _ swaps => exact of_none_swapped (by rw [swaps]; rfl)
  | creates created catalogue named keeps =>
      refine catalogue.backed_iff.mpr fun pid active => ?_
      rcases remembered keeps.swaps active with ⟨file, member, namedFile⟩
      exact ⟨file, List.mem_cons_of_mem created member, namedFile⟩
  | fills file filled rest _ order catalogue same keeps =>
      refine catalogue.backed_iff.mpr fun pid active => ?_
      rcases remembered keeps.swaps active with ⟨other, member, namedOther⟩
      rcases List.mem_cons.mp (order.mem_iff.mp member) with rfl | among
      · exact ⟨filled, List.mem_cons_self, same.trans namedOther⟩
      · exact ⟨other, List.mem_cons_of_mem filled among, namedOther⟩
  | deletes file rest order named catalogue keeps =>
      refine catalogue.backed_iff.mpr fun pid active => ?_
      rcases remembered keeps.swaps active with ⟨other, member, namedOther⟩
      rcases List.mem_cons.mp (order.mem_iff.mp member) with rfl | among
      · -- The deleted file would have a name of the kernel's.
        have reserved := isReserved_swapName pid
        rw [Text.utf8Bytes_injective (namedOther.symm.trans named)] at reserved
        exact absurd (reserved.symm.trans proper).symm Bool.false_ne_true
      · exact ⟨other, among, namedOther⟩
  | stores swap catalogue named _ _ _ _ swaps =>
      refine catalogue.backed_iff.mpr fun pid active => ?_
      rw [hasSwap_iff_mem, swaps, OrderedSet.mem_insert] at active
      rcases active with rfl | before
      · exact ⟨swap, List.mem_cons_self, named⟩
      · rcases known pid (hasSwap_iff_mem.mpr before) with ⟨file, member, namedFile⟩
        exact ⟨file, List.mem_cons_of_mem swap member, namedFile⟩
  | fetches swap rest order named catalogue _ swaps =>
      refine catalogue.backed_iff.mpr fun pid active => ?_
      rw [hasSwap_iff_mem, swaps, OrderedSet.mem_erase] at active
      rcases known pid (hasSwap_iff_mem.mpr active.1) with ⟨other, member, namedOther⟩
      rcases List.mem_cons.mp (order.mem_iff.mp member) with rfl | among
      · exact absurd (swapName_injective (Text.utf8Bytes_injective (namedOther.symm.trans named)))
          active.2
      · exact ⟨other, among, namedOther⟩

theorem attempt (backed : files.Backed) (known : files.Known) {operation : Operation}
    (proper : operation.Proper) : (files.attempt operation).2.Backed := by
  rcases known.attempt_cases operation with
    ⟨_, refused⟩ | ⟨_, next, formats, _, _, swaps⟩ | ⟨_, stored, catalogue, alters⟩
  · rw [refused]
    exact backed
  · rw [formats]
    exact of_none_swapped (by rw [swaps]; rfl)
  · exact backed.alters catalogue proper alters

theorem call (backed : files.Backed) (known : files.Known) {call : Call} (proper : call.Proper) :
    (files.call call).2.Backed := by
  rcases files.call_cases call with unchanged | loads | ⟨operation, properly, same⟩
  · rw [unchanged]
    exact backed
  · rw [loads]
    exact backed
  · rw [same]
    exact backed.attempt known (properly proper)

theorem callAll (backed : files.Backed) (known : files.Known) {calls : List Call}
    (proper : ∀ call ∈ calls, call.Proper) : (files.callAll calls).Backed := by
  induction calls generalizing files with
  | nil => exact backed
  | cons call rest hypothesis =>
      exact hypothesis (backed.call known (proper call List.mem_cons_self)) (known.call call).1
        fun other member => proper other (List.mem_cons_of_mem call member)

end Backed

/-! ## Undoing -/

namespace Known

variable {files next : FileSystem} {name : String} {pid : Nat} {image : List UInt8}

/-- What succeeds on a formatted disk does what the operation may do there. -/
theorem alters (known : files.Known) {operation : Operation} (other : operation ≠ .format)
    (succeeded : files.attempt operation = (.ok (), next)) :
    ∃ stored, files.Catalogues stored ∧ Alters files stored operation (.ok (), next) := by
  rcases known.attempt_cases operation with
    ⟨error, refused⟩ | ⟨format, _⟩ | ⟨_, stored, catalogue, alters⟩
  · cases succeeded.symm.trans refused
  · exact absurd format other
  · exact ⟨stored, catalogue, succeeded ▸ alters⟩

theorem deleteFile_of_created (known : files.Known) {location : Location}
    (created : perform (createFile name) files = (.ok location, next)) {operations : List Operation}
    (fills : ∀ operation ∈ operations, operation.Fills name) :
    ∃ blocks, perform (deleteFile name) (operations.foldl apply next) = (.ok blocks, files) := by
  have succeeded : files.attempt (.createFile name) = (.ok (), next) := settle_ok created
  rcases known.alters Operation.noConfusion succeeded with ⟨stored, catalogue, alters⟩
  cases alters with
  | fills _ _ _ filling =>
      rcases filling with ⟨_, same | same⟩ <;> cases same
  | creates file catalogued named keeps =>
      rcases catalogued.fillAll named fills with ⟨filled, cataloguedFilled, namedFilled, keepsFilled⟩
      rcases cataloguedFilled.deleteFile namedFilled with ⟨last, deleted, left, keepsLast⟩
      refine ⟨filled.chain.length, ?_⟩
      rw [deleted, catalogue.unique left ((keeps.trans keepsFilled).trans keepsLast)]

theorem deleteSwap_of_stored (known : files.Known) (backed : files.Backed) {stored : SwapStored}
    (storing : perform (storeSwap pid image) files = (.ok stored, next)) :
    ∃ blocks, perform (deleteSwap pid) next = (.ok ⟨swapName pid, image, blocks⟩, files) := by
  have succeeded : files.attempt (.storeSwap pid image) = (.ok (), next) := settle_ok storing
  rcases known.alters Operation.noConfusion succeeded with ⟨listed, catalogue, alters⟩
  cases alters with
  | fills _ _ _ filling =>
      rcases filling with ⟨_, same | same⟩ <;> cases same
  | stores swap catalogued named content absent geometry status swaps =>
      -- A process that is remembered has its swap file already, and gets no second one.
      have new : pid ∉ files.swaps.elements := by
        intro active
        rcases catalogue.backed_iff.mp backed pid (hasSwap_iff_mem.mpr active) with
          ⟨file, member, namedFile⟩
        exact absent file member namedFile
      have active : next.hasSwap pid = true := by
        rw [hasSwap_iff_mem, swaps, OrderedSet.mem_insert]
        exact Or.inl rfl
      rcases catalogued.deleteSwap named active with
        ⟨last, fetched, left, geometryLast, statusLast, swapsLast⟩
      refine ⟨swap.chain.length, ?_⟩
      have keeps : files.Keeps last := by
        refine ⟨geometryLast.trans geometry, statusLast.trans status, ?_⟩
        rw [swapsLast, swaps, OrderedSet.erase_insert new]
      rw [fetched, content, catalogue.unique left keeps]

end Known

/-- A file that was created and given contents is deleted without a trace, and so is an image that
was stored and is fetched. -/
theorem deleting_undoes_creating (disk : Disk) {calls : List Call}
    (proper : ∀ call ∈ calls, call.Proper) :
    (∀ name location next,
      perform (createFile name) ((onDisk disk).callAll calls) = (.ok location, next) →
        ∀ operations : List Operation, (∀ operation ∈ operations, operation.Fills name) →
          ∃ blocks, perform (deleteFile name) (operations.foldl apply next) =
            (.ok blocks, (onDisk disk).callAll calls)) ∧
      ∀ pid image stored next,
        perform (storeSwap pid image) ((onDisk disk).callAll calls) = (.ok stored, next) →
          ∃ blocks, perform (deleteSwap pid) next =
            (.ok ⟨swapName pid, image, blocks⟩, (onDisk disk).callAll calls) := by
  have known := (Known.onDisk disk).callAll calls
  have backed := (Backed.of_none_swapped rfl).callAll (Known.onDisk disk) proper
  exact ⟨fun name location next created operations fills =>
      known.deleteFile_of_created created fills,
    fun pid image stored next storing => known.deleteSwap_of_stored backed storing⟩

/-- A draft that grew to two blocks, and an image. -/
theorem deleting_undoes_creating_small :
    (∃ location next blocks, perform (createFile "draft") noted = (.ok location, next) ∧
      perform (deleteFile "draft") ([.appendToFile "draft" [1],
        .writeFile "draft" (List.replicate 61 2)].foldl apply next) = (.ok blocks, noted)) ∧
      ∃ stored next blocks, perform (storeSwap 0 [1, 2]) noted = (.ok stored, next) ∧
        perform (deleteSwap 0) next = (.ok ⟨swapName 0, [1, 2], blocks⟩, noted) := by
  have proper : ∀ call ∈ noting, call.Proper := by
    simp [noting, Call.Proper, Operation.Proper, isReserved]
  have succeed : (perform (createFile "draft") noted).1.isOk = true ∧
      (perform (storeSwap 0 [1, 2]) noted).1.isOk = true := by
    decide +kernel
  rcases created : perform (createFile "draft") noted with ⟨_ | location, next⟩
  · simp [created, Except.isOk, Except.toBool] at succeed
  rcases storing : perform (storeSwap 0 [1, 2]) noted with ⟨_ | stored, nextSwap⟩
  · simp [storing, Except.isOk, Except.toBool] at succeed
  have fills : ∀ operation ∈ [Operation.appendToFile "draft" [1],
      .writeFile "draft" (List.replicate 61 2)], operation.Fills "draft" := by
    simp [Operation.Fills]
  rcases deleting_undoes_creating (.blank ⟨2, 1, 4⟩) proper with ⟨file, swap⟩
  rcases file "draft" location next created _ fills with ⟨blocks, deleted⟩
  rcases swap 0 [1, 2] stored nextSwap storing with ⟨blocksSwap, fetched⟩
  exact ⟨⟨location, next, blocks, rfl, deleted⟩, stored, nextSwap, blocksSwap, rfl, fetched⟩

end FileSystem

end Timeshare
