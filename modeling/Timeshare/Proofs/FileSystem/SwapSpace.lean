import Timeshare.Proofs.FileSystem.SwapRelease

/-!
# Storing and fetching one image

A swap file can be stored as long as there is a free block for its directory entry and there are
enough for its bytes.  It then holds the image, and nothing else that is stored has changed.  The
same goes for a file that is stored before another one is fetched.
-/

namespace Timeshare

namespace FileSystem

/-- The disk cannot take a file of a length: it is not formatted, or there is no free block for a
directory entry, or there are too few for the bytes. -/
def LacksRoom (files : FileSystem) (length : Nat) : Prop :=
  files.formatted = false ∨ files.freeDirectory.size = 0 ∨
    files.freeContent.size < blocksFor length

instance (files : FileSystem) (length : Nat) : Decidable (files.LacksRoom length) :=
  inferInstanceAs (Decidable (_ ∨ _))

/-- The swap file of a process holds the image.  Nothing else that is stored has changed. -/
structure StoresSwap (files : FileSystem) (pid : Nat) (image : List UInt8) (next : FileSystem) :
    Prop where
  active : next.hasSwap pid = true
  stored : next.readBytes (swapName pid) = .ok image
  kept : ∀ name, name ≠ swapName pid → next.readBytes name = files.readBytes name
  swaps : ∀ other, other ≠ pid → next.hasSwap other = files.hasSwap other

/-- The swap file of one process holds an image, and that of another one is gone.  Nothing else that
is stored has changed. -/
structure Exchanges (files : FileSystem) (out : Nat) (image : List UInt8) (back : Nat)
    (next : FileSystem) : Prop where
  active : next.hasSwap out = true
  stored : next.readBytes (swapName out) = .ok image
  inactive : next.hasSwap back = false
  gone : next.findEntry (swapName back) = .ok none
  kept : ∀ name, name ≠ swapName out → name ≠ swapName back →
    next.readBytes name = files.readBytes name
  swaps : ∀ other, other ≠ out → other ≠ back → next.hasSwap other = files.hasSwap other

namespace StoresSwap

variable {files next last : FileSystem} {pid other : Nat} {image : List UInt8}

theorem swapImage (stores : files.StoresSwap pid image next) (different : other ≠ pid) :
    next.swapImage other = files.swapImage other := by
  have otherName : swapName other ≠ swapName pid := fun same => different (swapName_injective same)
  rw [FileSystem.swapImage, FileSystem.swapImage, stores.swaps other different,
    stores.kept _ otherName]

/-- One image is stored, and then another one is fetched. -/
theorem exchanges (stores : files.StoresSwap pid image next)
    (releases : next.ReleasesSwap other last) (different : pid ≠ other) :
    files.Exchanges pid image other last where
  active := (releases.swaps pid different).trans stores.active
  stored := by
    rw [releases.kept _ fun same => different (swapName_injective same)]
    exact stores.stored
  inactive := releases.inactive
  gone := releases.gone
  kept name notStored notFetched :=
    (releases.kept name notFetched).trans (stores.kept name notStored)
  swaps third notStored notFetched :=
    (releases.swaps third notFetched).trans (stores.swaps third notStored)

end StoresSwap

namespace Represents

variable {files : FileSystem} {contents : Contents} {pid : Nat} {image : List UInt8}

theorem formatted (represents : files.Represents contents) : files.formatted = true := by
  rcases represents.mirrored with ⟨stored, catalogue, _⟩
  exact catalogue.accounts.formatted

/-- An image that is not stored yet and finds room is stored. -/
theorem storesSwap (represents : files.Represents contents) (unswapped : files.swapImage pid = none)
    (short : (Text.utf8Bytes (swapName pid)).length ≤ contentSize)
    (room : ¬ files.LacksRoom image.length) :
    ∃ stored next, perform (FileSystem.storeSwap pid image) files = (.ok stored, next) ∧
      files.StoresSwap pid image next := by
  simp only [LacksRoom, represents.formatted, not_or, Nat.not_lt, Bool.true_eq_false,
    not_false_eq_true, true_and] at room
  rcases room with ⟨entry, content⟩
  rcases represents.mirrored with ⟨stored, catalogue, mirrors⟩
  have absent : swapName pid ∉ contents := by
    rwa [represents.swapImage_eq, Finmap.lookup_eq_none] at unswapped
  rcases catalogue.storeSwap short (mirrors.absent absent) (Nat.pos_of_ne_zero entry) content with
    ⟨swap, location, next, succeeded, catalogueNext, named, holds, _, _, swaps⟩
  have remembered (other : Nat) :
      next.hasSwap other = true ↔ other = pid ∨ files.hasSwap other = true := by
    rw [hasSwap_iff_mem, hasSwap_iff_mem, swaps, OrderedSet.mem_insert]
  refine ⟨_, next, succeeded, (remembered pid).mpr (Or.inl rfl), ?_, ?_, ?_⟩
  · rw [catalogueNext.readBytes named, holds]
  · intro name different
    -- Taking the new file away again leaves the files that were there before.
    apply (catalogueNext.readBytes_of_removed catalogue _).symm
    intro same
    exact different (Text.utf8Bytes_injective (same.symm.trans named))
  · intro other different
    rw [Bool.eq_iff_iff, remembered]
    exact or_iff_right different

end Represents

namespace Serviceable

variable {files : FileSystem} {pid : Nat} {image : List UInt8}

/-- Without room for an image nothing changes. -/
theorem storeSwap_of_lacksRoom (serviceable : files.Serviceable)
    (lacks : files.LacksRoom image.length) :
    ∃ error, perform (FileSystem.storeSwap pid image) files = (.error error, files) := by
  rcases serviceable.state with ⟨unformatted, _⟩ | ⟨contents, represents⟩
  · exact ⟨.notFormatted, storeSwap_unformatted unformatted⟩
  · rcases represents.mirrored with ⟨stored, catalogue, _⟩
    refine ⟨.noAvailableSpace, catalogue.storeSwap_full ?_⟩
    rcases lacks with unformatted | full
    · simp [represents.formatted] at unformatted
    · exact full

/-- With room for an image that is not stored yet it is stored. -/
theorem storeSwap_of_room (serviceable : files.Serviceable) (unswapped : files.swapImage pid = none)
    (short : (Text.utf8Bytes (swapName pid)).length ≤ contentSize)
    (room : ¬ files.LacksRoom image.length) :
    ∃ stored next, perform (FileSystem.storeSwap pid image) files = (.ok stored, next) ∧
      files.StoresSwap pid image next := by
  rcases serviceable.state with ⟨unformatted, _⟩ | ⟨contents, represents⟩
  · exact absurd (Or.inl unformatted) room
  · exact represents.storesSwap unswapped short room

/-- A name that does not fit into a directory entry is refused. -/
theorem storeSwap_of_long (serviceable : files.Serviceable)
    (long : contentSize < (Text.utf8Bytes (swapName pid)).length) :
    ∃ error, perform (FileSystem.storeSwap pid image) files = (.error error, files) := by
  rcases serviceable.state with ⟨unformatted, _⟩ | ⟨contents, represents⟩
  · exact ⟨.notFormatted, storeSwap_unformatted unformatted⟩
  · rcases represents.mirrored with ⟨stored, catalogue, _⟩
    by_cases full : files.freeDirectory.size = 0 ∨ files.freeContent.size < blocksFor image.length
    · exact ⟨.noAvailableSpace, catalogue.storeSwap_full full⟩
    · refine ⟨.nameTooLong (swapName pid), catalogue.storeSwap_refused full ?_⟩
      rw [catalogue.checkNewName, if_neg (swapName_ne_empty pid), if_pos long]

/-- Whatever was stored anew is there, and nothing else has changed. -/
theorem storesSwap_of_ok (serviceable : files.Serviceable) (unswapped : files.swapImage pid = none)
    {stored : SwapStored} {next : FileSystem}
    (succeeded : perform (FileSystem.storeSwap pid image) files = (.ok stored, next)) :
    files.StoresSwap pid image next := by
  have carried : ¬ ∃ error, perform (FileSystem.storeSwap pid image) files = (.error error, files) := by
    rintro ⟨error, refused⟩
    rw [succeeded] at refused
    cases refused
  have short := Nat.le_of_not_lt fun long => carried (serviceable.storeSwap_of_long long)
  rcases serviceable.storeSwap_of_room unswapped short
    (fun lacks => carried (serviceable.storeSwap_of_lacksRoom lacks)) with ⟨_, after, again, stores⟩
  obtain ⟨_, rfl⟩ := Prod.mk.inj (succeeded.symm.trans again)
  exact stores

/-- The image of a process is fetched, its file is gone, and nothing else has changed. -/
theorem fetchSwap (serviceable : files.Serviceable) (kept : files.swapImage pid = some image) :
    ∃ fetched next, perform (FileSystem.deleteSwap pid) files = (.ok fetched, next) ∧
      fetched.image = image ∧ files.ReleasesSwap pid next := by
  have active : files.hasSwap pid = true := by rw [serviceable.hasSwap_eq, kept, Option.isSome_some]
  rcases serviceable.exists_represents active with ⟨contents, represents⟩
  have releases := represents.releasesSwap active
  rcases serviceable.deleteSwap kept with ⟨fetched, next, succeeded, same, _⟩
  rw [succeeded] at releases
  exact ⟨fetched, next, succeeded, same, releases⟩

end Serviceable

end FileSystem

end Timeshare
