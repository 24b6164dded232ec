import Timeshare.Proofs.FileSystem.Representation
import Timeshare.Proofs.FileSystem.SwapArea

/-!
# A disk without user files

As long as no user asks for anything there are no files on disk but swap files, however many images
are stored and fetched.  Once no process has a swap file, such a disk is as formatting leaves it.
-/

namespace Timeshare

namespace FileSystem

/-- A disk of the geometry on which there are no files but swap files, formatted or not. -/
inductive HoldsSwaps (geometry : Geometry) : Bool → FileSystem → Prop
  | unformatted {files : FileSystem} (size : files.disk.geometry = geometry)
      (unformatted : files.formatted = false) (inactive : files.swaps.elements = []) :
      HoldsSwaps geometry false files
  | formatted {files : FileSystem} {contents : Contents} (size : files.disk.geometry = geometry)
      (represents : files.Represents contents)
      (swaps : ∀ name ∈ contents, ∃ pid, name = swapName pid) :
      HoldsSwaps geometry true files

/-- Nothing is stored on the disk, and all of its blocks but the boot record are free. -/
structure Emptied (files : FileSystem) (geometry : Geometry) : Prop where
  listing : files.userFiles = .ok []
  directory : ∀ location, location ∈ files.freeDirectory.elements ↔
    location ∈ geometry.locations ∧ location.isDirectoryEntry = true
  content : ∀ location, location ∈ files.freeContent.elements ↔
    location ∈ geometry.locations ∧ location.inDirectoryTrack = false

theorem Catalogues.emptied {files : FileSystem} (catalogue : files.Catalogues []) :
    files.Emptied files.disk.geometry := by
  have directory := catalogue.directory_sites_perm
  have content := catalogue.content_sites_perm
  simp only [List.map_nil, List.flatMap_nil, List.append_nil] at directory content
  constructor
  case listing =>
    rcases catalogue.directoryBlocks with ⟨entries, listed, order⟩
    rw [List.map_nil, List.perm_nil] at order
    rw [userFiles, requireFormatted, catalogue.accounts.formatted, listed, order]
    rfl
  case directory =>
    intro location
    rw [directory.mem_iff, List.mem_filter]
  case content =>
    intro location
    rw [content.mem_iff, List.mem_filter, Bool.not_eq_true']

namespace HoldsSwaps

variable {geometry : Geometry} {formatted : Bool} {files : FileSystem}

theorem storeSwap (holds : HoldsSwaps geometry formatted files) (pid : Nat) (image : List UInt8) :
    HoldsSwaps geometry formatted (perform (storeSwap pid image) files).2 := by
  cases holds with
  | unformatted size unformatted inactive =>
      rw [Serviceable.storeSwap_unformatted unformatted]
      exact .unformatted size unformatted inactive
  | formatted size represents swaps =>
      rcases represents.storeSwap_inserts pid image with
        ⟨error, refused⟩ | ⟨stored, next, succeeded, representsNext, same⟩
      · rw [refused]
        exact .formatted size represents swaps
      · rw [succeeded]
        refine .formatted (same.trans size) representsNext fun name member => ?_
        rcases Finmap.mem_insert.mp member with rfl | before
        · exact ⟨pid, rfl⟩
        · exact swaps name before

theorem deleteSwap (holds : HoldsSwaps geometry formatted files) (pid : Nat) :
    HoldsSwaps geometry formatted (perform (deleteSwap pid) files).2 := by
  cases holds with
  | unformatted size unformatted inactive =>
      rw [Catalogues.deleteSwap_inactive (hasSwap_eq_false inactive pid)]
      exact .unformatted size unformatted inactive
  | @formatted _ contents size represents swaps =>
      have turnsOut := represents.deleteSwap pid
      cases expected : Contents.deleteSwap contents pid with
      | error error =>
          rw [expected] at turnsOut
          have refused : perform (FileSystem.deleteSwap pid) files = (.error error, files) :=
            turnsOut
          rw [refused]
          exact .formatted size represents swaps
      | ok outcome =>
          rw [expected] at turnsOut
          rcases turnsOut with ⟨fetched, next, succeeded, _, representsNext, same, _⟩
          rw [succeeded]
          refine .formatted (same.trans size) representsNext fun name member => ?_
          simp only [Contents.deleteSwap] at expected
          split at expected
          · cases expected
            exact swaps name (Finmap.mem_erase.mp member).2
          · cases expected

theorem format (hasBlocks : geometry.HasBlocks) (size : files.disk.geometry = geometry) :
    HoldsSwaps geometry true (perform FileSystem.format files).2 := by
  subst size
  rcases Represents.format hasBlocks with ⟨report, next, formatted, _, represents, same, _⟩
  rw [formatted]
  exact .formatted same represents fun name member => absurd member Finmap.notMem_empty

theorem formatted_eq (holds : HoldsSwaps geometry formatted files) :
    files.formatted = formatted := by
  cases holds with
  | unformatted size unformatted inactive => exact unformatted
  | formatted size represents swaps =>
      rcases represents.mirrored with ⟨stored, catalogue, _⟩
      exact catalogue.accounts.formatted

/-- Without swap files nothing is left. -/
theorem emptied (holds : HoldsSwaps geometry true files)
    (inactive : ∀ pid, files.hasSwap pid = false) : files.Emptied geometry := by
  cases holds with
  | @formatted _ contents size represents swaps =>
      rcases represents.mirrored with ⟨stored, catalogue, mirrors⟩
      have empty : contents = ∅ := by
        apply Finmap.ext_lookup
        intro name
        rw [Finmap.lookup_empty, Finmap.lookup_eq_none]
        intro member
        rcases swaps name member with ⟨pid, rfl⟩
        have active := (represents.hasSwap_iff pid).mpr member
        rw [inactive] at active
        cases active
      have none_stored : stored = [] := by
        have counted := mirrors.length
        rw [empty, Finmap.keys_empty, Finset.card_empty] at counted
        exact List.eq_nil_of_length_eq_zero counted
      subst none_stored
      exact size ▸ catalogue.emptied

end HoldsSwaps

end FileSystem

end Timeshare
