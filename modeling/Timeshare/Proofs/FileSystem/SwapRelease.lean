import Timeshare.Proofs.FileSystem.Representation
import Timeshare.Proofs.FileSystem.SwapArea

/-!
# Storing fails for want of space only, and fetching gives all blocks back

Two things about swap files that the images alone do not tell.  An image that is not yet stored is
refused only because it does not fit, and nothing has changed then.  A swap file that is fetched
leaves no block behind, and every other file can be read as before.
-/

namespace Timeshare

namespace FileSystem

/-- The swap file of a process is gone and all of its blocks are free again.  Nothing else that is
stored has changed. -/
structure ReleasesSwap (files : FileSystem) (pid : Nat) (next : FileSystem) : Prop where
  inactive : next.hasSwap pid = false
  gone : next.findEntry (swapName pid) = .ok none
  freed : ∃ entry chain, files.IsEntry entry ∧ entry.payload = Text.utf8Bytes (swapName pid) ∧
    Leads files.disk entry chain ∧
    next.freeDirectory.elements.Perm (entry.location :: files.freeDirectory.elements) ∧
    next.freeContent.elements.Perm (chain.map Block.location ++ files.freeContent.elements)
  kept : ∀ name, name ≠ swapName pid → next.readBytes name = files.readBytes name
  swaps : ∀ other, other ≠ pid → next.hasSwap other = files.hasSwap other

namespace Catalogues

variable {files next : FileSystem} {stored rest : List StoredFile} {file : StoredFile}
  {name : String}

/-- The locations of a file that is removed are free. -/
theorem freed_of_removed (catalogue : files.Catalogues (file :: rest)) (left : next.Catalogues rest)
    (geometry : next.disk.geometry = files.disk.geometry) :
    next.freeDirectory.elements.Perm (file.entry.location :: files.freeDirectory.elements) ∧
      next.freeContent.elements.Perm
        (file.chain.map Block.location ++ files.freeContent.elements) := by
  have directory := left.directory_sites_perm
  have content := left.content_sites_perm
  rw [geometry] at directory content
  constructor
  · have same := directory.trans catalogue.directory_sites_perm.symm
    rw [List.map_cons] at same
    exact (List.perm_append_right_iff _).mp (same.trans List.perm_middle)
  · have same := content.trans catalogue.content_sites_perm.symm
    rw [List.flatMap_cons, ← List.append_assoc] at same
    exact ((List.perm_append_right_iff _).mp same).trans List.perm_append_comm

/-- Reading another file does not depend on the file that is removed. -/
theorem readBytes_of_removed (catalogue : files.Catalogues (file :: rest))
    (left : next.Catalogues rest) (other : file.name ≠ Text.utf8Bytes name) :
    next.readBytes name = files.readBytes name := by
  rw [left.readBytes_eq, catalogue.readBytes_eq, List.find?_cons_of_neg (by simpa using other)]

end Catalogues

namespace Represents

variable {files : FileSystem} {contents : Contents} {pid : Nat}

/-- Fetching an image gives the blocks of its file back and touches no other file. -/
theorem releasesSwap (represents : files.Represents contents) (active : files.hasSwap pid = true) :
    files.ReleasesSwap pid (perform (FileSystem.deleteSwap pid) files).2 := by
  rcases represents.mirrored with ⟨stored, catalogue, mirrors⟩
  rcases Finmap.mem_iff.mp ((represents.hasSwap_iff pid).mp active) with ⟨image, found⟩
  rcases mirrors.extract found with ⟨file, rest, order, named, _⟩
  have extracted := catalogue.perm order
  rcases extracted.deleteSwap named active with ⟨next, fetched, left, geometry, _, swaps⟩
  rw [fetched]
  have remembered (other : Nat) :
      next.hasSwap other = true ↔ other ≠ pid ∧ files.hasSwap other = true := by
    rw [hasSwap_iff_mem, hasSwap_iff_mem, swaps, OrderedSet.mem_erase, and_comm]
  have distinct := extracted.names_distinct
  rw [List.map_cons, List.nodup_cons] at distinct
  constructor
  case inactive =>
    rw [← Bool.not_eq_true, remembered]
    exact fun both => both.1 rfl
  case gone =>
    apply left.findEntry_none
    intro other member sameName
    exact distinct.1 (named ▸ sameName ▸ List.mem_map_of_mem member)
  case freed =>
    refine ⟨file.entry, file.chain, ?_, named, extracted.leads List.mem_cons_self,
      extracted.freed_of_removed left geometry⟩
    exact extracted.isEntry_iff.mpr ⟨file, List.mem_cons_self, rfl⟩
  case kept =>
    intro name different
    apply extracted.readBytes_of_removed left
    intro same
    exact different (Text.utf8Bytes_injective (same.symm.trans named))
  case swaps =>
    intro other different
    rw [Bool.eq_iff_iff, remembered]
    exact and_iff_right different

end Represents

namespace Serviceable

variable {files next : FileSystem} {pid other : Nat}

/-- A disk with a swap file on it is formatted, and its files are known. -/
theorem exists_represents (serviceable : files.Serviceable) (active : files.hasSwap pid = true) :
    ∃ contents, files.Represents contents := by
  rcases serviceable.state with ⟨_, none_active⟩ | represented
  · rw [hasSwap_eq_false none_active] at active
    exact absurd active Bool.false_ne_true
  · exact represented

/-- On a formatted disk an image is refused for want of space, unless one is stored already. -/
theorem storeSwap_eq_error (serviceable : files.Serviceable) (active : files.hasSwap other = true)
    (unswapped : files.swapImage pid = none)
    (short : (Text.utf8Bytes (swapName pid)).length ≤ contentSize) {image : List UInt8}
    {error : FileSystemError}
    (refused : perform (FileSystem.storeSwap pid image) files = (.error error, next)) :
    error = .noAvailableSpace ∧ next = files := by
  rcases serviceable.exists_represents active with ⟨contents, represents⟩
  have absent : swapName pid ∉ contents := by
    rwa [represents.swapImage_eq, Finmap.lookup_eq_none] at unswapped
  have turnsOut := represents.storeSwap short image
  unfold Contents.storeSwap at turnsOut
  rw [if_neg absent] at turnsOut
  split at turnsOut
  · rcases turnsOut with ⟨stored, after, succeeded, _⟩
    rw [refused] at succeeded
    cases succeeded
  · have outcome := refused.symm.trans turnsOut
    simp only [Prod.mk.injEq, Except.error.injEq] at outcome
    exact outcome

end Serviceable

end FileSystem

end Timeshare
