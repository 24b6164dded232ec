import Timeshare.Proofs.FileSystem.Updates
import Timeshare.Proofs.Text.Numeral

/-!
# Swap files

The name of a swap file tells the process, belongs to the kernel and fits into a directory entry.
Storing an image either adds its file or changes nothing; fetching it gives the image back and
deletes the file.
-/

namespace Timeshare

namespace FileSystem

/-! ## Names -/

theorem swapName_eq (pid : Nat) : swapName pid = ".swap" ++ Nat.repr pid := by
  simp [swapName, toString]

theorem swapName_injective {first second : Nat} (same : swapName first = swapName second) :
    first = second := by
  rw [swapName_eq, swapName_eq, String.append_right_inj] at same
  have digits := congrArg String.toList same
  rw [Nat.toList_repr, Nat.toList_repr] at digits
  exact Text.toDigits_injective digits

/-- No user file has the name of a swap file. -/
theorem isReserved_swapName (pid : Nat) : isReserved (swapName pid) = true := by
  rw [swapName_eq, isReserved, String.toList_append]
  rfl

theorem swapName_ne_empty (pid : Nat) : swapName pid ≠ "" := by
  intro empty
  have reserved := isReserved_swapName pid
  rw [empty] at reserved
  exact Bool.false_ne_true reserved

/-- The names of the swap files of all process numbers fit into a directory entry. -/
theorem length_swapName_le (pid : UInt32) :
    (Text.utf8Bytes (swapName pid.toNat)).length ≤ contentSize := by
  have digits : (Nat.repr pid.toNat).length ≤ 10 := by
    have small := pid.toNat_lt
    exact (Nat.length_repr_le_iff (by decide)).mpr (by omega)
  have bytes := Text.length_utf8Bytes_le (swapName pid.toNat)
  rw [swapName_eq, String.length_append] at bytes
  rw [swapName_eq]
  have lead : ".swap".length = 5 := rfl
  simp only [contentSize]
  omega

/-! ## Processes with swap files -/

theorem hasSwap_iff_mem {files : FileSystem} {pid : Nat} :
    files.hasSwap pid = true ↔ pid ∈ files.swaps.elements :=
  OrderedSet.contains_iff _ _

theorem hasSwap_eq_false {files : FileSystem} (none_swapped : files.swaps.elements = [])
    (pid : Nat) : files.hasSwap pid = false := by
  rw [← Bool.not_eq_true, hasSwap_iff_mem, none_swapped]
  exact List.not_mem_nil

namespace Catalogues

variable {files : FileSystem} {stored rest : List StoredFile} {file : StoredFile} {pid : Nat}
  {image : List UInt8}

/-! ## Storing an image -/

theorem checkSwapSpace (catalogue : files.Catalogues stored) (image : List UInt8) :
    files.checkSwapSpace image =
      if files.freeDirectory.size = 0 ∨ files.freeContent.size < blocksFor image.length then
        .error .noAvailableSpace
      else .ok () := by
  simp only [FileSystem.checkSwapSpace, requireFormatted, catalogue.accounts.formatted, if_true]
  change (if files.freeDirectory.isEmpty || files.freeContent.size < blocksFor image.length then
    _ else _) = _
  rw [OrderedSet.size_eq_length files.freeDirectory]
  simp only [Bool.or_eq_true, OrderedSet.isEmpty_iff, decide_eq_true_eq, List.length_eq_zero_iff]

theorem storeSwap_full (catalogue : files.Catalogues stored)
    (full : files.freeDirectory.size = 0 ∨ files.freeContent.size < blocksFor image.length) :
    perform (storeSwap pid image) files = (.error .noAvailableSpace, files) := by
  apply perform_inspect_error
  rw [catalogue.checkSwapSpace, if_pos full]

theorem storeSwap_refused (catalogue : files.Catalogues stored)
    (room : ¬ (files.freeDirectory.size = 0 ∨ files.freeContent.size < blocksFor image.length))
    {error : FileSystemError} (refused : files.checkNewName (swapName pid) = .error error) :
    perform (storeSwap pid image) files = (.error error, files) := by
  have checked : perform (inspect (FileSystem.checkSwapSpace image)) files = (.ok (), files) := by
    rw [perform_inspect, catalogue.checkSwapSpace, if_neg room]
  rw [FileSystem.storeSwap, perform_bind_ok _ checked]
  exact perform_bind_error _ (createFile_refused refused)

/-- With the space checked before, an image is always stored whole. -/
theorem storeSwap (catalogue : files.Catalogues stored)
    (short : (Text.utf8Bytes (swapName pid)).length ≤ contentSize)
    (absent : ∀ file ∈ stored, file.name ≠ Text.utf8Bytes (swapName pid))
    (entry : 0 < files.freeDirectory.size) (room : blocksFor image.length ≤ files.freeContent.size) :
    ∃ swap location next, perform (FileSystem.storeSwap pid image) files =
        (.ok ⟨swapName pid, location⟩, next) ∧
      next.Catalogues (swap :: stored) ∧ swap.name = Text.utf8Bytes (swapName pid) ∧
      swap.content = image ∧ next.disk.geometry = files.disk.geometry ∧
      next.status = files.status ∧ next.swaps = files.swaps.insert pid := by
  have checked : perform (inspect (FileSystem.checkSwapSpace image)) files = (.ok (), files) := by
    rw [perform_inspect, catalogue.checkSwapSpace, if_neg]
    rintro (none | full)
    · exact absurd none (Nat.ne_of_gt entry)
    · exact absurd room (Nat.not_le.mpr full)
  rcases catalogue.createFile (swapName_ne_empty pid) short absent (List.ne_nil_of_length_pos
      entry) with
    ⟨location, created, between, creation, catalogued, named, empty, keeps, content⟩
  have fresh : created.chain = [] := by
    have counted := (catalogued.sound created List.mem_cons_self).length_chain
    rw [empty] at counted
    exact List.eq_nil_of_length_eq_zero counted
  obtain ⟨swap, appended, append, catalogue', sameName, contents, keeps', _⟩ :=
    @appendToFile _ _ _ _ catalogued named image (by
      rw [fresh, content]
      exact room)
  have kept := keeps.trans keeps'
  refine ⟨swap, location, { appended with swaps := appended.swaps.insert pid }, ?_,
    catalogue'.withStatusAndSwaps _ _, sameName.trans named, ?_, kept.geometry, kept.status, ?_⟩
  · have caught (handler : FileSystemError → Action Unit) :
        perform (tryCatch (FileSystem.appendToFile (swapName pid) image) handler) between =
          (.ok ⟨⟩, appended) := by
      rw [perform_tryCatch, append]
    rw [FileSystem.storeSwap, perform_bind_ok _ checked]
    simp only []
    rw [perform_bind_ok _ creation, perform_bind_ok _ (caught _),
      perform_bind_ok _ (perform_modify _), perform_pure]
  · rw [contents, empty, List.nil_append]
  · rw [kept.swaps]

/-! ## Fetching an image -/

theorem deleteSwap_inactive (inactive : files.hasSwap pid = false) :
    perform (deleteSwap pid) files = (.error (.noActiveSwap pid), files) := by
  rw [FileSystem.deleteSwap, perform_bind_ok _ perform_get, if_neg (by simp [inactive]),
    perform_throw]

theorem deleteSwap_absent (catalogue : files.Catalogues stored)
    (absent : ∀ file ∈ stored, file.name ≠ Text.utf8Bytes (swapName pid))
    (active : files.hasSwap pid = true) :
    perform (FileSystem.deleteSwap pid) files = (.error (.fileNotFound (swapName pid)), files) := by
  rw [FileSystem.deleteSwap, perform_bind_ok _ perform_get, if_pos active]
  exact perform_inspect_error _ (catalogue.readBytes_absent absent)

/-- The image comes back as it was stored, and its file is gone. -/
theorem deleteSwap (catalogue : files.Catalogues (file :: rest))
    (named : file.name = Text.utf8Bytes (swapName pid)) (active : files.hasSwap pid = true) :
    ∃ next, perform (FileSystem.deleteSwap pid) files =
        (.ok ⟨swapName pid, file.content, file.chain.length⟩, next) ∧
      next.Catalogues rest ∧ next.disk.geometry = files.disk.geometry ∧
      next.status = files.status ∧ next.swaps = files.swaps.erase pid := by
  rcases catalogue.deleteFile named with ⟨between, deleted, catalogued, keeps⟩
  have read : perform (inspect (FileSystem.readBytes (swapName pid))) files =
      (.ok file.content, files) := by
    rw [perform_inspect, catalogue.readBytes named]
  refine ⟨{ between with swaps := between.swaps.erase pid }, ?_,
    catalogued.withStatusAndSwaps _ _, keeps.geometry, keeps.status, ?_⟩
  · rw [FileSystem.deleteSwap, perform_bind_ok _ perform_get, if_pos active]
    simp only []
    rw [perform_bind_ok _ read, perform_bind_ok _ deleted, perform_bind_ok _ (perform_modify _),
      perform_pure]
  · rw [keeps.swaps]

end Catalogues

end FileSystem

end Timeshare
