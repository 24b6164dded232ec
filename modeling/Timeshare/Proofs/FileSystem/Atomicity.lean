import Timeshare.Proofs.FileSystem.SwapIndex

/-!
# Failing calls

A file system is called by the kernel, which is free to do anything to any file, and by users, who
make requests.  Whatever was called before, on a disk of any size and formatted or not, a call that
fails leaves the file system as it was.  The space is checked before the first block is written,
and after that nothing fails.
-/

namespace Timeshare

namespace FileSystem

/-- A call that a file system takes. -/
inductive Call
  | load
  | operate (operation : Operation)
  | serve (request : FileRequest)

/-- Whether a call succeeds, and the file system that it leaves. -/
def call (files : FileSystem) : Call → Except FileSystemError Unit × FileSystem
  | .load => (.ok (), files.load)
  | .operate operation => files.attempt operation
  | .serve request => settle (serve request) files

/-- The file system that some calls leave, each of which may succeed or fail. -/
def callAll (files : FileSystem) (calls : List Call) : FileSystem :=
  calls.foldl (fun files call => (files.call call).2) files

/-- The operation does not touch by its name a file that belongs to the kernel. -/
def Operation.Proper : Operation → Prop
  | .createFile name => isReserved name = false
  | .appendToFile name _ => isReserved name = false
  | .writeFile name _ => isReserved name = false
  | .deleteFile name => isReserved name = false
  | .format => True
  | .storeSwap _ _ => True
  | .deleteSwap _ => True

def Call.Proper : Call → Prop
  | .load => True
  | .operate operation => operation.Proper
  | .serve _ => True

/-! ## Requests as operations -/

section Requests

variable {α β : Type}

theorem settle_bind_pure (action : Action α) (make : α → β) (files : FileSystem) :
    settle (action >>= fun value => pure (make value)) files = settle action files := by
  rw [settle, settle, perform_bind]
  rcases perform action files with ⟨_ | _, _⟩ <;> rfl

theorem settle_inspect (look : FileSystem → Except FileSystemError α) (files : FileSystem) :
    (settle (inspect look) files).2 = files := by
  rw [settle, perform_inspect]

/-- A request about a file of the kernel's is refused. -/
theorem settle_checked (name : String) (action : Action α) (make : α → β) (files : FileSystem) :
    (settle (inspect (fun _ => checkUserName name) >>= fun _ =>
      action >>= fun value => pure (make value)) files).2 = files ∨
      isReserved name = false ∧
        settle (inspect (fun _ => checkUserName name) >>= fun _ =>
          action >>= fun value => pure (make value)) files = settle action files := by
  cases checked : checkUserName name with
  | error error =>
      exact Or.inl (congrArg Prod.snd (settle_error (perform_inspect_error _ rfl)))
  | ok allowed =>
      have looked : perform (inspect fun _ => .ok allowed) files = (.ok allowed, files) :=
        perform_inspect _
      refine Or.inr ⟨?_, ?_⟩
      · rw [← Bool.not_eq_true]
        intro reserved
        simp only [checkUserName, reserved, if_true] at checked
        split at checked <;> cases checked
      · rw [← settle_bind_pure action make, settle, settle, perform_bind_ok _ looked]

end Requests

/-- A request of a user is an operation or leaves the file system as it is. -/
theorem call_serve (files : FileSystem) (request : FileRequest) :
    (files.call (.serve request)).2 = files ∨ ∃ operation : Operation, operation.Proper ∧
      files.call (.serve request) = files.attempt operation := by
  cases request with
  | format => exact Or.inr ⟨.format, trivial, settle_bind_pure format FileReply.formatted files⟩
  | create name =>
      rcases settle_checked name (createFile name) (FileReply.created name) files with
        unchanged | ⟨free, same⟩
      · exact Or.inl unchanged
      · exact Or.inr ⟨.createFile name, free, same⟩
  | write name data =>
      rcases settle_checked name (writeFile name (Text.utf8Bytes data))
        (fun _ => FileReply.written name) files with unchanged | ⟨free, same⟩
      · exact Or.inl unchanged
      · exact Or.inr ⟨.writeFile name (Text.utf8Bytes data), free, same⟩
  | read name =>
      rcases settle_checked name (inspect (readText name)) FileReply.contents files with
        unchanged | ⟨_, same⟩
      · exact Or.inl unchanged
      · exact Or.inl ((congrArg Prod.snd same).trans (settle_inspect _ files))
  | delete name =>
      rcases settle_checked name (deleteFile name) (FileReply.deleted name) files with
        unchanged | ⟨free, same⟩
      · exact Or.inl unchanged
      · exact Or.inr ⟨.deleteFile name, free, same⟩
  | list =>
      have same := settle_bind_pure (inspect userFiles) FileReply.listing files
      exact Or.inl ((congrArg Prod.snd same).trans (settle_inspect _ files))

/-- Loading apart, a call is an operation or leaves the file system as it is. -/
theorem call_cases (files : FileSystem) (call : Call) :
    (files.call call).2 = files ∨ files.call call = (.ok (), files.load) ∨
      ∃ operation : Operation, (call.Proper → operation.Proper) ∧
        files.call call = files.attempt operation := by
  cases call with
  | load => exact Or.inr (Or.inl rfl)
  | operate operation => exact Or.inr (Or.inr ⟨operation, id, rfl⟩)
  | serve request =>
      rcases files.call_serve request with unchanged | ⟨operation, proper, same⟩
      · exact Or.inl unchanged
      · exact Or.inr (Or.inr ⟨operation, fun _ => proper, same⟩)

/-! ## Every state -/

/-- Before formatting only formatting is carried out. -/
theorem attempt_unformatted {files : FileSystem} (unformatted : files.formatted = false)
    (none_swapped : files.swaps.elements = []) {operation : Operation}
    (other : operation ≠ .format) : ∃ error, files.attempt operation = (.error error, files) := by
  have closed {α β : Type} {look : FileSystem → Except FileSystemError α}
      (continuation : α → Action β) (guarded : look files = .error .notFormatted) :
      ∃ error, settle (inspect look >>= continuation) files = (.error error, files) :=
    ⟨.notFormatted, settle_error (perform_inspect_error _ guarded)⟩
  have unopened := Serviceable.openFile_unformatted unformatted
  cases operation with
  | format => exact absurd rfl other
  | createFile name => exact closed _ (Serviceable.checkNewName_unformatted unformatted name)
  | appendToFile name data => exact closed _ (unopened name)
  | writeFile name data => exact closed _ (unopened name)
  | deleteFile name => exact closed _ (unopened name)
  | storeSwap pid image =>
      exact ⟨.notFormatted, settle_error (Serviceable.storeSwap_unformatted unformatted)⟩
  | deleteSwap pid =>
      exact ⟨.noActiveSwap pid,
        settle_error (Catalogues.deleteSwap_inactive (hasSwap_eq_false none_swapped pid))⟩

/-- Either the disk was not formatted yet, or its files are known. -/
inductive Known (files : FileSystem) : Prop
  | unformatted (unformatted : files.formatted = false) (none_swapped : files.swaps.elements = [])
  | formatted (hasBlocks : files.disk.geometry.HasBlocks) (stored : List StoredFile)
      (catalogue : files.Catalogues stored)

namespace Known

variable {files : FileSystem}

theorem onDisk (disk : Disk) : (onDisk disk).Known :=
  .unformatted rfl rfl

theorem load (known : files.Known) : files.load.Known := by
  cases known with
  | unformatted unformatted none_swapped => exact .unformatted unformatted none_swapped
  | formatted hasBlocks stored catalogue =>
      exact .formatted hasBlocks stored (catalogue.withStatusAndSwaps .loaded files.swaps)

/-- The files of a formatted disk are known. -/
theorem exists_catalogue (known : files.Known) (formatted : files.formatted = true) :
    files.disk.geometry.HasBlocks ∧ ∃ stored, files.Catalogues stored := by
  cases known with
  | unformatted unformatted => exact absurd (unformatted.symm.trans formatted) Bool.false_ne_true
  | formatted hasBlocks stored catalogue => exact ⟨hasBlocks, stored, catalogue⟩

/-- An operation is refused, or formats the disk for the first time, or finds files that are
known. -/
theorem attempt_cases (known : files.Known) (operation : Operation) :
    (∃ error, files.attempt operation = (.error error, files)) ∨
      (operation = .format ∧ ∃ next, files.attempt operation = (.ok (), next) ∧
        next.disk.geometry.HasBlocks ∧ next.Catalogues [] ∧ next.swaps = .empty) ∨
      files.disk.geometry.HasBlocks ∧ ∃ stored, files.Catalogues stored ∧
        Alters files stored operation (files.attempt operation) := by
  cases known with
  | formatted hasBlocks stored catalogue =>
      exact Or.inr (Or.inr ⟨hasBlocks, stored, catalogue, catalogue.alters hasBlocks operation⟩)
  | unformatted unformatted none_swapped =>
      by_cases format : operation = .format
      · subst format
        by_cases hasBlocks : files.disk.geometry.HasBlocks
        · rcases Catalogues.format hasBlocks with ⟨next, formatted, catalogue, geometry, _, swaps⟩
          exact Or.inr (Or.inl ⟨rfl, next, settle_ok formatted, geometry ▸ hasBlocks, catalogue,
            swaps⟩)
        · exact Or.inl ⟨_, settle_error (format_refused hasBlocks)⟩
      · exact Or.inl (attempt_unformatted unformatted none_swapped format)

theorem attempt (known : files.Known) (operation : Operation) :
    (files.attempt operation).2.Known ∧ ∀ error, (files.attempt operation).1 = .error error →
      (files.attempt operation).2 = files := by
  rcases known.attempt_cases operation with
    ⟨_, refused⟩ | ⟨_, next, formats, hasBlocks, catalogue, _⟩ | ⟨hasBlocks, stored, catalogue, alters⟩
  · rw [refused]
    exact ⟨known, fun _ _ => rfl⟩
  · rw [formats]
    refine ⟨.formatted hasBlocks [] catalogue, fun error failed => ?_⟩
    cases failed
  · rcases alters.exists_catalogue catalogue with ⟨left, catalogued⟩
    exact ⟨.formatted (alters.geometry ▸ hasBlocks) left catalogued,
      fun error failed => alters.unchanged failed⟩

theorem call (known : files.Known) (call : Call) :
    (files.call call).2.Known ∧ ∀ error, (files.call call).1 = .error error →
      (files.call call).2 = files := by
  rcases files.call_cases call with unchanged | loads | ⟨operation, _, same⟩
  · rw [unchanged]
    exact ⟨known, fun _ _ => rfl⟩
  · rw [loads]
    refine ⟨known.load, fun error failed => ?_⟩
    cases failed
  · rw [same]
    exact known.attempt operation

theorem callAll (known : files.Known) (calls : List Call) : (files.callAll calls).Known := by
  induction calls generalizing files with
  | nil => exact known
  | cons call rest hypothesis => exact hypothesis (known.call call).1

end Known

/-- A call that fails changes nothing: not a block of the disk, not a set of free blocks, not what
is remembered of processes. -/
theorem unchanged_of_error (disk : Disk) (calls : List Call) {call : Call}
    {error : FileSystemError} (failed : (((onDisk disk).callAll calls).call call).1 = .error error) :
    (((onDisk disk).callAll calls).call call).2 = (onDisk disk).callAll calls :=
  (((Known.onDisk disk).callAll calls).call call).2 error failed

/-- A disk of four content blocks, and a file with one byte in it. -/
def noting : List Call :=
  [.load, .operate .format, .serve (.create "notes"), .operate (.appendToFile "notes" [1])]

def noted : FileSystem :=
  (onDisk (.blank ⟨2, 1, 4⟩)).callAll noting

/-- The new contents of a file are too long for the disk, and it keeps the old ones. -/
theorem unchanged_of_error_small :
    (noted.call (.operate (.writeFile "notes" (List.replicate 241 2)))).1 =
        .error .noAvailableSpace ∧
      (noted.call (.operate (.writeFile "notes" (List.replicate 241 2)))).2 = noted := by
  have failed : (noted.call (.operate (.writeFile "notes" (List.replicate 241 2)))).1 =
      .error .noAvailableSpace := by
    decide +kernel
  exact ⟨failed, unchanged_of_error _ noting failed⟩

end FileSystem

end Timeshare
