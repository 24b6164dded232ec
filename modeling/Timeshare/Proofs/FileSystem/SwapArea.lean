import Timeshare.Proofs.FileSystem.Refinement

/-!
# The swap area

For the kernel a file system is the images that it keeps for processes.  `FileSystem.swapImage` is
the image of one process.  Storing and fetching change the image of one process only, requests of
users change none, and formatting drops them all.  All of this holds whether the disk was formatted
or not.
-/

namespace Timeshare

namespace FileSystem

/-- The image in the swap file of a process, if it has one. -/
def swapImage (files : FileSystem) (pid : Nat) : Option (List UInt8) :=
  if files.hasSwap pid then (files.readBytes (swapName pid)).toOption else none

/-- A file system on which nothing was stored before formatting and nothing was lost since. -/
structure Serviceable (files : FileSystem) : Prop where
  hasBlocks : files.disk.geometry.HasBlocks
  state : (files.formatted = false ∧ files.swaps.elements = []) ∨
    ∃ contents, files.Represents contents

namespace Represents

variable {files : FileSystem} {contents : Contents}

theorem serviceable (represents : files.Represents contents) : files.Serviceable :=
  ⟨represents.hasBlocks, Or.inr ⟨contents, represents⟩⟩

theorem hasSwap_iff (represents : files.Represents contents) (pid : Nat) :
    files.hasSwap pid = true ↔ swapName pid ∈ contents := by
  rw [hasSwap_iff_mem, represents.swaps]

theorem swapImage_eq (represents : files.Represents contents) (pid : Nat) :
    files.swapImage pid = contents.lookup (swapName pid) := by
  rcases represents.mirrored with ⟨stored, catalogue, mirrors⟩
  cases found : contents.lookup (swapName pid) with
  | none =>
      have absent := Finmap.lookup_eq_none.mp found
      rw [swapImage, if_neg (mt (represents.hasSwap_iff pid).mp absent)]
  | some image =>
      have present := Finmap.mem_of_lookup_eq_some found
      rcases mirrors.extract found with ⟨file, rest, order, named, content, _⟩
      rw [swapImage, if_pos ((represents.hasSwap_iff pid).mpr present),
        (catalogue.perm order).readBytes named, content]
      rfl

/-- The directory has an entry for the swap file of a process that has one. -/
theorem findEntry_swap (represents : files.Represents contents) {pid : Nat}
    (present : swapName pid ∈ contents) :
    ∃ entry, files.findEntry (swapName pid) = .ok (some entry) := by
  rcases represents.mirrored with ⟨stored, catalogue, mirrors⟩
  rcases Finmap.mem_iff.mp present with ⟨image, found⟩
  rcases mirrors.extract found with ⟨file, rest, order, named, _⟩
  exact ⟨file.entry, (catalogue.perm order).findEntry List.mem_cons_self named⟩

end Represents

theorem storeSwap_eq_ok {capacity : Capacity} {contents after : Contents} {pid : Nat}
    {image : List UInt8} {answer : FileAnswer}
    (stored : Contents.storeSwap capacity contents pid image = .ok (answer, after)) :
    after = contents.insert (swapName pid) image := by
  unfold Contents.storeSwap at stored
  split at stored
  · split at stored
    · cases stored
    · cases stored
      rfl
  · cases stored

/-- The map gets the image under the name of the swap file, or nothing changes. -/
theorem Represents.storeSwap_inserts {files : FileSystem} {contents : Contents}
    (represents : files.Represents contents) (pid : Nat) (image : List UInt8) :
    (∃ error, perform (FileSystem.storeSwap pid image) files = (.error error, files)) ∨
      ∃ stored next, perform (FileSystem.storeSwap pid image) files = (.ok stored, next) ∧
        next.Represents (contents.insert (swapName pid) image) ∧
        next.disk.geometry = files.disk.geometry := by
  by_cases short : (Text.utf8Bytes (swapName pid)).length ≤ contentSize
  · have turnsOut := represents.storeSwap short image
    cases expected : Contents.storeSwap (room files.disk.geometry) contents pid image with
    | error error =>
        rw [expected] at turnsOut
        exact Or.inl ⟨error, turnsOut⟩
    | ok outcome =>
        rw [expected] at turnsOut
        rcases turnsOut with ⟨stored, next, succeeded, _, representsNext, geometry, _⟩
        rw [storeSwap_eq_ok expected] at representsNext
        exact Or.inr ⟨stored, next, succeeded, representsNext, geometry⟩
  · rcases represents.mirrored with ⟨stored, catalogue, mirrors⟩
    by_cases full : files.freeDirectory.size = 0 ∨ files.freeContent.size < blocksFor image.length
    · exact Or.inl ⟨_, catalogue.storeSwap_full full⟩
    · refine Or.inl ⟨.nameTooLong (swapName pid), catalogue.storeSwap_refused full ?_⟩
      rw [catalogue.checkNewName, if_neg (swapName_ne_empty pid), if_pos (Nat.lt_of_not_le short)]

theorem ofUser_eq_ok {name : String} {outcome : Except FileSystemError (FileAnswer × Contents)}
    {reached : FileAnswer × Contents} (allowed : Contents.ofUser name outcome = .ok reached) :
    isReserved name = false ∧ outcome = .ok reached := by
  unfold Contents.ofUser at allowed
  split at allowed
  · cases allowed
  split at allowed
  · cases allowed
  · rename_i free
    exact ⟨Bool.not_eq_true _ ▸ free, allowed⟩

/-- A request of a user, formatting apart, changes what is under one name at most, and that name is
not the kernel's. -/
theorem exists_name_of_step {capacity : Capacity} {contents after : Contents}
    {request : FileRequest} {answer : FileAnswer} (keeps : request ≠ .format)
    (served : Contents.step capacity contents (.serve request) = .ok (answer, after)) :
    ∃ name, isReserved name = false ∧
      ∀ other, other ≠ name → after.lookup other = contents.lookup other := by
  cases request with
  | format => exact absurd rfl keeps
  | create name =>
      rcases ofUser_eq_ok served with ⟨free, created⟩
      refine ⟨name, free, fun other different => ?_⟩
      unfold Contents.create at created
      split at created
      · cases created
      split at created
      · cases created
      split at created
      · cases created
        exact Finmap.lookup_insert_of_ne _ different
      · cases created
  | write name data =>
      rcases ofUser_eq_ok served with ⟨free, written⟩
      refine ⟨name, free, fun other different => ?_⟩
      unfold Contents.write at written
      split at written
      · split at written
        · cases written
          exact Finmap.lookup_insert_of_ne _ different
        · cases written
      · cases written
  | read name =>
      rcases ofUser_eq_ok served with ⟨free, read⟩
      refine ⟨name, free, fun other _ => ?_⟩
      unfold Contents.read at read
      split at read
      · cases read
        rfl
      · cases read
  | delete name =>
      rcases ofUser_eq_ok served with ⟨free, deleted⟩
      refine ⟨name, free, fun other different => ?_⟩
      unfold Contents.delete at deleted
      split at deleted
      · cases deleted
        exact Finmap.lookup_erase_ne different
      · cases deleted
  | list =>
      cases served
      exact ⟨"", rfl, fun _ _ => rfl⟩

/-- Requests of users, formatting apart, do not reach swap files. -/
theorem lookup_swapName_of_step {capacity : Capacity} {contents after : Contents}
    {request : FileRequest} {answer : FileAnswer} (keeps : request ≠ .format)
    (served : Contents.step capacity contents (.serve request) = .ok (answer, after)) (pid : Nat) :
    after.lookup (swapName pid) = contents.lookup (swapName pid) := by
  rcases exists_name_of_step keeps served with ⟨name, free, others⟩
  apply others
  intro same
  rw [← same, isReserved_swapName] at free
  exact Bool.false_ne_true free.symm

namespace Serviceable

variable {files : FileSystem} {pid : Nat} {image : List UInt8}

theorem openFile_unformatted (unformatted : files.formatted = false) (name : String) :
    files.openFile name = .error .notFormatted := by
  rw [openFile, requireFormatted, unformatted]
  rfl

theorem checkNewName_unformatted (unformatted : files.formatted = false) (name : String) :
    files.checkNewName name = .error .notFormatted := by
  rw [checkNewName, requireFormatted, unformatted]
  rfl

theorem swapImage_unformatted (unformatted : files.swaps.elements = []) :
    files.swapImage pid = none := by
  rw [swapImage, if_neg (by simp [hasSwap_eq_false unformatted])]

/-- A process has a swap file exactly if its image can be read back. -/
theorem hasSwap_eq (serviceable : files.Serviceable) :
    files.hasSwap pid = (files.swapImage pid).isSome := by
  rcases serviceable.state with ⟨_, unformatted⟩ | ⟨contents, represents⟩
  · rw [swapImage_unformatted unformatted, hasSwap_eq_false unformatted, Option.isSome_none]
  · rw [represents.swapImage_eq, Bool.eq_iff_iff, represents.hasSwap_iff, Finmap.lookup_isSome]

theorem findEntry_swap (serviceable : files.Serviceable) (active : files.hasSwap pid = true) :
    ∃ entry, files.findEntry (swapName pid) = .ok (some entry) := by
  rcases serviceable.state with ⟨_, unformatted⟩ | ⟨contents, represents⟩
  · rw [hasSwap_eq_false unformatted] at active
    exact absurd active Bool.false_ne_true
  · exact represents.findEntry_swap ((represents.hasSwap_iff pid).mp active)

/-- The image of a process is what can be read from its swap file, if there is one. -/
theorem readBytes_swap (serviceable : files.Serviceable) :
    (files.readBytes (swapName pid)).toOption = files.swapImage pid := by
  rcases serviceable.state with ⟨unformatted, none_active⟩ | ⟨contents, represents⟩
  · rw [swapImage_unformatted none_active, readBytes, openFile_unformatted unformatted]
    rfl
  · by_cases present : swapName pid ∈ contents
    · rw [swapImage, if_pos ((represents.hasSwap_iff pid).mpr present)]
    · rcases represents.mirrored with ⟨stored, catalogue, mirrors⟩
      rw [represents.swapImage_eq, Finmap.lookup_eq_none.mpr present,
        catalogue.readBytes_absent (mirrors.absent present)]
      rfl

theorem storeSwap_unformatted (unformatted : files.formatted = false) :
    perform (storeSwap pid image) files = (.error .notFormatted, files) := by
  apply perform_inspect_error
  rw [checkSwapSpace, requireFormatted, unformatted]
  rfl

/-- An image is stored under its process, or nothing changes. -/
theorem storeSwap (serviceable : files.Serviceable) (pid : Nat) (image : List UInt8) :
    (∃ error, perform (storeSwap pid image) files = (.error error, files)) ∨
      ∃ stored next, perform (FileSystem.storeSwap pid image) files = (.ok stored, next) ∧
        next.Serviceable ∧
        ∀ other, next.swapImage other = if other = pid then some image else files.swapImage other := by
  rcases serviceable.state with ⟨unformatted, _⟩ | ⟨contents, represents⟩
  · exact Or.inl ⟨.notFormatted, storeSwap_unformatted unformatted⟩
  · rcases represents.storeSwap_inserts pid image with
      refused | ⟨stored, next, succeeded, representsNext, _⟩
    · exact Or.inl refused
    · refine Or.inr ⟨stored, next, succeeded, representsNext.serviceable, ?_⟩
      intro other
      rw [representsNext.swapImage_eq, represents.swapImage_eq]
      split
      · rename_i same
        rw [same, Finmap.lookup_insert]
      · rename_i different
        exact Finmap.lookup_insert_of_ne _ fun same => different (swapName_injective same)

/-- The image of a process is fetched as it was stored. -/
theorem deleteSwap (serviceable : files.Serviceable) (kept : files.swapImage pid = some image) :
    ∃ fetched next, perform (FileSystem.deleteSwap pid) files = (.ok fetched, next) ∧
      fetched.image = image ∧ next.Serviceable ∧
      ∀ other, next.swapImage other = if other = pid then none else files.swapImage other := by
  rcases serviceable.state with ⟨_, unformatted⟩ | ⟨contents, represents⟩
  · rw [swapImage_unformatted unformatted] at kept
    cases kept
  · rw [represents.swapImage_eq] at kept
    have turnsOut := represents.deleteSwap pid
    simp only [Contents.deleteSwap, kept] at turnsOut
    rcases turnsOut with ⟨fetched, next, succeeded, same, representsNext, _⟩
    refine ⟨fetched, next, succeeded, FileAnswer.fetched.inj same, representsNext.serviceable, ?_⟩
    intro other
    rw [representsNext.swapImage_eq, represents.swapImage_eq]
    split
    · rename_i same
      rw [same, Finmap.lookup_erase]
    · rename_i different
      exact Finmap.lookup_erase_ne fun same => different (swapName_injective same)

/-- Before formatting every other request is refused. -/
theorem serve_unformatted (unformatted : files.formatted = false) {request : FileRequest}
    (keeps : request ≠ .format) :
    ∃ error, perform (serve request) files = (.error error, files) := by
  have refused {α β : Type} (name : String) (action : Action α) (continuation : α → Action β)
      (fails : ∃ error, perform action files = (.error error, files)) :
      ∃ error, perform (inspect (fun _ => checkUserName name) >>= fun _ =>
        action >>= continuation) files = (.error error, files) := by
    rw [perform_bind, perform_inspect]
    cases checkUserName name with
    | error error => exact ⟨error, rfl⟩
    | ok allowed =>
        rcases fails with ⟨error, failed⟩
        exact ⟨error, perform_bind_error _ failed⟩
  have unopened := openFile_unformatted unformatted
  cases request with
  | format => exact absurd rfl keeps
  | create name =>
      exact refused name (createFile name) _
        ⟨.notFormatted, perform_inspect_error _ (checkNewName_unformatted unformatted name)⟩
  | write name data =>
      exact refused name (writeFile name _) _
        ⟨.notFormatted, perform_inspect_error _ (unopened name)⟩
  | read name =>
      refine refused name (inspect (readText name)) _ ⟨.notFormatted, ?_⟩
      rw [perform_inspect, readText, readBytes, unopened]
      rfl
  | delete name =>
      exact refused name (deleteFile name) _
        ⟨.notFormatted, perform_inspect_error _ (unopened name)⟩
  | list =>
      refine ⟨.notFormatted, perform_inspect_error _ ?_⟩
      rw [userFiles, requireFormatted, unformatted]
      rfl

/-- Requests of users, formatting apart, leave all images. -/
theorem serve (serviceable : files.Serviceable) {request : FileRequest}
    (keeps : request ≠ .format) :
    (perform (serve request) files).2.Serviceable ∧
      ∀ pid, (perform (FileSystem.serve request) files).2.swapImage pid = files.swapImage pid := by
  rcases serviceable.state with ⟨unformatted, _⟩ | ⟨contents, represents⟩
  · rcases serve_unformatted unformatted keeps with ⟨error, refused⟩
    rw [refused]
    exact ⟨serviceable, fun _ => rfl⟩
  · have turnsOut := represents.serve request
    cases expected : Contents.step (room files.disk.geometry) contents (.serve request) with
    | error error =>
        rw [expected] at turnsOut
        change perform (FileSystem.serve request) files = _ at turnsOut
        rw [turnsOut]
        exact ⟨serviceable, fun _ => rfl⟩
    | ok outcome =>
        rw [expected] at turnsOut
        rcases turnsOut with ⟨reply, next, succeeded, _, representsNext, _⟩
        rw [succeeded]
        refine ⟨representsNext.serviceable, ?_⟩
        intro pid
        rw [representsNext.swapImage_eq, represents.swapImage_eq]
        exact lookup_swapName_of_step keeps expected pid

/-- Formatting drops all images. -/
theorem format (serviceable : files.Serviceable) :
    ∃ report next, perform FileSystem.format files = (.ok report, next) ∧ next.Serviceable ∧
      ∀ pid, next.swapImage pid = none := by
  rcases Represents.format serviceable.hasBlocks with
    ⟨report, next, formatted, _, represents, _⟩
  refine ⟨report, next, formatted, represents.serviceable, ?_⟩
  intro pid
  rw [represents.swapImage_eq, Finmap.lookup_empty]

theorem load (serviceable : files.Serviceable) : files.load.Serviceable := by
  rcases serviceable with ⟨hasBlocks, ⟨unformatted, none⟩ | ⟨contents, represents⟩⟩
  · exact ⟨hasBlocks, Or.inl ⟨unformatted, none⟩⟩
  · rcases represents.mirrored with ⟨stored, catalogue, mirrors⟩
    have loaded : files.load.Catalogues stored := catalogue.withStatusAndSwaps .loaded files.swaps
    exact ⟨hasBlocks, Or.inr ⟨contents, ⟨hasBlocks, ⟨stored, loaded, mirrors⟩, represents.swaps,
      represents.texts⟩⟩⟩

theorem blank {geometry : Geometry} (hasBlocks : geometry.HasBlocks) :
    (blank geometry).Serviceable :=
  ⟨hasBlocks, Or.inl ⟨rfl, rfl⟩⟩

end Serviceable

end FileSystem

end Timeshare
