import Mathlib.Data.List.Nodup
import Timeshare.FileSystem.Update

/-!
# Carrying actions out

An action is opened step by step: what `perform` gives for a sequence of actions follows from what
it gives for each of them, and an error ends the sequence in the state that was reached.
-/

namespace Timeshare

namespace FileSystem

variable {α β : Type} {files next : FileSystem}

@[simp]
theorem perform_pure (value : α) : perform (pure value) files = (.ok value, files) := rfl

@[simp]
theorem perform_throw (error : FileSystemError) :
    perform (throw error : Action α) files = (.error error, files) := rfl

@[simp]
theorem perform_get : perform (get : Action FileSystem) files = (.ok files, files) := rfl

@[simp]
theorem perform_modify (change : FileSystem → FileSystem) :
    perform (modify change : Action PUnit) files = (.ok ⟨⟩, change files) := rfl

@[simp]
theorem perform_modifyGet (change : FileSystem → α × FileSystem) :
    perform (modifyGet change : Action α) files = (.ok (change files).1, (change files).2) := rfl

theorem perform_bind (action : Action α) (continuation : α → Action β) :
    perform (action >>= continuation) files =
      match perform action files with
      | (.ok value, reached) => perform (continuation value) reached
      | (.error error, reached) => (.error error, reached) := by
  simp only [perform, ExceptT.run_bind, StateT.run_bind]
  rcases StateT.run (ExceptT.run action) files with ⟨_ | _, _⟩ <;> rfl

theorem perform_bind_ok {action : Action α} {value : α} (continuation : α → Action β)
    (carried : perform action files = (.ok value, next)) :
    perform (action >>= continuation) files = perform (continuation value) next := by
  rw [perform_bind, carried]

theorem perform_bind_error {action : Action α} {error : FileSystemError}
    (continuation : α → Action β) (refused : perform action files = (.error error, next)) :
    perform (action >>= continuation) files = (.error error, next) := by
  rw [perform_bind, refused]

theorem perform_tryCatch (action : Action α) (handler : FileSystemError → Action α) :
    perform (tryCatch action handler) files =
      match perform action files with
      | (.ok value, reached) => (.ok value, reached)
      | (.error error, reached) => perform (handler error) reached := by
  unfold perform ExceptT.run StateT.run Id.run
  simp only [tryCatch, tryCatchThe, MonadExceptOf.tryCatch, ExceptT.tryCatch, ExceptT.mk, bind,
    StateT.bind]
  cases action files with
  | mk result reached => cases result <;> rfl

theorem perform_inspect (look : FileSystem → Except FileSystemError α) :
    perform (inspect look) files = (look files, files) := by
  rw [inspect, perform_bind_ok _ perform_get]
  cases look files <;> rfl

/-- What is looked at first may end an action before it has changed anything. -/
theorem perform_inspect_error {look : FileSystem → Except FileSystemError α}
    {error : FileSystemError} (continuation : α → Action β) (refused : look files = .error error) :
    perform (inspect look >>= continuation) files = (.error error, files) := by
  refine perform_bind_error _ ?_
  rw [perform_inspect, refused]

end FileSystem

end Timeshare
