import Timeshare.Proofs.FileSystem.Contents
import Timeshare.Proofs.FileSystem.SwapFiles

/-!
# A file system answers as a finite map

`FileSystem.Represents` relates a file system to the finite map from names to bytes that it stands
for.  Each operation gives the answer of the map and leaves a file system that represents the map
after the operation.  So whatever is asked after formatting, no answer tells the disk from the map.
-/

namespace Timeshare

open FileSystem (isReserved swapName)

/-! ## Files on disk and in the map -/

namespace StoredFile

/-- The name and the content of a file. -/
def binding (file : StoredFile) : List UInt8 × List UInt8 :=
  (file.name, file.content)

end StoredFile

namespace Contents

/-- The names, as bytes, and what is under them. -/
def bindings (contents : Contents) : Multiset (List UInt8 × List UInt8) :=
  contents.entries.map fun entry => (Text.utf8Bytes entry.1, entry.2)

theorem bindings_insert {contents : Contents} {name : String} (absent : name ∉ contents)
    (bytes : List UInt8) :
    bindings (contents.insert name bytes) = (Text.utf8Bytes name, bytes) ::ₘ bindings contents := by
  rw [bindings, Finmap.entries_insert_of_notMem absent, Multiset.map_cons, bindings]

/-- A map is what is under one of its names beside all else. -/
theorem insert_erase_of_lookup {contents : Contents} {name : String} {bytes : List UInt8}
    (found : contents.lookup name = some bytes) :
    (contents.erase name).insert name bytes = contents := by
  refine Finmap.ext_lookup fun other => ?_
  by_cases same : other = name
  · rw [same, Finmap.lookup_insert, found]
  · rw [Finmap.lookup_insert_of_ne _ same, Finmap.lookup_erase_ne same]

theorem insert_erase {contents : Contents} {name : String} (bytes : List UInt8) :
    (contents.erase name).insert name bytes = contents.insert name bytes := by
  refine Finmap.ext_lookup fun other => ?_
  by_cases same : other = name
  · rw [same, Finmap.lookup_insert, Finmap.lookup_insert]
  · rw [Finmap.lookup_insert_of_ne _ same, Finmap.lookup_insert_of_ne _ same,
      Finmap.lookup_erase_ne same]

theorem blocks_eq (contents : Contents) :
    blocks contents = ((bindings contents).map fun binding => blocksFor binding.2.length).sum := by
  rw [blocks, bindings, Multiset.map_map]
  rfl

theorem card_keys (contents : Contents) : contents.keys.card = (bindings contents).card := by
  rw [bindings, Multiset.card_map, Finmap.keys]
  exact Multiset.card_map _ _

end Contents

namespace FileSystem

/-- The files are those of the map. -/
def Mirrors (stored : List StoredFile) (contents : Contents) : Prop :=
  (stored.map StoredFile.binding : Multiset (List UInt8 × List UInt8)) = contents.bindings

namespace Mirrors

variable {stored rest : List StoredFile} {file : StoredFile} {contents : Contents} {name : String}

theorem absent (mirrors : Mirrors stored contents) (unnamed : name ∉ contents) :
    ∀ file ∈ stored, file.name ≠ Text.utf8Bytes name := by
  intro file member named
  have bound : file.binding ∈ contents.bindings := by
    rw [← mirrors, Multiset.mem_coe]
    exact List.mem_map_of_mem member
  rcases Multiset.mem_map.mp bound with ⟨entry, inMap, same⟩
  have sameName : entry.1 = name :=
    Text.utf8Bytes_injective ((congrArg Prod.fst same).trans named)
  apply unnamed
  rw [Finmap.mem_def, ← sameName]
  exact Multiset.mem_map_of_mem _ inMap

theorem cons (mirrors : Mirrors rest contents) (unnamed : name ∉ contents)
    (named : file.name = Text.utf8Bytes name) :
    Mirrors (file :: rest) (contents.insert name file.content) := by
  rw [Mirrors, Contents.bindings_insert unnamed, List.map_cons, ← Multiset.cons_coe, mirrors,
    StoredFile.binding, named]

/-- The file of a name that is in the map is among the files, and the others are those of the map
without it. -/
theorem extract (mirrors : Mirrors stored contents) {bytes : List UInt8}
    (found : contents.lookup name = some bytes) :
    ∃ file rest, stored.Perm (file :: rest) ∧ file.name = Text.utf8Bytes name ∧
      file.content = bytes ∧ Mirrors rest (contents.erase name) := by
  have split : contents.bindings =
      (Text.utf8Bytes name, bytes) ::ₘ Contents.bindings (contents.erase name) := by
    rw [← Contents.bindings_insert Finmap.notMem_erase_self, Contents.insert_erase_of_lookup found]
  have bound : (Text.utf8Bytes name, bytes) ∈ stored.map StoredFile.binding := by
    rw [← Multiset.mem_coe, mirrors, split]
    exact Multiset.mem_cons_self _ _
  rcases List.mem_map.mp bound with ⟨file, member, same⟩
  rcases List.append_of_mem member with ⟨before, after, divided⟩
  have order : stored.Perm (file :: (before ++ after)) := divided ▸ List.perm_middle
  refine ⟨file, before ++ after, order, congrArg Prod.fst same, congrArg Prod.snd same, ?_⟩
  have whole : (((file :: (before ++ after)).map StoredFile.binding : List _) : Multiset _) =
      contents.bindings := (Multiset.coe_eq_coe.mpr (order.map _)).symm.trans mirrors
  rw [List.map_cons, ← Multiset.cons_coe, same, split, Multiset.cons_inj_right] at whole
  exact whole

theorem length (mirrors : Mirrors stored contents) : stored.length = contents.keys.card := by
  rw [Contents.card_keys, ← mirrors, Multiset.coe_card, List.length_map]

theorem blocks (mirrors : Mirrors stored contents) (sound : ∀ file ∈ stored, file.Sound) :
    (stored.flatMap StoredFile.chain).length = Contents.blocks contents := by
  rw [Contents.blocks_eq, ← mirrors, Multiset.map_coe, Multiset.sum_coe, List.map_map,
    List.length_flatMap]
  exact congrArg List.sum (List.map_congr_left fun file member => (sound file member).length_chain)

end Mirrors

/-! ## What a file system represents -/

/-- The room on a disk of the geometry. -/
def room (geometry : Geometry) : Capacity where
  files := geometry.fileCapacity
  blocks := geometry.contentCapacity

/-- The file system stands for the map: it stores the files of the map, it remembers the swap files
among them, and what users wrote is text. -/
structure Represents (files : FileSystem) (contents : Contents) : Prop where
  hasBlocks : files.disk.geometry.HasBlocks
  mirrored : ∃ stored, files.Catalogues stored ∧ Mirrors stored contents
  swaps : ∀ pid, pid ∈ files.swaps.elements ↔ swapName pid ∈ contents
  texts : ∀ name bytes, contents.lookup name = some bytes → isReserved name = false →
    ∃ text, bytes = Text.utf8Bytes text

/-- An action turns out as the map says.  It is carried out with the answer and leaves a file system
that represents the contents, or it is refused with the error and changes nothing. -/
def TurnsOut {α : Type} (files : FileSystem) (action : Action α) (view : α → FileAnswer) :
    Except FileSystemError (FileAnswer × Contents) → Prop
  | .ok (answer, contents) => ∃ value next, perform action files = (.ok value, next) ∧
      view value = answer ∧ next.Represents contents ∧
      next.disk.geometry = files.disk.geometry ∧ next.status = files.status
  | .error error => perform action files = (.error error, files)

/-- An answer and the file system after it are as the map says. -/
def Answers (files : FileSystem) (outcome : Except FileSystemError FileAnswer × FileSystem) :
    Except FileSystemError (FileAnswer × Contents) → Prop
  | .ok (answer, contents) => outcome.1 = .ok answer ∧ outcome.2.Represents contents ∧
      outcome.2.disk.geometry = files.disk.geometry
  | .error error => outcome = (.error error, files)

namespace TurnsOut

variable {α β : Type} {files : FileSystem} {action : Action α} {view : α → FileAnswer}
  {expected : Except FileSystemError (FileAnswer × Contents)}

theorem map (turnsOut : files.TurnsOut action view expected) (change : α → β)
    {viewChanged : β → FileAnswer} (same : ∀ value, viewChanged (change value) = view value) :
    files.TurnsOut (action >>= fun value => pure (change value)) viewChanged expected := by
  cases expected with
  | error error => exact perform_bind_error _ turnsOut
  | ok outcome =>
      rcases turnsOut with ⟨value, next, carried, answered, represents⟩
      refine ⟨change value, next, ?_, (same value).trans answered, represents⟩
      rw [perform_bind_ok _ carried, perform_pure]

/-- What is seen of the action is what the map says. -/
theorem observed (turnsOut : files.TurnsOut action view expected) :
    files.Answers ((perform action files).1.map view, (perform action files).2) expected := by
  cases expected with
  | error error =>
      change perform action files = _ at turnsOut
      rw [turnsOut]
      rfl
  | ok expected =>
      rcases turnsOut with ⟨value, next, carried, answered, represents, geometry, _⟩
      rw [carried]
      exact ⟨congrArg Except.ok answered, represents, geometry⟩

/-- The names that users may not use are refused in the same way. -/
theorem ofUser {name : String}
    (turnsOut : name ≠ "" → isReserved name = false → files.TurnsOut action view expected) :
    files.TurnsOut (inspect (fun _ => checkUserName name) >>= fun _ => action) view
      (Contents.ofUser name expected) := by
  by_cases empty : name = ""
  · rw [Contents.ofUser, if_pos empty]
    refine perform_bind_error _ ?_
    rw [perform_inspect, checkUserName, if_pos (String.isEmpty_iff.mpr empty)]
  · rw [Contents.ofUser, if_neg empty]
    have inhabited : ¬ name.isEmpty = true := fun isEmpty => empty (String.isEmpty_iff.mp isEmpty)
    cases reserved : isReserved name with
    | true =>
        rw [if_pos rfl]
        refine perform_bind_error _ ?_
        rw [perform_inspect, checkUserName, if_neg inhabited, if_pos reserved]
    | false =>
        rw [if_neg Bool.false_ne_true]
        have allowed : perform (inspect fun _ => checkUserName name) files = (.ok (), files) := by
          rw [perform_inspect, checkUserName, if_neg inhabited,
            if_neg (by rw [reserved]; exact Bool.false_ne_true)]
        have step := turnsOut empty reserved
        cases expected with
        | error error =>
            rw [TurnsOut, perform_bind_ok _ allowed]
            exact step
        | ok outcome =>
            rcases step with ⟨value, next, carried, represents⟩
            refine ⟨value, next, ?_, represents⟩
            rw [perform_bind_ok _ allowed, carried]

end TurnsOut

namespace Represents

variable {files next : FileSystem} {contents after : Contents} {stored : List StoredFile}
  {name : String}

/-- What remains to be shown after an operation on a user's file. -/
theorem user (represents : files.Represents contents) (keeps : files.Keeps next)
    (mirrored : ∃ stored, next.Catalogues stored ∧ Mirrors stored after)
    (others : ∀ other, other ≠ name → after.lookup other = contents.lookup other)
    (free : isReserved name = false)
    (text : ∀ bytes, after.lookup name = some bytes → ∃ text, bytes = Text.utf8Bytes text) :
    next.Represents after where
  hasBlocks := keeps.geometry ▸ represents.hasBlocks
  mirrored := mirrored
  swaps pid := by
    have apart : swapName pid ≠ name := by
      intro same
      have reserved := isReserved_swapName pid
      rw [same, free] at reserved
      exact Bool.false_ne_true reserved
    rw [keeps.swaps, represents.swaps, ← Finmap.lookup_isSome, ← Finmap.lookup_isSome,
      others _ apart]
  texts other bytes found user := by
    by_cases same : other = name
    · exact text bytes (same ▸ found)
    · exact represents.texts other bytes (others other same ▸ found) user

theorem create (represents : files.Represents contents) (nonempty : name ≠ "")
    (free : isReserved name = false) :
    files.TurnsOut (createFile name) (fun _ => .created name)
      (Contents.create (room files.disk.geometry) contents name) := by
  rcases represents.mirrored with ⟨stored, catalogue, mirrors⟩
  have counted := catalogue.length_add_freeDirectory represents.hasBlocks
  rw [mirrors.length, OrderedSet.size_eq_length] at counted
  have checked := catalogue.checkNewName name
  rw [if_neg nonempty] at checked
  unfold Contents.create
  split
  · rename_i long
    rw [if_pos long] at checked
    exact Catalogues.createFile_refused checked
  rename_i short
  rw [if_neg short] at checked
  split
  · rename_i present
    rcases Finmap.mem_iff.mp present with ⟨bytes, found⟩
    rcases mirrors.extract found with ⟨file, rest, order, named, _⟩
    rw [if_pos ⟨file, order.mem_iff.mpr List.mem_cons_self, named⟩] at checked
    exact Catalogues.createFile_refused checked
  rename_i unnamed
  have absent := mirrors.absent unnamed
  split
  · rename_i fewer
    have available : files.freeDirectory.elements ≠ [] := by
      intro none
      rw [none, List.length_nil, Nat.zero_add] at counted
      exact Nat.ne_of_lt fewer counted
    rcases catalogue.createFile nonempty (Nat.le_of_not_lt short) absent available with
      ⟨location, created, next, succeeded, catalogued, named, empty, keeps, _⟩
    refine ⟨location, next, succeeded, rfl, ?_, keeps.geometry, keeps.status⟩
    refine represents.user keeps ⟨created :: stored, catalogued, ?_⟩
      (fun other different => Finmap.lookup_insert_of_ne _ different) free ?_
    · rw [← empty]
      exact mirrors.cons unnamed named
    · intro bytes found
      rw [Finmap.lookup_insert, Option.some.injEq] at found
      exact ⟨"", found.symm⟩
  · rename_i exhausted
    refine Catalogues.createFile_full ?_ (List.eq_nil_of_length_eq_zero ?_)
    · exact catalogue.checkNewName_eq_ok.mpr ⟨nonempty, Nat.le_of_not_lt short, absent⟩
    · simp only [room] at exhausted
      omega

theorem write (represents : files.Represents contents) (free : isReserved name = false)
    (data : String) :
    files.TurnsOut (writeFile name (Text.utf8Bytes data)) (fun _ => .written name)
      (Contents.write (room files.disk.geometry) contents name (Text.utf8Bytes data)) := by
  rcases represents.mirrored with ⟨stored, catalogue, mirrors⟩
  unfold Contents.write
  split
  · rename_i present
    rcases Finmap.mem_iff.mp present with ⟨bytes, found⟩
    rcases mirrors.extract found with ⟨file, rest, order, named, _, others⟩
    have extracted := catalogue.perm order
    have counted := extracted.blocks_add_freeContent represents.hasBlocks
    rw [List.flatMap_cons, List.length_append, others.blocks fun other member =>
      extracted.sound other (List.mem_cons_of_mem _ member)] at counted
    split
    · rename_i fits
      simp only [room] at fits
      obtain ⟨written, next, succeeded, catalogued, sameName, content, keeps⟩ :=
        @Catalogues.writeFile _ _ _ _ extracted named (Text.utf8Bytes data) (by omega)
      refine ⟨⟨⟩, next, succeeded, rfl, ?_, keeps.geometry, keeps.status⟩
      refine represents.user keeps ⟨written :: rest, catalogued, ?_⟩
        (fun other different => Finmap.lookup_insert_of_ne _ different) free ?_
      · rw [← Contents.insert_erase, ← content]
        exact others.cons Finmap.notMem_erase_self (sameName.trans named)
      · intro bytes found
        rw [Finmap.lookup_insert, Option.some.injEq] at found
        exact ⟨data, found.symm⟩
    · rename_i exceeds
      simp only [room] at exceeds
      exact extracted.writeFile_refused named (by omega)
  · rename_i unnamed
    exact catalogue.writeFile_absent (mirrors.absent unnamed) _

theorem read (represents : files.Represents contents) (free : isReserved name = false) :
    files.TurnsOut (inspect (readText name)) (fun text => .contents (Text.utf8Bytes text))
      (Contents.read contents name) := by
  rcases represents.mirrored with ⟨stored, catalogue, mirrors⟩
  unfold Contents.read
  split
  · rename_i bytes found
    rcases mirrors.extract found with ⟨file, rest, order, named, content, _⟩
    rcases represents.texts name bytes found free with ⟨text, rfl⟩
    refine ⟨text, files, ?_, rfl, represents, rfl, rfl⟩
    rw [perform_inspect, readText, (catalogue.perm order).readBytes named, content]
    change (Except.ok (Text.decodeLossy (Text.utf8Bytes text)), files) = _
    rw [Text.decodeLossy_utf8Bytes]
  · rename_i unnamed
    have absent := mirrors.absent (Finmap.lookup_eq_none.mp unnamed)
    change perform _ _ = _
    rw [perform_inspect, readText, catalogue.readBytes_absent absent]
    rfl

theorem delete (represents : files.Represents contents) (free : isReserved name = false) :
    files.TurnsOut (deleteFile name) (fun _ => .deleted name) (Contents.delete contents name) := by
  rcases represents.mirrored with ⟨stored, catalogue, mirrors⟩
  unfold Contents.delete
  split
  · rename_i present
    rcases Finmap.mem_iff.mp present with ⟨bytes, found⟩
    rcases mirrors.extract found with ⟨file, rest, order, named, _, others⟩
    rcases (catalogue.perm order).deleteFile named with ⟨next, succeeded, catalogued, keeps⟩
    refine ⟨_, next, succeeded, rfl, ?_, keeps.geometry, keeps.status⟩
    refine represents.user keeps ⟨rest, catalogued, others⟩
      (fun other different => Finmap.lookup_erase_ne different) free ?_
    intro bytes found
    rw [Finmap.lookup_erase] at found
    exact absurd found (by simp)
  · rename_i unnamed
    exact catalogue.deleteFile_absent (mirrors.absent unnamed)

theorem list (represents : files.Represents contents) :
    files.TurnsOut (inspect userFiles) (fun names => .listing names)
      (.ok (.listing (Contents.userNames contents).val, contents)) := by
  rcases represents.mirrored with ⟨stored, catalogue, mirrors⟩
  rcases catalogue.directoryBlocks with ⟨entries, listed, order⟩
  have names : ((entries.map fun entry => Text.decodeLossy entry.payload : List String) :
      Multiset String) = contents.keys.val := by
    calc ((entries.map fun entry => Text.decodeLossy entry.payload : List String) :
          Multiset String)
        = ((stored.map StoredFile.binding).map fun binding => Text.decodeLossy binding.1 :
            List String) := by
          refine (Multiset.coe_eq_coe.mpr (order.map _)).trans ?_
          rw [List.map_map, List.map_map]
          rfl
      _ = contents.bindings.map fun binding => Text.decodeLossy binding.1 := by
          rw [← mirrors, Multiset.map_coe]
      _ = contents.keys.val := by
          rw [Contents.bindings, Multiset.map_map]
          exact Multiset.map_congr rfl fun entry _ => Text.decodeLossy_utf8Bytes entry.1
  refine ⟨(entries.map fun entry => Text.decodeLossy entry.payload).filter fun name =>
    !isReserved name, files, ?_, ?_, represents, rfl, rfl⟩
  · rw [perform_inspect, userFiles, requireFormatted, catalogue.accounts.formatted, listed]
    rfl
  · rw [Contents.userNames, Finset.filter_val, ← names, Multiset.filter_coe]
    simp only [Bool.decide_eq_false]

theorem format (hasBlocks : files.disk.geometry.HasBlocks) :
    files.TurnsOut FileSystem.format (fun _ => .formatted) (.ok (.formatted, ∅)) := by
  rcases Catalogues.format hasBlocks with ⟨next, formatted, catalogue, geometry, status, swaps⟩
  refine ⟨_, next, formatted, rfl, ?_, geometry, status⟩
  exact {
    hasBlocks := geometry ▸ hasBlocks
    mirrored := ⟨[], catalogue, rfl⟩
    swaps := fun pid => by simp [swaps, Finmap.notMem_empty]
    texts := by simp }

/-- What remains to be shown after an operation on a swap file. -/
theorem kernel (represents : files.Represents contents) {pid : Nat}
    (geometry : next.disk.geometry = files.disk.geometry)
    (mirrored : ∃ stored, next.Catalogues stored ∧ Mirrors stored after)
    (others : ∀ other, other ≠ swapName pid → after.lookup other = contents.lookup other)
    (swaps : ∀ other, other ∈ next.swaps.elements ↔
      if other = pid then swapName pid ∈ after else other ∈ files.swaps.elements) :
    next.Represents after where
  hasBlocks := geometry ▸ represents.hasBlocks
  mirrored := mirrored
  swaps other := by
    rw [swaps]
    split
    · rename_i same
      rw [same]
    · rename_i different
      rw [represents.swaps, ← Finmap.lookup_isSome, ← Finmap.lookup_isSome,
        others _ fun same => different (swapName_injective same)]
  texts other bytes found user := by
    have apart : other ≠ swapName pid := by
      intro same
      rw [same, isReserved_swapName] at user
      exact Bool.false_ne_true user.symm
    exact represents.texts other bytes (others other apart ▸ found) user

theorem storeSwap (represents : files.Represents contents) {pid : Nat}
    (short : (Text.utf8Bytes (swapName pid)).length ≤ contentSize) (image : List UInt8) :
    files.TurnsOut (storeSwap pid image) (fun _ => .stored)
      (Contents.storeSwap (room files.disk.geometry) contents pid image) := by
  rcases represents.mirrored with ⟨stored, catalogue, mirrors⟩
  have entries := catalogue.length_add_freeDirectory represents.hasBlocks
  have blocks := catalogue.blocks_add_freeContent represents.hasBlocks
  rw [mirrors.length] at entries
  rw [mirrors.blocks catalogue.sound] at blocks
  unfold Contents.storeSwap
  split
  · rename_i spare
    simp only [room] at spare
    split
    · rename_i present
      rcases Finmap.mem_iff.mp present with ⟨bytes, found⟩
      rcases mirrors.extract found with ⟨file, rest, order, named, _⟩
      refine catalogue.storeSwap_refused (by omega) ?_
      rw [catalogue.checkNewName, if_neg (swapName_ne_empty pid), if_neg (Nat.not_lt.mpr short),
        if_pos ⟨file, order.mem_iff.mpr List.mem_cons_self, named⟩]
    · rename_i unnamed
      obtain ⟨swap, location, next, succeeded, catalogued, named, content, geometry, status,
          swaps⟩ := @Catalogues.storeSwap _ _ _ image catalogue short (mirrors.absent unnamed)
        (by omega) (by omega)
      refine ⟨_, next, succeeded, rfl, ?_, geometry, status⟩
      refine represents.kernel geometry ⟨swap :: stored, catalogued, ?_⟩
        (fun other different => Finmap.lookup_insert_of_ne _ different) fun other => ?_
      · rw [← content]
        exact mirrors.cons unnamed named
      · rw [swaps, OrderedSet.mem_insert]
        split
        · rename_i same
          simp [same]
        · rename_i different
          simp [different]
  · rename_i full
    simp only [room] at full
    exact catalogue.storeSwap_full (by omega)

theorem deleteSwap (represents : files.Represents contents) (pid : Nat) :
    files.TurnsOut (deleteSwap pid) (fun fetched => .fetched fetched.image)
      (Contents.deleteSwap contents pid) := by
  rcases represents.mirrored with ⟨stored, catalogue, mirrors⟩
  unfold Contents.deleteSwap
  split
  · rename_i image found
    have active : files.hasSwap pid = true := by
      rw [hasSwap_iff_mem, represents.swaps]
      exact Finmap.mem_of_lookup_eq_some found
    rcases mirrors.extract found with ⟨file, rest, order, named, content, others⟩
    rcases (catalogue.perm order).deleteSwap named active with
      ⟨next, succeeded, catalogued, geometry, status, swaps⟩
    refine ⟨_, next, succeeded, congrArg FileAnswer.fetched content, ?_, geometry, status⟩
    refine represents.kernel geometry ⟨rest, catalogued, others⟩
      (fun other different => Finmap.lookup_erase_ne different) fun other => ?_
    rw [swaps, OrderedSet.mem_erase]
    split
    · rename_i same
      simp [same]
    · rename_i different
      simp [different]
  · rename_i unnamed
    refine Catalogues.deleteSwap_inactive ?_
    rw [← Bool.not_eq_true, hasSwap_iff_mem, represents.swaps]
    exact Finmap.lookup_eq_none.mp unnamed

end Represents

end FileSystem

/-! ## Every answer is that of the map -/

namespace FileReply

/-- What a reply says of the files: not where on the disk they lie. -/
def answer : FileReply → FileAnswer
  | formatted _ => .formatted
  | created name _ => .created name
  | written name => .written name
  | contents text => .contents (Text.utf8Bytes text)
  | deleted name _ => .deleted name
  | listing names => .listing names

end FileReply

namespace FileSystem

/-- Carries an operation out: its answer and the file system that it leaves. -/
def carryOut (files : FileSystem) : FileOperation → Except FileSystemError FileAnswer × FileSystem
  | .serve request =>
      let outcome := perform (serve request) files
      (outcome.1.map FileReply.answer, outcome.2)
  | .storeSwap pid image =>
      let outcome := perform (storeSwap pid.toNat image) files
      (outcome.1.map fun _ => .stored, outcome.2)
  | .deleteSwap pid =>
      let outcome := perform (deleteSwap pid.toNat) files
      (outcome.1.map fun fetched => .fetched fetched.image, outcome.2)

/-- The answers to operations one after the other. -/
def answers : FileSystem → List FileOperation → List (Except FileSystemError FileAnswer)
  | _, [] => []
  | files, operation :: rest =>
      (files.carryOut operation).1 :: answers (files.carryOut operation).2 rest

namespace Represents

variable {files : FileSystem} {contents : Contents}

theorem serve (represents : files.Represents contents) (request : FileRequest) :
    files.TurnsOut (serve request) FileReply.answer
      (Contents.step (room files.disk.geometry) contents (.serve request)) := by
  cases request with
  | format => exact (format represents.hasBlocks).map _ fun _ => rfl
  | create name =>
      exact TurnsOut.ofUser fun nonempty free =>
        (represents.create nonempty free).map _ fun _ => rfl
  | write name data =>
      exact TurnsOut.ofUser fun _ free => (represents.write free data).map _ fun _ => rfl
  | read name => exact TurnsOut.ofUser fun _ free => (represents.read free).map _ fun _ => rfl
  | delete name =>
      exact TurnsOut.ofUser fun _ free => (represents.delete free).map _ fun _ => rfl
  | list => exact represents.list.map _ fun _ => rfl

/-- One operation has the answer of the map, and the map stays represented. -/
theorem carryOut (represents : files.Represents contents) (operation : FileOperation) :
    files.Answers (files.carryOut operation)
      (Contents.step (room files.disk.geometry) contents operation) := by
  cases operation with
  | serve request => exact (represents.serve request).observed
  | storeSwap pid image => exact (represents.storeSwap (length_swapName_le pid) image).observed
  | deleteSwap pid => exact (represents.deleteSwap pid.toNat).observed

theorem answers (represents : files.Represents contents) (operations : List FileOperation) :
    files.answers operations =
      Contents.answers (room files.disk.geometry) contents operations := by
  induction operations generalizing files contents with
  | nil => rfl
  | cons operation rest hypothesis =>
      have step := represents.carryOut operation
      rw [FileSystem.answers, Contents.answers]
      cases stepped : Contents.step (room files.disk.geometry) contents operation with
      | error error =>
          rw [stepped, Answers] at step
          rw [step, hypothesis represents]
      | ok expected =>
          rw [stepped] at step
          rcases step with ⟨answered, representsAfter, geometry⟩
          rw [answered, hypothesis representsAfter, geometry]

end Represents

/-- After formatting, a file system and the finite map of its files give the same answers. -/
theorem answers_eq_contents_answers {files : FileSystem}
    (hasBlocks : files.disk.geometry.HasBlocks) (operations : List FileOperation) :
    files.answers (.serve .format :: operations) =
      .ok .formatted :: Contents.answers (room files.disk.geometry) ∅ operations := by
  have formatted : files.TurnsOut (serve .format) FileReply.answer (.ok (.formatted, ∅)) :=
    (Represents.format hasBlocks).map _ fun _ => rfl
  rcases formatted.observed with ⟨answered, represents, geometry⟩
  rw [answers, ← geometry, ← represents.answers operations]
  exact congrArg (· :: _) answered

/-- A disk with room for one file of two blocks. -/
theorem answers_eq_contents_answers_small :
    Geometry.HasBlocks ⟨2, 1, 2⟩ ∧
      (blank ⟨2, 1, 2⟩).answers [.serve .format, .serve (.create "notes"),
        .serve (.write "notes" "text"), .serve (.read "notes"), .storeSwap 0 [1]] =
      .ok .formatted :: Contents.answers (room ⟨2, 1, 2⟩) ∅ [.serve (.create "notes"),
        .serve (.write "notes" "text"), .serve (.read "notes"), .storeSwap 0 [1]] := by
  have hasBlocks : Geometry.HasBlocks ⟨2, 1, 2⟩ := ⟨by decide, by decide, by decide⟩
  exact ⟨hasBlocks, @answers_eq_contents_answers (blank ⟨2, 1, 2⟩) hasBlocks _⟩

end FileSystem

end Timeshare
