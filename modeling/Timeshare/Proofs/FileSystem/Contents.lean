import Mathlib.Data.Finmap
import Timeshare.FileSystem.Service

/-!
# Files as a finite map

What the operations on files mean when a file system is nothing but the bytes under each name.  How
many files there may be and how many blocks they may take together is all that is left of the disk.
-/

namespace Timeshare

/-- The bytes under each name. -/
abbrev Contents : Type :=
  Finmap fun _ : String => List UInt8

/-- How many files there may be and how many blocks they may take together. -/
structure Capacity where
  files : Nat
  blocks : Nat

/-- What users and the kernel ask of a file system. -/
inductive FileOperation
  | serve (request : FileRequest)
  | storeSwap (pid : UInt32) (image : List UInt8)
  | deleteSwap (pid : UInt32)

/-- What is seen of an operation that was carried out. -/
inductive FileAnswer
  | formatted
  | created (name : String)
  | written (name : String)
  | contents (bytes : List UInt8)
  | deleted (name : String)
  | listing (names : Multiset String)
  | stored
  | fetched (image : List UInt8)

namespace Contents

open FileSystem (isReserved swapName)

/-- The number of blocks that the files take together. -/
def blocks (contents : Contents) : Nat :=
  (contents.entries.map fun entry => blocksFor entry.2.length).sum

variable (capacity : Capacity) (contents : Contents)

/-- A new file needs a name of its own and a place in the directory. -/
def create (name : String) : Except FileSystemError (FileAnswer × Contents) :=
  if contentSize < (Text.utf8Bytes name).length then .error (.nameTooLong name)
  else if name ∈ contents then .error (.fileAlreadyExists name)
  else if contents.keys.card < capacity.files then
    .ok (.created name, contents.insert name [])
  else .error .noAvailableSpace

/-- New contents must fit beside those of all other files. -/
def write (name : String) (data : List UInt8) : Except FileSystemError (FileAnswer × Contents) :=
  if name ∈ contents then
    if blocksFor data.length + blocks (contents.erase name) ≤ capacity.blocks then
      .ok (.written name, contents.insert name data)
    else .error .noAvailableSpace
  else .error (.fileNotFound name)

def read (name : String) : Except FileSystemError (FileAnswer × Contents) :=
  match contents.lookup name with
  | some bytes => .ok (.contents bytes, contents)
  | none => .error (.fileNotFound name)

def delete (name : String) : Except FileSystemError (FileAnswer × Contents) :=
  if name ∈ contents then .ok (.deleted name, contents.erase name)
  else .error (.fileNotFound name)

/-- The names of the files that are not the kernel's. -/
def userNames : Finset String :=
  contents.keys.filter fun name => isReserved name = false

def storeSwap (pid : Nat) (image : List UInt8) :
    Except FileSystemError (FileAnswer × Contents) :=
  if contents.keys.card < capacity.files ∧
      blocks contents + blocksFor image.length ≤ capacity.blocks then
    if swapName pid ∈ contents then .error (.fileAlreadyExists (swapName pid))
    else .ok (.stored, contents.insert (swapName pid) image)
  else .error .noAvailableSpace

def deleteSwap (pid : Nat) : Except FileSystemError (FileAnswer × Contents) :=
  match contents.lookup (swapName pid) with
  | some image => .ok (.fetched image, contents.erase (swapName pid))
  | none => .error (.noActiveSwap pid)

/-- Users reach only the names that are not empty and not the kernel's. -/
def ofUser (name : String) (outcome : Except FileSystemError (FileAnswer × Contents)) :
    Except FileSystemError (FileAnswer × Contents) :=
  if name = "" then .error (.invalidName name)
  else if isReserved name then .error (.reservedName name)
  else outcome

/-- The answer to an operation and the contents after it. -/
def step : FileOperation → Except FileSystemError (FileAnswer × Contents)
  | .serve .format => .ok (.formatted, ∅)
  | .serve (.create name) => ofUser name (create capacity contents name)
  | .serve (.write name data) =>
      ofUser name (write capacity contents name (Text.utf8Bytes data))
  | .serve (.read name) => ofUser name (read contents name)
  | .serve (.delete name) => ofUser name (delete contents name)
  | .serve .list => .ok (.listing (userNames contents).val, contents)
  | .storeSwap pid image => storeSwap capacity contents pid.toNat image
  | .deleteSwap pid => deleteSwap contents pid.toNat

/-- The answers to operations one after the other.  A refused operation changes nothing. -/
def answers (capacity : Capacity) :
    Contents → List FileOperation → List (Except FileSystemError FileAnswer)
  | _, [] => []
  | contents, operation :: rest =>
      match step capacity contents operation with
      | .ok (answer, next) => .ok answer :: answers capacity next rest
      | .error error => .error error :: answers capacity contents rest

end Contents

end Timeshare
