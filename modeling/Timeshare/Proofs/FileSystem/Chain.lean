import Timeshare.Proofs.FileSystem.Layout

/-!
# Chains of content blocks

A chain is linked when each block points to the next one and the last to itself, and packed when
every block but the last is full and the last holds something.  `extendChain` writes such a chain,
whose blocks hold the given stretches one after the other.
-/

namespace Timeshare

namespace Chain

/-- Each block points to the next one and the last block to itself. -/
def Linked : List Block → Prop
  | [] => True
  | [last] => last.pointer = last.location
  | block :: next :: rest => block.pointer = next.location ∧ Linked (next :: rest)

/-- Every piece but the last fills a block, and the last is not empty. -/
def Packed : List (List UInt8) → Prop
  | [] => True
  | [last] => last ≠ []
  | piece :: next :: rest => piece.length = contentSize ∧ Packed (next :: rest)

/-- The last block of a chain may give way to a chain that starts at its place. -/
theorem Linked.replaceLast {front rest : List Block} {old new : Block}
    (linked : Linked (front ++ [old])) (linkedNew : Linked (new :: rest))
    (place : new.location = old.location) : Linked (front ++ new :: rest) := by
  induction front with
  | nil => exact linkedNew
  | cons block front hypothesis =>
      cases front with
      | nil => exact ⟨linked.1.trans place.symm, linkedNew⟩
      | cons following front => exact ⟨linked.1, hypothesis linked.2⟩

theorem Packed.replaceLast {front rest : List (List UInt8)} {old new : List UInt8}
    (packed : Packed (front ++ [old])) (packedNew : Packed (new :: rest)) :
    Packed (front ++ new :: rest) := by
  induction front with
  | nil => exact packedNew
  | cons piece front hypothesis =>
      cases front with
      | nil => exact ⟨packed.1, packedNew⟩
      | cons following front => exact ⟨packed.1, hypothesis packed.2⟩

theorem Linked.last {front : List Block} {last : Block} (linked : Linked (front ++ [last])) :
    last.pointer = last.location := by
  induction front with
  | nil => exact linked
  | cons block front hypothesis =>
      cases front with
      | nil => exact linked.2
      | cons following front => exact hypothesis linked.2

theorem Packed.last {front : List (List UInt8)} {last : List UInt8}
    (packed : Packed (front ++ [last])) : last ≠ [] := by
  induction front with
  | nil => exact packed
  | cons piece front hypothesis =>
      cases front with
      | nil => exact packed.2
      | cons following front => exact hypothesis packed.2

theorem Packed.full {front : List (List UInt8)} {last : List UInt8}
    (packed : Packed (front ++ [last])) : ∀ piece ∈ front, piece.length = contentSize := by
  induction front with
  | nil => simp
  | cons piece front hypothesis =>
      intro other member
      cases front with
      | nil =>
          rcases List.mem_singleton.mp member with rfl
          exact packed.1
      | cons following front =>
          rcases List.mem_cons.mp member with rfl | inFront
          · exact packed.1
          · exact hypothesis packed.2 other inFront

theorem Packed.length_flatten {front : List (List UInt8)} {last : List UInt8}
    (packed : Packed (front ++ [last])) :
    (front ++ [last]).flatten.length = contentSize * front.length + last.length := by
  have full := packed.full
  rw [List.flatten_concat, List.length_append, List.length_flatten, Nat.add_right_cancel_iff]
  rw [List.map_congr_left full, List.map_const', List.sum_replicate_nat, Nat.mul_comm]

/-- A packed chain has as many blocks as its contents need. -/
theorem Packed.length_eq {pieces : List (List UInt8)} (packed : Packed pieces)
    (fits : ∀ piece ∈ pieces, piece.length ≤ contentSize) :
    pieces.length = blocksFor pieces.flatten.length := by
  rcases List.eq_nil_or_concat pieces with rfl | ⟨front, last, rfl⟩
  · rfl
  · rw [List.concat_eq_append] at packed fits ⊢
    have positive := List.length_pos_iff.mpr packed.last
    have small := fits last (by simp)
    rw [packed.length_flatten, List.length_append, List.length_singleton]
    simp only [blocksFor, contentSize] at small ⊢
    omega

theorem stretches_flatten {count : Nat} {data : List UInt8} (enough : blocksFor data.length ≤ count) :
    (stretches count data).flatten = data := by
  induction count generalizing data with
  | zero =>
      simp only [blocksFor, contentSize] at enough
      have none : data = [] := List.eq_nil_of_length_eq_zero (by omega)
      rw [none, stretches, List.flatten_nil]
  | succ count hypothesis =>
      rw [stretches, List.flatten_cons, hypothesis, List.take_append_drop]
      simp only [blocksFor, contentSize, List.length_drop] at enough ⊢
      omega

theorem stretches_packed {count : Nat} {data : List UInt8} (given : data ≠ [])
    (counted : count = blocksFor data.length) : Packed (stretches count data) := by
  induction count generalizing data with
  | zero => trivial
  | succ count hypothesis =>
      have positive := List.length_pos_iff.mpr given
      rw [blocksFor_pos positive, Nat.add_right_cancel_iff] at counted
      by_cases fits : data.length ≤ contentSize
      · have single : count = 0 := by
          rw [counted, Nat.sub_eq_zero_of_le fits]
          rfl
        subst single
        simp [stretches, Packed, given, contentSize]
      · have remaining : data.drop contentSize ≠ [] := by
          rw [ne_eq, List.drop_eq_nil_iff]
          exact fits
        have packed := hypothesis remaining (by rw [counted, List.length_drop])
        cases count with
        | zero =>
            have beyond : 0 < data.length - contentSize := by omega
            have := blocksFor_pos beyond
            omega
        | succ count =>
            refine ⟨?_, packed⟩
            rw [List.length_take]
            omega

/-- What is appended behind a block is packed again. -/
theorem fill_packed {block : Block} {data : List UInt8} (given : data ≠ []) :
    Packed ((block.fill data).payload ::
      stretches (blocksFor (block.overflow data).length) (block.overflow data)) := by
  by_cases fits : block.overflow data = []
  · rw [fits]
    intro empty
    have positive := block.fill_length_pos given
    rw [← Block.length_payload, empty] at positive
    exact Nat.lt_irrefl 0 positive
  · have packed := stretches_packed fits rfl
    have positive := List.length_pos_iff.mpr fits
    rw [blocksFor_pos positive] at packed ⊢
    exact ⟨by rw [Block.length_payload, block.fill_length_of_overflow data fits], packed⟩

theorem length_le_of_mem_stretches {count : Nat} {data piece : List UInt8}
    (member : piece ∈ stretches count data) : piece.length ≤ contentSize := by
  induction count generalizing data with
  | zero => simp [stretches] at member
  | succ count hypothesis =>
      rcases List.mem_cons.mp member with rfl | inRest
      · rw [List.length_take]
        exact Nat.min_le_left _ _
      · exact hypothesis inRest

end Chain

namespace FileSystem.Accounts

open Chain

/-- Where `extendChain` writes `current` over a block in use, there is afterwards a linked chain
that starts at its place and holds its payload and the stretches. -/
theorem extendChain {files : FileSystem} {inUse : List Block} {old : Block}
    (accounts : files.Accounts (old :: inUse)) (current : Block) (pieces : List (List UInt8))
    (place : current.location = old.location) (terminus : current.pointer = current.location)
    (occupied : current.state = .occupied)
    (site : current.location.inDirectoryTrack = false)
    (fits : ∀ piece ∈ pieces, piece.length ≤ contentSize)
    (available : pieces.length ≤ files.freeContent.size) :
    ∃ head rest next, perform (extendChain current pieces) files = (.ok ⟨⟩, next) ∧
      next.Accounts ((head :: rest) ++ inUse) ∧ files.Keeps next ∧
      next.freeContent.elements = files.freeContent.elements.drop pieces.length ∧
      head.location = current.location ∧ Linked (head :: rest) ∧
      (head :: rest).map Block.payload = current.payload :: pieces ∧
      ∀ block ∈ head :: rest,
        block.state = .occupied ∧ block.location.inDirectoryTrack = false := by
  induction pieces generalizing files inUse old current with
  | nil =>
      rcases accounts.writeBlock current place with ⟨next, written, accounted, keeps, _, content⟩
      refine ⟨current, [], next, written, accounted, keeps, by rw [content]; rfl, rfl, terminus,
        rfl, ?_⟩
      intro block member
      rcases List.mem_singleton.mp member with rfl
      exact ⟨occupied, site⟩
  | cons piece pieces hypothesis =>
      obtain ⟨location, claimed, claim, accounted, keeps, newSite, taken⟩ :=
        accounts.claimContentBlock (by rw [List.length_cons] at available; omega)
      have enough : pieces.length ≤ claimed.freeContent.size := by
        rw [OrderedSet.size_eq_length, taken, List.length_cons, List.length_cons] at available
        exact Nat.le_of_succ_le_succ available
      have order : (Block.available location :: old :: inUse).Perm
          (old :: Block.available location :: inUse) := List.Perm.swap ..
      rcases (accounted.perm order).writeBlock { current with pointer := location } place with
        ⟨linked, write, accountedLinked, keepsLinked, _, content⟩
      have swapped : ({ current with pointer := location } :: Block.available location :: inUse).Perm
          (Block.available location :: { current with pointer := location } :: inUse) :=
        List.Perm.swap ..
      obtain ⟨head, rest, next, extended, accountedNext, keepsNext, left, start, chained,
          payloads, states⟩ :=
        hypothesis (accountedLinked.perm swapped) ((Block.occupied location).fill piece)
          (by simp) (by simp) (by simp) newSite
          (fun other member => fits other (List.mem_cons_of_mem _ member))
          (content.symm ▸ enough)
      have payload : ((Block.occupied location).fill piece).payload = piece := by
        rw [Block.fill_payload, Block.occupied_payload, List.nil_append, List.take_of_length_le]
        exact fits piece List.mem_cons_self
      refine ⟨{ current with pointer := location }, head :: rest, next, ?_, accountedNext.perm ?_,
        (keeps.trans keepsLinked).trans keepsNext, ?_, rfl, ⟨start.symm, chained⟩, ?_, ?_⟩
      · rw [FileSystem.extendChain, perform_bind_ok _ claim, Block.occupied_location,
          perform_bind_ok _ write, extended]
      · exact List.perm_middle
      · rw [left, content, taken, List.length_cons, List.drop_succ_cons]
      · rw [List.map_cons, payloads, payload]
        rfl
      · intro block member
        rcases List.mem_cons.mp member with rfl | inRest
        · exact ⟨occupied, site⟩
        · exact states block inRest

/-- Data written behind the payload of `tail`, which takes the place of a block in use. -/
theorem extendTail {files : FileSystem} {others : List Block} {old : Block}
    {data : List UInt8} (accounts : files.Accounts (old :: others)) (tail : Block)
    (place : tail.location = old.location) (terminus : tail.pointer = tail.location)
    (occupied : tail.state = .occupied) (site : tail.location.inDirectoryTrack = false)
    (given : data ≠ [])
    (available : blocksFor (data.length - tail.room) ≤ files.freeContent.size) :
    ∃ head rest next,
      perform (FileSystem.extendChain (tail.fill data)
        (stretches (blocksFor (tail.overflow data).length) (tail.overflow data))) files =
          (.ok ⟨⟩, next) ∧
      next.Accounts ((head :: rest) ++ others) ∧ files.Keeps next ∧
      head.location = tail.location ∧ Linked (head :: rest) ∧
      Packed ((head :: rest).map Block.payload) ∧
      (head :: rest).flatMap Block.payload = tail.payload ++ data ∧
      (∀ block ∈ head :: rest,
        block.state = .occupied ∧ block.location.inDirectoryTrack = false) ∧
      next.freeContent.elements =
        files.freeContent.elements.drop (blocksFor (data.length - tail.room)) := by
  obtain ⟨head, rest, next, extended, accounted, keeps, left, start, linked, payloads, states⟩ :=
    accounts.extendChain (tail.fill data)
      (stretches (blocksFor (tail.overflow data).length) (tail.overflow data))
      (by rw [Block.fill_location, place])
      (by simp only [Block.fill_pointer, Block.fill_location, terminus])
      (by simp only [Block.fill_state, occupied]) (by simp only [Block.fill_location, site])
      (fun _ member => length_le_of_mem_stretches member)
      (by simpa only [length_stretches, Block.overflow, List.length_drop] using available)
  refine ⟨head, rest, next, extended, accounted, keeps, start.trans (tail.fill_location data),
    linked, ?_, ?_, states, ?_⟩
  · rw [payloads]
    exact fill_packed given
  · rw [List.flatMap_def, payloads, List.flatten_cons, stretches_flatten (Nat.le_refl _),
      Block.fill_payload_append_overflow]
  · rw [left, length_stretches, Block.overflow, List.length_drop]

end FileSystem.Accounts

end Timeshare
