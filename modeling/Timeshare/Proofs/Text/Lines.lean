import Timeshare.Proofs.Text
import Timeshare.Text.Whitespace

/-!
# Lines of text and of bytes

No part of a longer character looks like a line feed.  So it is the same to split a text at its
line feeds, or its bytes at theirs.
-/

namespace Timeshare.Text

theorem lineFeed_ne_or (byte : UInt8) {lead : UInt8} (large : 10 < lead.toNat) :
    (0x0A : UInt8) ≠ byte ||| lead := by
  intro same
  have bound : lead.toNat ≤ (byte ||| lead).toNat := by
    rw [UInt8.toNat_or]
    exact Nat.right_le_or
  rw [← same] at bound
  exact absurd large (Nat.not_lt.mpr bound)

/-- Each byte of a longer character has its leading bit set. -/
theorem lineFeed_mem_utf8EncodeChar {c : Char} (found : 0x0A ∈ String.utf8EncodeChar c) :
    c = '\n' := by
  rw [String.utf8EncodeChar_eq_utf8EncodeCharFast, String.utf8EncodeCharFast] at found
  by_cases ascii : c.val ≤ 127
  · rw [if_pos ascii, List.mem_singleton] at found
    have value := congrArg UInt8.toNat found
    have small : c.val.toNat < 2 ^ 8 :=
      Nat.lt_of_le_of_lt (UInt32.le_iff_toNat_le.mp ascii) (by decide)
    rw [UInt32.toNat_toUInt8, Nat.mod_eq_of_lt small] at value
    exact Char.ext (UInt32.toNat_inj.mp value.symm)
  · exfalso
    rw [if_neg ascii] at found
    split at found
    · simp [lineFeed_ne_or] at found
    · split at found
      · simp [lineFeed_ne_or] at found
      · simp [lineFeed_ne_or] at found

theorem utf8EncodeChar_lineFeed : String.utf8EncodeChar '\n' = [0x0A] := by
  decide

theorem splitOnP_append_of_forall {α : Type} {isSeparator : α → Bool} {first : List α}
    (solid : ∀ item ∈ first, isSeparator item = false) (rest : List α) :
    (first ++ rest).splitOnP isSeparator =
      (rest.splitOnP isSeparator).modifyHead (first ++ ·) := by
  induction first with
  | nil => exact (congrFun List.modifyHead_id (rest.splitOnP isSeparator)).symm
  | cons item first hypothesis =>
      rw [List.cons_append, List.splitOnP_cons_eq_if_modifyHead,
        if_neg (by simp [solid item List.mem_cons_self]),
        hypothesis fun other member => solid other (List.mem_cons_of_mem item member),
        List.modifyHead_modifyHead]
      rfl

/-- The bytes between line feeds are the bytes of the text between line feeds. -/
theorem splitOnP_utf8Bytes (text : String) :
    ((utf8Bytes text).splitOnP fun byte => byte == 0x0A) =
      (lineFeedPieces text).map utf8Bytes := by
  have encoded : utf8Bytes ∘ String.ofList = List.flatMap String.utf8EncodeChar := by
    funext characters
    rw [Function.comp_apply, utf8Bytes_eq_flatMap, String.toList_ofList]
  rw [lineFeedPieces, List.map_map, encoded, utf8Bytes_eq_flatMap]
  induction text.toList with
  | nil => rfl
  | cons c rest hypothesis =>
      rw [List.flatMap_cons, List.splitOnP_cons_eq_if_modifyHead]
      split
      · rename_i lineFeed
        rw [beq_iff_eq] at lineFeed
        rw [lineFeed, utf8EncodeChar_lineFeed, List.singleton_append,
          List.splitOnP_cons_eq_if_modifyHead, if_pos (beq_self_eq_true _), hypothesis,
          List.map_cons, List.flatMap_nil]
      · rename_i other
        rw [beq_iff_eq] at other
        rw [splitOnP_append_of_forall, hypothesis]
        · cases rest.splitOnP fun c => c == '\n' with
          | nil => rfl
          | cons line lines => rfl
        · intro byte member
          rw [beq_eq_false_iff_ne]
          rintro rfl
          exact other (lineFeed_mem_utf8EncodeChar member)

theorem solid_of_whole {line : List Char} (whole : '\n' ∉ line) :
    ∀ c ∈ line, (c == '\n') = false :=
  fun _ member => beq_eq_false_iff_ne.mpr fun lineFeed => whole (lineFeed ▸ member)

theorem lineFeedPieces_of_whole {line : List Char} (whole : '\n' ∉ line) :
    lineFeedPieces (String.ofList line) = [String.ofList line] := by
  rw [lineFeedPieces, String.toList_ofList, List.splitOnP_eq_singleton (solid_of_whole whole)]
  rfl

theorem lineFeedPieces_append_cons {line : List Char} (whole : '\n' ∉ line) (rest : List Char) :
    lineFeedPieces (String.ofList (line ++ '\n' :: rest)) =
      String.ofList line :: lineFeedPieces (String.ofList rest) := by
  rw [lineFeedPieces, lineFeedPieces, String.toList_ofList, String.toList_ofList,
    List.splitOnP_append_cons_of_forall_mem (solid_of_whole whole) '\n' (beq_self_eq_true _)]
  rfl

/-! ## Pieces between line feeds -/

theorem lineFeedPieces_ne_nil (text : String) : lineFeedPieces text ≠ [] := by
  rw [lineFeedPieces, Ne, List.map_eq_nil_iff]
  exact List.splitOnP_ne_nil _ _

/-- The pieces with a line feed between each two are the text. -/
theorem intercalate_lineFeedPieces (text : String) :
    "\n".intercalate (lineFeedPieces text) = text := by
  rw [← String.toList_inj, String.toList_intercalate, lineFeedPieces, List.map_map,
    ← List.splitOn_eq_splitOnP]
  have unchanged : String.toList ∘ String.ofList = id := by
    funext characters
    exact String.toList_ofList
  rw [unchanged, List.map_id]
  exact List.intercalate_splitOn '\n'

/-- Text that is not empty when it is split at its line feeds. -/
theorem lineFeedPieces_intercalate {pieces : List String} (any : pieces ≠ [])
    (whole : ∀ piece ∈ pieces, '\n' ∉ piece.toList) :
    lineFeedPieces ("\n".intercalate pieces) = pieces := by
  have characters : ∀ line ∈ pieces.map String.toList, '\n' ∉ line := by simpa using whole
  have split := List.splitOn_intercalate '\n' characters (by simpa using any)
  rw [lineFeedPieces, ← List.splitOn_eq_splitOnP, String.toList_intercalate]
  exact (congrArg (List.map String.ofList) split).trans (by simp)

theorem whole_of_mem_lineFeedPieces {text piece : String} (member : piece ∈ lineFeedPieces text) :
    '\n' ∉ piece.toList := by
  rw [lineFeedPieces] at member
  generalize text.toList = characters at member
  rcases List.mem_map.mp member with ⟨line, listed, rfl⟩
  rw [String.toList_ofList]
  clear member
  induction characters generalizing line with
  | nil =>
      rw [List.splitOnP_nil, List.mem_singleton] at listed
      simp [listed]
  | cons c rest hypothesis =>
      rw [List.splitOnP_cons_eq_if_modifyHead] at listed
      split at listed
      · rcases List.mem_cons.mp listed with rfl | later
        · simp
        · exact hypothesis line later
      · rename_i other
        cases pieces : rest.splitOnP fun c => c == '\n' with
        | nil => exact absurd pieces (List.splitOnP_ne_nil _ rest)
        | cons first others =>
            rw [pieces] at hypothesis listed
            rcases List.mem_cons.mp listed with rfl | later
            · have whole := hypothesis first List.mem_cons_self
              simp only [List.mem_cons, not_or]
              exact ⟨fun same => other (beq_iff_eq.mpr same.symm), whole⟩
            · exact hypothesis line (List.mem_cons_of_mem first later)

theorem splitOnP_append {α : Type} {isSeparator : α → Bool} {first last : List α}
    {pieces : List (List α)} (split : first.splitOnP isSeparator = pieces ++ [last])
    (rest : List α) :
    (first ++ rest).splitOnP isSeparator =
      pieces ++ (rest.splitOnP isSeparator).modifyHead (last ++ ·) := by
  induction first generalizing pieces last with
  | nil =>
      rw [List.splitOnP_nil] at split
      rcases List.append_eq_singleton_iff.mp split.symm with ⟨rfl, same⟩ | ⟨_, none⟩
      · rw [List.singleton_inj.mp same]
        exact (congrFun List.modifyHead_id (rest.splitOnP isSeparator)).symm
      · simp at none
  | cons item first hypothesis =>
      rw [List.splitOnP_cons_eq_if_modifyHead] at split
      rw [List.cons_append, List.splitOnP_cons_eq_if_modifyHead]
      cases before : first.splitOnP isSeparator with
      | nil => exact absurd before (List.splitOnP_ne_nil _ first)
      | cons head tail =>
          rw [before] at hypothesis split
          split
          · rename_i separates
            rw [if_pos separates] at split
            -- A separator closes an empty piece, so the last piece is one of the later ones.
            cases pieces with
            | nil => cases split
            | cons piece pieces =>
                rcases List.cons.inj split with ⟨rfl, later⟩
                rw [hypothesis later, List.cons_append]
          · rename_i solid
            rw [if_neg solid, List.modifyHead_cons] at split
            cases pieces with
            | nil =>
                rcases List.cons.inj split with ⟨rfl, rfl⟩
                have alone : [head] = [] ++ [head] := rfl
                rw [hypothesis alone, List.nil_append, List.nil_append, List.modifyHead_modifyHead]
                rfl
            | cons piece pieces =>
                rcases List.cons.inj split with ⟨rfl, rfl⟩
                have listed : head :: (pieces ++ [last]) = (head :: pieces) ++ [last] := rfl
                rw [hypothesis listed]
                rfl

/-- Text that goes on lengthens the last piece by its first one. -/
theorem lineFeedPieces_append {first last : String} {pieces : List String}
    (split : lineFeedPieces first = pieces ++ [last]) (rest : String) :
    lineFeedPieces (first ++ rest) = pieces ++ (lineFeedPieces rest).modifyHead (last ++ ·) := by
  have characters : (first.toList.splitOnP fun c => c == '\n') =
      pieces.map String.toList ++ [last.toList] := by
    have mapped := congrArg (List.map String.toList) split
    simpa [lineFeedPieces] using mapped
  rw [lineFeedPieces, String.toList_append, splitOnP_append characters, List.map_append,
    List.map_map, lineFeedPieces]
  cases rest.toList.splitOnP fun c => c == '\n' with
  | nil => simp [Function.comp_def]
  | cons piece others => simp [Function.comp_def, String.ofList_append]

end Timeshare.Text
