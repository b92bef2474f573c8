import Mathlib.Data.String.Basic
import Mathlib.Tactic.SplitIfs

/-!
Texts compared as their bytes. A character that is lesser than another one has the lesser bytes, and
no character's bytes begin another's, so the order of texts is the order of their bytes.
-/

namespace FinalGrades.Text

variable {a b : String} {c d : Char}

/-- The bytes of a text, as UTF-8. -/
def bytes (text : String) : List UInt8 := text.toByteArray.data.toList

theorem bytes_eq_flatMap (text : String) :
    bytes text = text.toList.flatMap String.utf8EncodeChar := by
  rw [bytes, ← String.ofList_toList (s := text), String.toByteArray_ofList, List.utf8Encode,
    List.toList_data_toByteArray, String.toList_ofList]

theorem byte_cons_lt {m n : Nat} {x y : List UInt8} (hn : n < 256) (hle : m ≤ n)
    (h : m = n → x < y) : UInt8.ofNat m :: x < UInt8.ofNat n :: y := by
  rcases Nat.lt_or_eq_of_le hle with hlt | rfl
  · refine .rel ?_
    rwa [UInt8.lt_iff_toNat_lt, UInt8.toNat_ofNat_of_lt' (Nat.lt_trans hlt hn),
      UInt8.toNat_ofNat_of_lt' hn]
  · exact .cons (h rfl)

theorem toNat_lt (c : Char) : c.val.toNat < 0x110000 := by
  rcases c.valid with h | h
  · exact Nat.lt_trans h (by decide)
  · exact h.2

theorem utf8EncodeChar_lt (h : c < d) (x y : List UInt8) :
    String.utf8EncodeChar c ++ x < String.utf8EncodeChar d ++ y := by
  have hc := toNat_lt c
  have hd := toNat_lt d
  have hlt : c.val.toNat < d.val.toNat := h
  unfold String.utf8EncodeChar
  dsimp only
  generalize c.val.toNat = m at *
  generalize d.val.toNat = n at *
  -- Equal bytes from the first to the last would make the characters equal.
  split_ifs <;> try omega
  all_goals refine byte_cons_lt (by omega) (by omega) fun _ => ?_
  all_goals try omega
  all_goals refine byte_cons_lt (by omega) (by omega) fun _ => ?_
  all_goals try omega
  all_goals refine byte_cons_lt (by omega) (by omega) fun _ => ?_
  all_goals try omega
  exact byte_cons_lt (by omega) (by omega) fun _ => by omega

theorem utf8EncodeChar_ne_nil (c : Char) : String.utf8EncodeChar c ≠ [] := by
  unfold String.utf8EncodeChar
  dsimp only
  split_ifs <;> exact List.cons_ne_nil _ _

theorem flatMap_lt {s t : List Char} (h : s < t) :
    s.flatMap String.utf8EncodeChar < t.flatMap String.utf8EncodeChar := by
  induction h with
  | @nil c rest =>
    obtain ⟨byte, more, hbytes⟩ := List.exists_cons_of_ne_nil (utf8EncodeChar_ne_nil c)
    rw [List.flatMap_cons, hbytes]
    exact .nil
  | cons _ ih =>
    rw [List.flatMap_cons, List.flatMap_cons]
    exact List.Lex.append_left _ ih _
  | rel h => exact utf8EncodeChar_lt h _ _

theorem bytes_lt (h : a < b) : bytes a < bytes b := by
  rw [bytes_eq_flatMap, bytes_eq_flatMap]
  exact flatMap_lt (String.lt_iff_toList_lt.mp h)

theorem map_bytes_lt {first second : List String} (h : first < second) :
    first.map bytes < second.map bytes := by
  induction h with
  | nil => exact .nil
  | cons _ ih => exact .cons ih
  | rel h => exact .rel (bytes_lt h)

/-- Names one after the other, compared as their bytes. -/
theorem map_bytes_lt_iff {first second : List String} :
    first.map bytes < second.map bytes ↔ first < second := by
  refine ⟨fun h => ?_, map_bytes_lt⟩
  rcases lt_trichotomy first second with hlt | rfl | hgt
  · exact hlt
  · exact absurd h (List.lt_irrefl _)
  · exact absurd h (List.lt_asymm (map_bytes_lt hgt))

end FinalGrades.Text
