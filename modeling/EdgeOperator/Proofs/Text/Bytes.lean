import Mathlib.Data.Char
import Mathlib.Data.List.Lex
import Mathlib.Order.Monotone.Basic

set_option autoImplicit false

/-! # The order of texts is that of their bytes

Texts are compared character by character. In UTF-8 a greater character has the greater bytes: a
longer form starts with a greater byte, and within one length the bytes are digits of the number of
the character. So texts are in the order of their bytes (`Text.bytes_lt_bytes`). -/

namespace EdgeOperator.Text

/-- The bytes of a text. -/
def bytes (text : String) : List Nat :=
  text.toUTF8.data.toList.map UInt8.toNat

/-- The bytes of a character. -/
def charBytes (c : Char) : List Nat :=
  (String.utf8EncodeChar c).map UInt8.toNat

theorem bytes_eq_flatMap (text : String) : bytes text = text.toList.flatMap charBytes := by
  unfold bytes charBytes
  rw [String.toUTF8_eq_toByteArray, ← String.utf8Encode_toList, List.utf8Encode,
    List.toList_data_toByteArray, List.map_flatMap]

theorem toNat_lt_of_char (c : Char) : c.val.toNat < 0x110000 := by
  rcases c.valid with h | ⟨_, h⟩
  · exact lt_trans h (by decide)
  · exact h

/-- The lesser of two numbers has the lesser digit to the base 64 where they first differ. -/
theorem digits_lt {m n : Nat} (h : m < n) :
    m / 262144 < n / 262144 ∨ m / 262144 = n / 262144 ∧
      (m / 4096 % 64 < n / 4096 % 64 ∨ m / 4096 % 64 = n / 4096 % 64 ∧
        (m / 64 % 64 < n / 64 % 64 ∨ m / 64 % 64 = n / 64 % 64 ∧ m % 64 < n % 64)) := by
  have hdigit {m n : Nat} (h : m < n) :
      m / 64 < n / 64 ∨ m / 64 = n / 64 ∧ m % 64 < n % 64 := by omega
  rcases hdigit h with hlt | ⟨heq, hlast⟩
  · rcases hdigit hlt with hlt | ⟨heq, hlast⟩
    · rcases hdigit hlt with hlt | ⟨heq, hlast⟩ <;> omega
    · omega
  · omega

/-- Whatever follows, a lesser character has the lesser bytes. -/
theorem charBytes_append_lt {a b : Char} (h : a < b) (after after' : List Nat) :
    charBytes a ++ after < charBytes b ++ after' := by
  have hlt : a.val.toNat < b.val.toNat := h
  have hbound := toNat_lt_of_char b
  unfold charBytes String.utf8EncodeChar
  generalize a.val.toNat = m at hlt
  generalize b.val.toNat = n at hlt hbound
  dsimp only
  split_ifs <;>
    simp only [List.map_cons, List.map_nil, List.cons_append, List.nil_append,
      List.cons_lt_cons_iff, UInt8.toNat_ofNat', Nat.reducePow]
  -- where both take four bytes, the first digit that differs decides
  on_goal -1 => rcases digits_lt hlt with h | ⟨_, h | ⟨_, h | ⟨_, h⟩⟩⟩ <;> omega
  all_goals omega

theorem flatMap_charBytes_lt {a b : List Char} (h : a < b) :
    a.flatMap charBytes < b.flatMap charBytes := by
  induction a generalizing b with
  | nil =>
    cases b with
    | nil => exact absurd h (List.not_lt_nil _)
    | cons c rest =>
      rw [List.flatMap_cons, List.flatMap_nil]
      cases hbytes : charBytes c with
      | nil => simp [charBytes, String.utf8EncodeChar_ne_nil] at hbytes
      | cons byte bytes => exact List.nil_lt_cons ..
  | cons c rest ih =>
    cases b with
    | nil => exact absurd h (List.not_lt_nil _)
    | cons d rest' =>
      rw [List.flatMap_cons, List.flatMap_cons]
      rcases List.cons_lt_cons_iff.1 h with hlt | ⟨rfl, hrest⟩
      · exact charBytes_append_lt hlt _ _
      · exact List.append_left_lt (ih hrest)

/-- Texts are in the order of their bytes. -/
theorem bytes_lt_bytes {a b : String} : bytes a < bytes b ↔ a < b := by
  rw [bytes_eq_flatMap, bytes_eq_flatMap]
  have hmono : StrictMono fun text : List Char => text.flatMap charBytes :=
    fun _ _ => flatMap_charBytes_lt
  exact hmono.lt_iff_lt

end EdgeOperator.Text
