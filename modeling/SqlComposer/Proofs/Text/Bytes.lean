import Mathlib.Data.List.Lex
import Mathlib.Tactic.SplitIfs
import SqlComposer.Text.Utf8

/-!
# The order of bytes

Texts compare like their bytes.  Of two characters the one with the lesser code has the lesser
encoding, at the first byte in which the encodings differ (`Text.encoded_lt`), and so the text
that comes first in the order of characters also comes first in the order of bytes
(`Text.bytes_lt_bytes`).
-/

namespace SqlComposer

set_option autoImplicit false

namespace Text

/-! ## The order of encodings -/

theorem octet_lt_iff {first second : Nat} :
    UInt8.ofNat first < UInt8.ofNat second ↔ first % 256 < second % 256 := by
  rw [UInt8.lt_iff_toNat_lt, UInt8.toNat_ofNat', UInt8.toNat_ofNat']

theorem octet_eq_iff {first second : Nat} :
    UInt8.ofNat first = UInt8.ofNat second ↔ first % 256 = second % 256 := by
  rw [← UInt8.toNat_inj, UInt8.toNat_ofNat', UInt8.toNat_ofNat']

/-- Of two characters the lesser one has the lesser encoding, whatever stands behind them. -/
theorem encoded_lt {first second : Char} (less : first < second) (rest others : List UInt8) :
    String.utf8EncodeChar first ++ rest < String.utf8EncodeChar second ++ others := by
  have codes : first.val.toNat < second.val.toNat := less
  have bound := code_lt second
  -- All bytes but the first hold six bits each, so the codes are compared by quotients of quotients.
  have twelveBits : ∀ code : Nat, code / 4096 = code / 64 / 64 := by
    intro code
    omega
  have eighteenBits : ∀ code : Nat, code / 262144 = code / 64 / 64 / 64 := by
    intro code
    omega
  unfold String.utf8EncodeChar
  generalize first.val.toNat = code at codes ⊢
  generalize second.val.toNat = greater at codes bound ⊢
  dsimp only
  rw [twelveBits, twelveBits, eighteenBits, eighteenBits]
  split_ifs <;>
    simp only [List.cons_append, List.cons_lt_cons_iff, octet_lt_iff, octet_eq_iff] <;> omega

/-- A lesser text has lesser bytes. -/
theorem bytes_lt_bytes {first second : Text} (less : first < second) :
    bytes first < bytes second := by
  unfold bytes
  induction first generalizing second with
  | nil =>
      cases second with
      | nil => exact absurd less (List.lt_irrefl [])
      | cons character rest =>
          rw [List.flatMap_nil, List.flatMap_cons]
          cases encoded : String.utf8EncodeChar character with
          | nil => exact absurd encoded String.utf8EncodeChar_ne_nil
          | cons octet octets => exact List.nil_lt_cons octet _
  | cons character rest ih =>
      cases second with
      | nil => exact absurd less (List.not_lt_nil _)
      | cons other others =>
          rw [List.flatMap_cons, List.flatMap_cons]
          rcases List.cons_lt_cons_iff.mp less with lesser | ⟨rfl, later⟩
          · exact encoded_lt lesser _ _
          · exact List.append_left_lt (ih later)

end Text

end SqlComposer
