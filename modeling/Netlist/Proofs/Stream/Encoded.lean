import Mathlib.Data.List.TakeWhile
import Mathlib.Tactic.SplitIfs
import Netlist.Proofs.Stream.Characters

set_option autoImplicit false

namespace Netlist.Utf8

theorem take_bytes (bytes : List UInt8) (rest : List Read) :
    take bytes.length (bytes.map .byte ++ rest) = (.ok bytes, rest) := by
  induction bytes with
  | nil => rfl
  | cons b bytes ih =>
      rw [List.length_cons, take, List.map_cons, List.cons_append, nextByte]
      simp only [ih]

theorem decode_sequence {lead : UInt8} {bytes : List UInt8} {c : Char} (rest : List Read)
    (count : followers lead = some bytes.length) (spells : character lead bytes = .ok c) :
    decode ((lead :: bytes).map .byte ++ rest) = (.ok (some c), rest) := by
  rw [List.map_cons, List.cons_append, decode, nextByte]
  simp only [count, take_bytes, spells]
  rfl

section Bytes

variable {lead second : UInt8}

theorem followers_of_toNat {count : Nat}
    (fits : lead.toNat < 128 ∧ count = 0 ∨ 192 ≤ lead.toNat ∧ lead.toNat < 224 ∧ count = 1 ∨
      224 ≤ lead.toNat ∧ lead.toNat < 240 ∧ count = 2 ∨
      240 ≤ lead.toNat ∧ lead.toNat < 248 ∧ count = 3) :
    followers lead = some count := by
  simp only [followers, UInt8.lt_iff_toNat_lt]
  split_ifs <;> simp_all <;> omega

theorem admits_of_toNat (low : 128 ≤ second.toNat) (high : second.toNat < 192)
    (leads : 194 ≤ lead.toNat) (last : lead.toNat ≤ 244)
    (noLonger : lead.toNat = 224 -> 160 ≤ second.toNat)
    (noSurrogate : lead.toNat = 237 -> second.toNat < 160)
    (noLonger' : lead.toNat = 240 -> 144 ≤ second.toNat)
    (inside : lead.toNat = 244 -> second.toNat < 144) : admits lead second := by
  simp only [admits, isContinuation, Bool.and_eq_true, decide_eq_true_eq, UInt8.le_iff_toNat_le,
    UInt8.lt_iff_toNat_lt, ← UInt8.toNat_inj]
  refine ⟨⟨low, Nat.le_of_lt_succ high⟩, ?_⟩
  split_ifs <;> simp_all <;> omega

theorem character_eq_ok {rest : List UInt8} {c : Char} (admitted : admits lead second)
    (continues : ∀ b ∈ rest, isContinuation b)
    (value : codePoint lead (second :: rest) = c.toNat) :
    character lead (second :: rest) = .ok c := by
  have whole : continued lead (second :: rest) = (second :: rest).length := by
    rw [continued, if_pos admitted, List.takeWhile_eq_self_iff.mpr continues, Nat.add_comm]
    rfl
  rw [character, if_pos whole, value, Char.ofNat_toNat]

end Bytes

def continuation (value : Nat) : UInt8 :=
  .ofNat (value % 64 + 128)

theorem toNat_ofNat {value : Nat} (small : value < 256) : (UInt8.ofNat value).toNat = value :=
  UInt8.toNat_ofNat_of_lt' small

theorem toNat_continuation (value : Nat) : (continuation value).toNat = value % 64 + 128 :=
  toNat_ofNat (by omega)

theorem isContinuation_continuation (value : Nat) : isContinuation (continuation value) := by
  have byte := toNat_continuation value
  simp only [isContinuation, Bool.and_eq_true, decide_eq_true_eq, UInt8.le_iff_toNat_le, byte]
  exact ⟨Nat.le_add_left _ _, by show _ ≤ 191; omega⟩

section Lengths

variable {c : Char} {value : Nat} (same : c.toNat = value) (rest : List Read)

include same

theorem decode_one (small : value < 128) :
    decode ([UInt8.ofNat value].map .byte ++ rest) = (.ok (some c), rest) := by
  have lead := toNat_ofNat (show value < 256 by omega)
  -- a single byte is its own code point
  have point : codePoint (.ofNat value) [] = c.toNat := lead.trans same.symm
  refine decode_sequence rest (followers_of_toNat (by simp [lead, small])) ?_
  rw [character, point, Char.ofNat_toNat]
  rfl

theorem decode_two (low : 128 ≤ value) (high : value < 2048) :
    decode ([.ofNat (value / 64 % 32 + 192), continuation value].map .byte ++ rest) =
      (.ok (some c), rest) := by
  have lead := toNat_ofNat (show value / 64 % 32 + 192 < 256 by omega)
  have second := toNat_continuation value
  have point : codePoint (.ofNat (value / 64 % 32 + 192)) [continuation value] =
      64 * ((UInt8.ofNat (value / 64 % 32 + 192)).toNat % 32) + (continuation value).toNat % 64 :=
    rfl
  refine decode_sequence rest (followers_of_toNat ?_) (character_eq_ok ?_ (by simp) ?_)
  -- the lead byte is between 194 and 223, as no shorter sequence would do
  · exact .inr (.inl ⟨by omega, by omega, rfl⟩)
  · exact admits_of_toNat (by omega) (by omega) (by omega) (by omega) (by omega) (by omega)
      (by omega) (by omega)
  · rw [point]
    omega

theorem decode_three (low : 2048 ≤ value) (high : value < 65536)
    (noSurrogate : value < 55296 ∨ 57343 < value) :
    decode ([.ofNat (value / 4096 % 16 + 224), continuation (value / 64), continuation value].map
      .byte ++ rest) = (.ok (some c), rest) := by
  have lead := toNat_ofNat (show value / 4096 % 16 + 224 < 256 by omega)
  have second := toNat_continuation (value / 64)
  have third := toNat_continuation value
  have point : codePoint (.ofNat (value / 4096 % 16 + 224))
      [continuation (value / 64), continuation value] =
        64 * (64 * ((UInt8.ofNat (value / 4096 % 16 + 224)).toNat % 16) +
          (continuation (value / 64)).toNat % 64) + (continuation value).toNat % 64 := rfl
  refine decode_sequence rest (followers_of_toNat ?_) (character_eq_ok ?_ ?_ ?_)
  · exact .inr (.inr (.inl ⟨by omega, by omega, rfl⟩))
  · exact admits_of_toNat (by omega) (by omega) (by omega) (by omega) (by omega) (by omega)
      (by omega) (by omega)
  · simp [isContinuation_continuation]
  · rw [point]
    omega

theorem decode_four (low : 65536 ≤ value) (high : value < 1114112) :
    decode ([.ofNat (value / 262144 % 8 + 240), continuation (value / 4096),
      continuation (value / 64), continuation value].map .byte ++ rest) = (.ok (some c), rest) := by
  have lead := toNat_ofNat (show value / 262144 % 8 + 240 < 256 by omega)
  have second := toNat_continuation (value / 4096)
  have third := toNat_continuation (value / 64)
  have fourth := toNat_continuation value
  have point : codePoint (.ofNat (value / 262144 % 8 + 240))
      [continuation (value / 4096), continuation (value / 64), continuation value] =
        64 * (64 * (64 * ((UInt8.ofNat (value / 262144 % 8 + 240)).toNat % 8) +
          (continuation (value / 4096)).toNat % 64) + (continuation (value / 64)).toNat % 64) +
            (continuation value).toNat % 64 := rfl
  refine decode_sequence rest (followers_of_toNat ?_) (character_eq_ok ?_ ?_ ?_)
  · exact .inr (.inr (.inr ⟨by omega, by omega, rfl⟩))
  · exact admits_of_toNat (by omega) (by omega) (by omega) (by omega) (by omega) (by omega)
      (by omega) (by omega)
  · simp [isContinuation_continuation]
  · rw [point]
    omega

end Lengths

theorem decode_encoded (c : Char) (rest : List Read) :
    decode ((String.utf8EncodeChar c).map .byte ++ rest) = (.ok (some c), rest) := by
  -- no character is a surrogate, which the sequences of three bytes have to know
  have valid : c.val.toNat < 0xd800 ∨ 0xdfff < c.val.toNat ∧ c.val.toNat < 0x110000 := c.valid
  have same : c.toNat = c.val.toNat := rfl
  unfold String.utf8EncodeChar
  simp only
  split_ifs with one two three
  · exact decode_one same rest (by omega)
  · exact decode_two same rest (by omega) (by omega)
  · exact decode_three same rest (by omega) (by omega) (by omega)
  · exact decode_four same rest (by omega) (by omega)

theorem characters_encoded (chars : List Char) :
    characters ((chars.flatMap String.utf8EncodeChar).map .byte) = (chars, none) := by
  induction chars with
  | nil => exact characters_of_end rfl
  | cons c chars ih =>
      rw [List.flatMap_cons, List.map_append, characters_of_char (decode_encoded c _), ih]

theorem characters_of_delivers {script : List Read} {text : String}
    (delivers : Delivers script text.toUTF8.data.toList) :
    characters script = (text.toList, none) := by
  have bytes : text.toUTF8.data.toList = text.toList.flatMap String.utf8EncodeChar := by
    obtain ⟨chars, rfl⟩ : exists chars, text = String.ofList chars :=
      ⟨text.toList, String.ofList_toList.symm⟩
    rw [String.toUTF8_eq_toByteArray, String.toByteArray_ofList, String.toList_ofList,
      List.utf8Encode, List.toList_data_toByteArray]
  rw [Delivers, bytes] at delivers
  rw [← characters_steady, delivers, characters_encoded]

end Netlist.Utf8
