import Netlist.Proofs.Stream.Encoded

set_option autoImplicit false

namespace Netlist.Utf8

def reads (bytes : List UInt8) (failure : Option Fault) : List Read :=
  bytes.map .byte ++ failure.toList.map .failed

section Taking

variable {bytes : List UInt8} {failure : Option Fault} {count : Nat}

theorem nextByte_reads_nil (lasting : ∀ fault ∈ failure, fault.kind ≠ .interrupted) :
    nextByte (reads [] failure) =
      (match failure with | none => .ok none | some fault => .error fault, []) := by
  cases failure with
  | none => rfl
  | some fault => exact if_neg (lasting fault rfl)

theorem take_reads (enough : count ≤ bytes.length) :
    take count (reads bytes failure) =
      (.ok (bytes.take count), reads (bytes.drop count) failure) := by
  have front := take_bytes (bytes.take count) (reads (bytes.drop count) failure)
  rwa [List.length_take_of_le enough, reads, ← List.append_assoc, ← List.map_append,
    List.take_append_drop] at front

theorem take_reads_of_lt (short : bytes.length < count)
    (lasting : ∀ fault ∈ failure, fault.kind ≠ .interrupted) :
    exists left, take count (reads bytes failure) = (.error (failure.getD .truncated), left) := by
  induction bytes generalizing count with
  | nil =>
      obtain ⟨count, rfl⟩ := Nat.exists_eq_succ_of_ne_zero (Nat.ne_zero_of_lt short)
      rw [take, nextByte_reads_nil lasting]
      cases failure with
      | none => exact ⟨[], rfl⟩
      | some fault => exact ⟨[], rfl⟩
  | cons b bytes ih =>
      obtain ⟨count, rfl⟩ := Nat.exists_eq_succ_of_ne_zero (Nat.ne_zero_of_lt short)
      obtain ⟨left, failed⟩ := ih (Nat.lt_of_succ_lt_succ short)
      refine ⟨left, ?_⟩
      rw [reads, List.map_cons, List.cons_append, take, nextByte, ← reads]
      simp only [failed]

end Taking

/-- Bytes that a lead byte admits behind it, as far as they go. -/
def Follows (lead : UInt8) : List UInt8 -> Prop
  | [] => True
  | second :: rest => admits lead second ∧ ∀ b ∈ rest, isContinuation b

section Follows

variable {lead second : UInt8} {bytes front : List UInt8} {count : Nat}

theorem Follows.of_isPrefix (follows : Follows lead bytes) (isPrefix : front.IsPrefix bytes) :
    Follows lead front := by
  obtain ⟨more, rfl⟩ := isPrefix
  cases front with
  | nil => trivial
  | cons second rest =>
      exact ⟨follows.1, fun b member => follows.2 b (List.mem_append_left _ member)⟩

theorem follows_take_continued (lead : UInt8) (bytes : List UInt8) :
    Follows lead (bytes.take (continued lead bytes)) := by
  cases bytes with
  | nil => trivial
  | cons second rest =>
      rw [continued]
      by_cases admitted : admits lead second
      · have longest := List.prefix_iff_eq_take.mp (List.takeWhile_prefix isContinuation (l := rest))
        rw [if_pos admitted, Nat.add_comm, List.take_succ_cons, ← longest]
        exact ⟨admitted, fun b => List.mem_takeWhile_imp⟩
      · rw [if_neg admitted]
        trivial

theorem length_le_continued (follows : Follows lead front) (isPrefix : front.IsPrefix bytes) :
    front.length ≤ continued lead bytes := by
  obtain ⟨more, rfl⟩ := isPrefix
  cases front with
  | nil => exact Nat.zero_le _
  | cons second rest =>
      obtain ⟨admitted, continues⟩ := follows
      rw [List.cons_append, continued, if_pos admitted, List.takeWhile_append_of_pos continues,
        List.length_append, List.length_cons]
      omega

theorem continued_le_length (lead : UInt8) (bytes : List UInt8) :
    continued lead bytes ≤ bytes.length := by
  cases bytes with
  | nil => exact Nat.le_refl 0
  | cons second rest =>
      have shorter := (List.takeWhile_prefix isContinuation (l := rest)).length_le
      rw [continued, List.length_cons]
      split_ifs <;> omega

theorem continued_eq_length_iff : continued lead bytes = bytes.length ↔ Follows lead bytes := by
  constructor
  · intro whole
    have follows := follows_take_continued lead bytes
    rwa [whole, List.take_length] at follows
  · intro follows
    exact Nat.le_antisymm (continued_le_length lead bytes)
      (length_le_continued follows List.prefix_rfl)

theorem toNat_of_followers (announced : followers lead = some count) :
    lead.toNat < 128 ∧ count = 0 ∨ 192 ≤ lead.toNat ∧ lead.toNat < 224 ∧ count = 1 ∨
      224 ≤ lead.toNat ∧ lead.toNat < 240 ∧ count = 2 ∨
      240 ≤ lead.toNat ∧ lead.toNat < 248 ∧ count = 3 := by
  simp only [followers, UInt8.lt_iff_toNat_lt] at announced
  split_ifs at announced <;> simp_all

theorem toNat_of_isContinuation {b : UInt8} (continues : isContinuation b) :
    128 ≤ b.toNat ∧ b.toNat < 192 := by
  simp only [isContinuation, Bool.and_eq_true, decide_eq_true_eq, UInt8.le_iff_toNat_le] at continues
  exact ⟨continues.1, Nat.lt_succ_of_le continues.2⟩

theorem toNat_of_admits (admitted : admits lead second) :
    (128 ≤ second.toNat ∧ second.toNat < 192) ∧ (194 ≤ lead.toNat ∧ lead.toNat ≤ 244) ∧
      (lead.toNat = 224 -> 160 ≤ second.toNat) ∧ (lead.toNat = 237 -> second.toNat < 160) ∧
      (lead.toNat = 240 -> 144 ≤ second.toNat) ∧ (lead.toNat = 244 -> second.toNat < 144) := by
  simp only [admits, Bool.and_eq_true] at admitted
  obtain ⟨continues, fits⟩ := admitted
  refine ⟨toNat_of_isContinuation continues, ?_⟩
  simp only [UInt8.le_iff_toNat_le, UInt8.lt_iff_toNat_lt, ← UInt8.toNat_inj] at fits
  split_ifs at fits <;> simp_all <;> omega

theorem follows_of_encoded {c : Char} (encoded : String.utf8EncodeChar c = lead :: bytes) :
    followers lead = some bytes.length ∧ Follows lead bytes := by
  have decoded := decode_encoded c []
  have whole : (lead :: bytes).map Read.byte ++ [] = .byte lead :: reads bytes none := rfl
  rw [encoded, whole, decode, nextByte] at decoded
  cases announced : followers lead with
  | none => simp [announced] at decoded
  | some count =>
      simp only [announced] at decoded
      by_cases enough : count ≤ bytes.length
      · rw [take_reads enough] at decoded
        obtain ⟨spells, nothing⟩ := Prod.mk.inj decoded
        -- nothing is left over, so it was all taken
        have all : bytes.drop count = [] := by simpa [reads] using nothing
        have same : count = bytes.length := Nat.le_antisymm enough (List.drop_eq_nil_iff.mp all)
        rw [same, List.take_length, character] at spells
        refine ⟨congrArg some same, continued_eq_length_iff.mp ?_⟩
        by_contra broken
        rw [if_neg broken] at spells
        simp [Except.map] at spells
      · have lasting : ∀ fault ∈ (none : Option Fault), fault.kind ≠ .interrupted := by simp
        obtain ⟨left, failed⟩ := take_reads_of_lt (Nat.lt_of_not_le enough) lasting
        rw [failed] at decoded
        simp at decoded

end Follows

section Encoded

variable {lead second third fourth : UInt8}

theorem exists_char (value : Nat) (valid : value.isValidChar) :
    exists c : Char, c.val.toNat = value :=
  ⟨Char.ofNatAux value valid, rfl⟩

theorem ofNat_eq {value : Nat} {b : UInt8} (same : value = b.toNat) : UInt8.ofNat value = b := by
  rw [same, UInt8.ofNat_toNat]

theorem exists_encoded_one (small : lead.toNat < 128) :
    exists c, String.utf8EncodeChar c = [lead] := by
  obtain ⟨c, same⟩ := exists_char lead.toNat (.inl (by omega))
  refine ⟨c, ?_⟩
  rw [String.utf8EncodeChar, same, if_pos (by omega), ofNat_eq rfl]

theorem exists_encoded_two (high : lead.toNat < 224) (admitted : admits lead second) :
    exists c, String.utf8EncodeChar c = [lead, second] := by
  obtain ⟨follows, leads, -⟩ := toNat_of_admits admitted
  obtain ⟨c, same⟩ := exists_char (64 * (lead.toNat % 32) + second.toNat % 64) (.inl (by omega))
  refine ⟨c, ?_⟩
  rw [String.utf8EncodeChar, same, if_neg (by omega), if_pos (by omega),
    ofNat_eq (b := lead) (by omega), ofNat_eq (b := second) (by omega)]

theorem exists_encoded_three (low : 224 ≤ lead.toNat) (high : lead.toNat < 240)
    (admitted : admits lead second) (continues : isContinuation third) :
    exists c, String.utf8EncodeChar c = [lead, second, third] := by
  obtain ⟨follows, -, noLonger, noSurrogate, -⟩ := toNat_of_admits admitted
  have further := toNat_of_isContinuation continues
  obtain ⟨c, same⟩ := exists_char
    (64 * (64 * (lead.toNat % 16) + second.toNat % 64) + third.toNat % 64)
    (by unfold Nat.isValidChar; omega)
  refine ⟨c, ?_⟩
  rw [String.utf8EncodeChar, same, if_neg (by omega), if_neg (by omega), if_pos (by omega),
    ofNat_eq (b := lead) (by omega), ofNat_eq (b := second) (by omega),
    ofNat_eq (b := third) (by omega)]

theorem exists_encoded_four (low : 240 ≤ lead.toNat) (admitted : admits lead second)
    (continues : isContinuation third) (last : isContinuation fourth) :
    exists c, String.utf8EncodeChar c = [lead, second, third, fourth] := by
  obtain ⟨follows, leads, -, -, noLonger, inside⟩ := toNat_of_admits admitted
  have further := toNat_of_isContinuation continues
  have furthest := toNat_of_isContinuation last
  obtain ⟨c, same⟩ := exists_char
    (64 * (64 * (64 * (lead.toNat % 8) + second.toNat % 64) + third.toNat % 64) +
      fourth.toNat % 64) (by unfold Nat.isValidChar; omega)
  refine ⟨c, ?_⟩
  rw [String.utf8EncodeChar, same, if_neg (by omega), if_neg (by omega), if_neg (by omega),
    ofNat_eq (b := lead) (by omega), ofNat_eq (b := second) (by omega),
    ofNat_eq (b := third) (by omega), ofNat_eq (b := fourth) (by omega)]

theorem exists_encoded {bytes : List UInt8} (announced : followers lead = some bytes.length)
    (follows : Follows lead bytes) : exists c, String.utf8EncodeChar c = lead :: bytes := by
  have bounds := toNat_of_followers announced
  match bytes with
  | [] =>
      simp only [List.length_nil] at bounds
      exact exists_encoded_one (by omega)
  | [second] =>
      simp only [List.length_cons, List.length_nil] at bounds
      exact exists_encoded_two (by omega) follows.1
  | [second, third] =>
      simp only [List.length_cons, List.length_nil] at bounds
      exact exists_encoded_three (by omega) (by omega) follows.1 (follows.2 third (by simp))
  | [second, third, fourth] =>
      simp only [List.length_cons, List.length_nil] at bounds
      exact exists_encoded_four (by omega) follows.1 (follows.2 third (by simp))
        (follows.2 fourth (by simp))
  | _ :: _ :: _ :: _ :: _ =>
      simp only [List.length_cons] at bounds
      omega

end Encoded

def Begins (bytes : List UInt8) : Prop :=
  exists c, bytes.IsPrefix (String.utf8EncodeChar c)

theorem begins_iff {lead : UInt8} {bytes : List UInt8} {count : Nat}
    (announced : followers lead = some count) (some' : bytes ≠ []) :
    Begins (lead :: bytes) ↔ Follows lead bytes ∧ bytes.length ≤ count := by
  constructor
  · rintro ⟨c, more, encoded⟩
    obtain ⟨same, follows⟩ := follows_of_encoded encoded.symm
    obtain rfl : count = (bytes ++ more).length := Option.some.inj (announced.symm.trans same)
    have isPrefix := List.prefix_append bytes more
    exact ⟨follows.of_isPrefix isPrefix, isPrefix.length_le⟩
  · rintro ⟨follows, fits⟩
    -- any continuation bytes complete it
    let more := List.replicate (count - bytes.length) (0x80 : UInt8)
    have continues : ∀ b ∈ more, isContinuation b := by
      intro b member
      rw [List.eq_of_mem_replicate member]
      decide
    have whole : Follows lead (bytes ++ more) := by
      cases bytes with
      | nil => exact absurd rfl some'
      | cons second rest =>
          exact ⟨follows.1, List.forall_mem_append.mpr ⟨follows.2, continues⟩⟩
    have length : (bytes ++ more).length = count := by
      rw [List.length_append, List.length_replicate]
      omega
    obtain ⟨c, encoded⟩ := exists_encoded (length ▸ announced) whole
    exact ⟨c, more, encoded.symm⟩

end Netlist.Utf8
