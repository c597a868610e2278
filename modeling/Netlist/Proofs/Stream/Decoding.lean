import Netlist.Proofs.Lexing.Mirror
import Netlist.Proofs.Stream.WellFormed

set_option autoImplicit false

namespace Netlist

namespace Utf8

def received : List Read -> List UInt8 × Option Fault
  | [] => ([], none)
  | .byte b :: rest => (b :: (received rest).1, (received rest).2)
  | .ended :: _ => ([], none)
  | .failed fault :: rest =>
      if fault.kind = .interrupted then received rest else ([], some fault)

theorem steady_eq_reads (script : List Read) :
    steady script = reads (received script).1 (received script).2 := by
  fun_induction received script with
  | case1 => rfl
  | case2 b rest ih => exact congrArg (Read.byte b :: ·) ih
  | case3 rest => rfl
  | case4 fault rest retried ih => rw [steady, if_pos retried, ih]
  | case5 fault rest refused => exact if_neg refused

theorem lasting_received (script : List Read) :
    ∀ fault ∈ (received script).2, fault.kind ≠ .interrupted := by
  fun_induction received script with
  | case1 => simp
  | case2 b rest ih => exact ih
  | case3 rest => simp
  | case4 fault rest retried ih => exact ih
  | case5 fault rest refused => simpa using refused

inductive Announces (lead : UInt8) : Nat -> Prop where
  | two (low : 0xC0 ≤ lead) (high : lead ≤ 0xDF) : Announces lead 2
  | three (low : 0xE0 ≤ lead) (high : lead ≤ 0xEF) : Announces lead 3
  | four (low : 0xF0 ≤ lead) (high : lead ≤ 0xF7) : Announces lead 4

/-- The longest front of these bytes that begins a character, or the first byte if none does. -/
structure Broken (bytes : List UInt8) (length : Nat) : Prop where
  positive : 1 ≤ length
  begins : length = 1 ∨ Begins (bytes.take length)
  longest : ∀ front : List UInt8, front.IsPrefix bytes -> Begins front -> front.length ≤ length

/-- What is kept when these bytes are left, and then the failure or the end is met. -/
inductive Kept (failure : Option Fault) : List UInt8 -> Option Fault -> Prop where
  | ended : Kept failure [] failure
  | stray {lead : UInt8} {more : List UInt8}
      (stray : 0x80 ≤ lead ∧ lead ≤ 0xBF ∨ 0xF8 ≤ lead)
      (kind : (Fault.strayByte lead).kind = .invalidData) :
      Kept failure (lead :: more) (some (.strayByte lead))
  | short {lead : UInt8} {more : List UInt8} {width : Nat} (announces : Announces lead width)
      (short : (lead :: more).length < width)
      (kind : failure = none -> Fault.truncated.kind = .unexpectedEnd) :
      Kept failure (lead :: more) (some (failure.getD .truncated))
  | malformed {lead : UInt8} {more : List UInt8} {width length : Nat}
      (announces : Announces lead width) (enough : width ≤ (lead :: more).length)
      (broken : Broken (lead :: more) length)
      (kind : (Fault.malformed length).kind = .invalidData) :
      Kept failure (lead :: more) (some (.malformed length))

theorem Kept.eq_none_iff {failure kept : Option Fault} {bytes : List UInt8}
    (keeps : Kept failure bytes kept) : kept = none ↔ bytes = [] ∧ failure = none := by
  cases keeps <;> simp

section Lead

variable {lead : UInt8} {count : Nat}

theorem stray_of_followers (nothing : followers lead = none) :
    0x80 ≤ lead ∧ lead ≤ 0xBF ∨ 0xF8 ≤ lead := by
  simp only [followers, UInt8.lt_iff_toNat_lt, UInt8.le_iff_toNat_le] at nothing ⊢
  split_ifs at nothing <;> simp_all
  omega

theorem announces_of_followers (announced : followers lead = some count) (some' : count ≠ 0) :
    Announces lead (count + 1) := by
  have bounds := toNat_of_followers announced
  rcases bounds with ⟨-, none'⟩ | ⟨low, high, rfl⟩ | ⟨low, high, rfl⟩ | ⟨low, high, rfl⟩
  · exact absurd none' some'
  · exact .two (UInt8.le_iff_toNat_le.mpr low) (UInt8.le_iff_toNat_le.mpr (Nat.le_of_lt_succ high))
  · exact .three (UInt8.le_iff_toNat_le.mpr low) (UInt8.le_iff_toNat_le.mpr (Nat.le_of_lt_succ high))
  · exact .four (UInt8.le_iff_toNat_le.mpr low) (UInt8.le_iff_toNat_le.mpr (Nat.le_of_lt_succ high))

theorem broken_of_continued {more : List UInt8} (announced : followers lead = some count)
    (enough : count ≤ more.length) :
    Broken (lead :: more) (1 + continued lead (more.take count)) := by
  have within := continued_le_length lead (more.take count)
  rw [List.length_take_of_le enough] at within
  refine ⟨Nat.le_add_right 1 _, ?_, fun front isPrefix begins => ?_⟩
  · have follows := follows_take_continued lead (more.take count)
    rw [List.take_take, Nat.min_eq_left within] at follows
    generalize continued lead (more.take count) = place at within follows
    cases place with
    | zero => exact .inl rfl
    | succ place =>
        right
        have length := List.length_take_of_le (within.trans enough)
        have some' : more.take (place + 1) ≠ [] := List.ne_nil_of_length_eq_add_one length
        rw [Nat.add_comm, List.take_succ_cons, begins_iff announced some']
        exact ⟨follows, length.trans_le within⟩
  · match front with
    | [] => exact Nat.zero_le _
    | [first] => exact Nat.le_add_right 1 _
    | first :: second :: rest =>
        obtain ⟨rfl, inside⟩ := List.cons_prefix_cons.mp isPrefix
        obtain ⟨follows, short⟩ := (begins_iff announced (by simp)).mp begins
        have further := length_le_continued follows
          (List.prefix_take_iff.mpr ⟨inside, short⟩)
        rw [List.length_cons, Nat.add_comm]
        exact Nat.add_le_add_left further 1

theorem continued_lt_of_noCharacter {more : List UInt8} (announced : followers lead = some count)
    (enough : count ≤ more.length)
    (noCharacter : ∀ c, ¬ (String.utf8EncodeChar c).IsPrefix (lead :: more)) :
    continued lead (more.take count) < count := by
  have length := List.length_take_of_le enough
  have within := (continued_le_length lead (more.take count)).trans_eq length
  refine Nat.lt_of_le_of_ne within fun whole => ?_
  have follows := continued_eq_length_iff.mp (whole.trans length.symm)
  obtain ⟨c, encoded⟩ := exists_encoded (length.symm ▸ announced) follows
  refine noCharacter c ⟨more.drop count, ?_⟩
  rw [encoded, List.cons_append, List.take_append_drop]

theorem decode_reads_cons (lead : UInt8) (more : List UInt8) (failure : Option Fault) :
    decode (reads (lead :: more) failure) =
      match followers lead with
      | none => (.error (.strayByte lead), reads more failure)
      | some count =>
          match take count (reads more failure) with
          | (.error fault, rest) => (.error fault, rest)
          | (.ok bytes, rest) => ((character lead bytes).map some, rest) := rfl

end Lead

section Bytes

variable {failure : Option Fault} (lasting : ∀ fault ∈ failure, fault.kind ≠ .interrupted)

include lasting

theorem decode_of_noCharacter {bytes : List UInt8}
    (noCharacter : ∀ c, ¬ (String.utf8EncodeChar c).IsPrefix bytes) :
    exists kept left, Kept failure bytes kept ∧
      decode (reads bytes failure) =
        (match kept with | none => .ok none | some fault => .error fault, left) := by
  cases bytes with
  | nil =>
      refine ⟨failure, [], .ended, ?_⟩
      rw [decode, nextByte_reads_nil lasting]
      cases failure with
      | none => rfl
      | some fault => rfl
  | cons lead more =>
      rw [decode_reads_cons]
      cases announced : followers lead with
      | none => exact ⟨_, reads more failure, .stray (stray_of_followers announced) rfl, rfl⟩
      | some count =>
          simp only
          by_cases enough : count ≤ more.length
          · have short := continued_lt_of_noCharacter announced enough noCharacter
            have length := List.length_take_of_le enough
            refine ⟨_, reads (more.drop count) failure, .malformed
              (announces_of_followers announced (Nat.ne_zero_of_lt short)) (Nat.succ_le_succ enough)
              (broken_of_continued announced enough) rfl, ?_⟩
            simp only [take_reads enough, character, length, if_neg (Nat.ne_of_lt short)]
            rfl
          · have short := Nat.lt_of_not_le enough
            obtain ⟨left, failed⟩ := take_reads_of_lt short lasting
            refine ⟨_, left, .short (announces_of_followers announced (Nat.ne_zero_of_lt short))
              (Nat.succ_lt_succ short) fun _ => rfl, ?_⟩
            rw [failed]

theorem characters_reads (bytes : List UInt8) :
    exists rest, bytes = (characters (reads bytes failure)).1.flatMap String.utf8EncodeChar ++ rest ∧
      (∀ c, ¬ (String.utf8EncodeChar c).IsPrefix rest) ∧
      Kept failure rest (characters (reads bytes failure)).2 := by
  induction length : bytes.length using Nat.strongRecOn generalizing bytes with
  | ind count ih =>
      by_cases begins : exists c, (String.utf8EncodeChar c).IsPrefix bytes
      · obtain ⟨c, more, rfl⟩ := begins
        have step : decode (reads (String.utf8EncodeChar c ++ more) failure) =
            (.ok (some c), reads more failure) := by
          rw [reads, List.map_append, List.append_assoc]
          exact decode_encoded c _
        have shorter : more.length < count := by
          have positive := c.utf8Size_pos
          rw [← length, List.length_append, String.length_utf8EncodeChar]
          omega
        obtain ⟨rest, whole, further⟩ := ih _ shorter more rfl
        refine ⟨rest, ?_, ?_⟩
        · rw [characters_of_char step, List.flatMap_cons, List.append_assoc, ← whole]
        · rw [characters_of_char step]
          exact further
      · have noCharacter := not_exists.mp begins
        obtain ⟨kept, left, keeps, step⟩ := decode_of_noCharacter lasting noCharacter
        refine ⟨bytes, ?_, noCharacter, ?_⟩
        · cases kept with
          | none => rw [characters_of_end step]; rfl
          | some fault => rw [characters_of_fault step]; rfl
        · cases kept with
          | none => rwa [characters_of_end step]
          | some fault => rwa [characters_of_fault step]

end Bytes

theorem isPrefix_of_flatMap {chars others : List Char} {rest : List UInt8}
    (noCharacter : ∀ c, ¬ (String.utf8EncodeChar c).IsPrefix rest)
    (isPrefix : (others.flatMap String.utf8EncodeChar).IsPrefix
      (chars.flatMap String.utf8EncodeChar ++ rest)) : others.IsPrefix chars := by
  induction others generalizing chars with
  | nil => exact List.nil_prefix
  | cons other others ih =>
      obtain ⟨more, whole⟩ := isPrefix
      rw [List.flatMap_cons, List.append_assoc] at whole
      cases chars with
      | nil => exact absurd ⟨_, whole⟩ (noCharacter other)
      | cons c chars =>
          rw [List.flatMap_cons, List.append_assoc] at whole
          have first := decode_encoded other ((others.flatMap String.utf8EncodeChar ++ more).map .byte)
          rw [← List.map_append, whole, List.map_append, decode_encoded] at first
          obtain rfl : c = other := by simpa using congrArg Prod.fst first
          rw [List.append_cancel_left_eq] at whole
          exact List.cons_prefix_cons.mpr ⟨rfl, ih ⟨more, whole⟩⟩

end Utf8

namespace ByteReader

def pulls : Nat -> ByteReader -> List (Option Char) × ByteReader
  | 0, reader => ([], reader)
  | count + 1, reader =>
      let (found, rest) := reader.pull
      let (more, last) := rest.pulls count
      (found.char? :: more, last)

theorem pulls_of_finished {reader : ByteReader} (finished : reader.finished) (count : Nat) :
    reader.pulls count = (List.replicate count none, reader) := by
  have step : reader.pull = (.stop, reader) := if_pos finished
  induction count with
  | zero => rfl
  | succ count ih =>
      rw [pulls, step]
      simp only [ih]
      rfl

theorem pulls_succ_of_finished {reader rest : ByteReader} {found : Pull}
    (step : reader.pull = (found, rest)) (nothing : found.char? = none) (finished : rest.finished)
    (count : Nat) :
    reader.pulls (count + 1) = ((List.range (count + 1)).map fun _ => none, rest) := by
  rw [pulls, step]
  simp only [pulls_of_finished finished, nothing]
  rw [← List.replicate_succ, List.map_const', List.length_range]

theorem pulls_eq {script : List Read} {chars : List Char} {ending : Option Fault}
    (decoded : Utf8.characters script = (chars, ending)) (count : Nat) :
    (pulls count { script }).1 = (List.range count).map (fun place => chars[place]?) ∧
      (pulls count { script }).2.kept = if count ≤ chars.length then none else ending := by
  induction count generalizing script chars with
  | zero => exact ⟨rfl, rfl⟩
  | succ count ih =>
      rcases step : Utf8.decode script with ⟨fault | none' | c, rest⟩
      · rw [Utf8.characters_of_fault step] at decoded
        obtain ⟨rfl, rfl⟩ := Prod.mk.inj decoded
        have reading : pull { script } =
            (.failed fault, { script := rest, kept := some fault, finished := true }) := by
          rw [pull, if_neg Bool.false_ne_true, step]
        rw [pulls_succ_of_finished reading rfl rfl]
        exact ⟨rfl, rfl⟩
      · rw [Utf8.characters_of_end step] at decoded
        obtain ⟨rfl, rfl⟩ := Prod.mk.inj decoded
        have reading : pull { script } = (.stop, { script := rest, finished := true }) := by
          rw [pull, if_neg Bool.false_ne_true, step]
        rw [pulls_succ_of_finished reading rfl rfl]
        exact ⟨rfl, rfl⟩
      · rw [Utf8.characters_of_char step] at decoded
        obtain ⟨rfl, rfl⟩ := Prod.mk.inj decoded
        have reading : pull { script } = (.char c, { script := rest }) := by
          rw [pull, if_neg Bool.false_ne_true, step]
        obtain ⟨given, kept⟩ := ih (rfl : Utf8.characters rest = _)
        rw [pulls, reading, List.range_succ_eq_map, List.map_cons, List.map_map]
        refine ⟨congrArg (some c :: ·) given, ?_⟩
        simpa only [List.length_cons, Nat.succ_le_succ_iff] using kept

end ByteReader

/-- A byte reader gives all characters that the bytes received begin with, and ends with them. What
it keeps from then on is settled by the bytes that are left and by the failure behind them. -/
theorem pulls_received (script : List Read) :
    let bytes := (Utf8.received script).1
    let failure := (Utf8.received script).2
    exists (chars : List Char) (rest : List UInt8) (kept : Option Fault),
      bytes = chars.flatMap String.utf8EncodeChar ++ rest ∧
        (∀ others : List Char, (others.flatMap String.utf8EncodeChar).IsPrefix bytes ->
          others.IsPrefix chars) ∧
        Utf8.Kept failure rest kept ∧ (kept = none ↔ rest = [] ∧ failure = none) ∧
        ∀ count, (ByteReader.pulls count { script }).1 =
            (List.range count).map (fun place => chars[place]?) ∧
          (ByteReader.pulls count { script }).2.kept =
            if count ≤ chars.length then none else kept := by
  intro bytes failure
  obtain ⟨rest, whole, noCharacter, keeps⟩ :=
    Utf8.characters_reads (Utf8.lasting_received script) bytes
  rw [← Utf8.steady_eq_reads, Utf8.characters_steady] at whole keeps
  refine ⟨_, rest, _, whole, fun others isPrefix => ?_, keeps, keeps.eq_none_iff,
    ByteReader.pulls_eq rfl⟩
  rw [whole] at isPrefix
  exact Utf8.isPrefix_of_flatMap noCharacter isPrefix

example :
    let script := [.byte 0x41, .failed (.reported .interrupted ""), .byte 0xE2, .byte 0x82, .byte 0x41]
    let (given, reader) := ByteReader.pulls 3 { script }
    given = [some 'A', none, none] ∧ reader.kept = some (.malformed 2) := by
  decide +kernel

end Netlist
