import Netlist.Source

set_option autoImplicit false

namespace Netlist

inductive Read where
  | byte (b : UInt8)
  | failed (fault : Fault)
  | ended
deriving DecidableEq

namespace Utf8

/-- The next byte, if the script does not end there. An interrupted read is tried again. -/
def nextByte : List Read -> Except Fault (Option UInt8) × List Read
  | [] => (.ok none, [])
  | .byte b :: rest => (.ok (some b), rest)
  | .ended :: rest => (.ok none, rest)
  | .failed fault :: rest =>
      if fault.kind = .interrupted then nextByte rest else (.error fault, rest)

def followers (lead : UInt8) : Option Nat :=
  if lead < 0x80 then some 0
  else if lead < 0xC0 then none
  else if lead < 0xE0 then some 1
  else if lead < 0xF0 then some 2
  else if lead < 0xF8 then some 3
  else none

def take : Nat -> List Read -> Except Fault (List UInt8) × List Read
  | 0, script => (.ok [], script)
  | count + 1, script =>
      match nextByte script with
      | (.error fault, rest) => (.error fault, rest)
      | (.ok none, rest) => (.error .truncated, rest)
      | (.ok (some b), rest) =>
          match take count rest with
          | (.error fault, rest) => (.error fault, rest)
          | (.ok bytes, rest) => (.ok (b :: bytes), rest)

def isContinuation (b : UInt8) : Bool :=
  0x80 ≤ b && b ≤ 0xBF

/-- Whether `second` may follow `lead`. This rules out spellings longer than need be, surrogates
and code points past the last one. -/
def admits (lead second : UInt8) : Bool :=
  isContinuation second &&
    if lead < 0xC2 then false
    else if lead = 0xE0 then 0xA0 ≤ second
    else if lead = 0xED then second ≤ 0x9F
    else if lead = 0xF0 then 0x90 ≤ second
    else if lead = 0xF4 then second ≤ 0x8F
    else lead < 0xF4

def continued (lead : UInt8) : List UInt8 -> Nat
  | [] => 0
  | second :: rest => if admits lead second then 1 + (rest.takeWhile isContinuation).length else 0

def codePoint (lead : UInt8) (rest : List UInt8) : Nat :=
  let leadBits := if rest.isEmpty then lead.toNat else lead.toNat % Nat.pow 2 (6 - rest.length)
  rest.foldl (fun value b => 64 * value + b.toNat % 64) leadBits

/-- The character spelled by a whole sequence, or how long its part is that begins none. -/
def character (lead : UInt8) (rest : List UInt8) : Except Fault Char :=
  if continued lead rest = rest.length then .ok (Char.ofNat (codePoint lead rest))
  else .error (.malformed (1 + continued lead rest))

def decode (script : List Read) : Except Fault (Option Char) × List Read :=
  match nextByte script with
  | (.error fault, rest) => (.error fault, rest)
  | (.ok none, rest) => (.ok none, rest)
  | (.ok (some lead), rest) =>
      match followers lead with
      | none => (.error (.strayByte lead), rest)
      | some count =>
          match take count rest with
          | (.error fault, rest) => (.error fault, rest)
          | (.ok bytes, rest) => ((character lead bytes).map some, rest)

theorem length_nextByte_le (script : List Read) :
    (nextByte script).2.length ≤ script.length := by
  fun_induction nextByte script with
  | case4 fault rest retried ih => simp; omega
  | _ => simp

theorem length_nextByte_lt {script rest : List Read} {b : UInt8}
    (read : nextByte script = (.ok (some b), rest)) : rest.length < script.length := by
  fun_induction nextByte script with
  | case4 fault tail retried ih => have := ih read; simp; omega
  | _ => simp_all

theorem length_take_le (count : Nat) (script : List Read) :
    (take count script).2.length ≤ script.length := by
  induction count generalizing script with
  | zero => simp [take]
  | succ count ih =>
      have first := length_nextByte_le script
      rw [take]
      split <;> rename_i step <;> simp only [step] at first
      · exact first
      · exact first
      · rename_i rest
        have more := ih rest
        split <;> rename_i taken <;> simp only [taken] at more <;> exact Nat.le_trans more first

theorem length_decode_le (script : List Read) :
    (decode script).2.length ≤ script.length := by
  have first := length_nextByte_le script
  rw [decode]
  split <;> rename_i step <;> simp only [step] at first
  · exact first
  · exact first
  · rename_i rest
    split
    · exact first
    · rename_i count _
      have more := length_take_le count rest
      split <;> rename_i taken <;> simp only [taken] at more <;> exact Nat.le_trans more first

theorem length_decode_lt {script rest : List Read} {c : Char}
    (decoded : decode script = (.ok (some c), rest)) : rest.length < script.length := by
  rw [decode] at decoded
  split at decoded
  · simp at decoded
  · simp at decoded
  · rename_i lead after step
    have first := length_nextByte_lt step
    split at decoded
    · simp at decoded
    · rename_i count _
      have more := length_take_le count after
      split at decoded <;> rename_i taken <;> simp only [taken] at more
      · simp at decoded
      · simp only [Prod.mk.injEq] at decoded
        rw [← decoded.2]
        exact Nat.lt_of_le_of_lt more first

end Utf8

structure ByteReader where
  script : List Read
  -- the fault that ended the stream, until it is taken
  kept : Option Fault := none
  finished : Bool := false
deriving DecidableEq

namespace ByteReader

def pull (reader : ByteReader) : Pull × ByteReader :=
  if reader.finished then (.stop, reader)
  else
    match Utf8.decode reader.script with
    | (.ok (some c), rest) => (.char c, { reader with script := rest })
    | (.ok none, rest) => (.stop, { reader with script := rest, finished := true })
    | (.error fault, rest) =>
        (.failed fault, { script := rest, kept := some fault, finished := true })

def takeFault (reader : ByteReader) : Option Fault × ByteReader :=
  (reader.kept, { reader with kept := none })

theorem count_add_length_pull (reader : ByteReader) :
    reader.pull.1.count + reader.pull.2.script.length ≤ reader.script.length := by
  have shorter := Utf8.length_decode_le reader.script
  unfold pull
  split
  · simp [Pull.count]
  · split <;> rename_i step <;> simp only [step] at shorter
    · have := Utf8.length_decode_lt step
      simp only [Pull.count]
      omega
    · simpa [Pull.count] using shorter
    · simpa [Pull.count] using shorter

instance : Source ByteReader where
  pull := pull
  size reader := reader.script.length
  count_add_size_pull := count_add_length_pull

end ByteReader

end Netlist
