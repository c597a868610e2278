import Netlist.Command
import Netlist.Proofs.RoundTrip.Followed
import Netlist.Proofs.Stream.Reading

set_option autoImplicit false

namespace Netlist

theorem Utf8.characters_eq_toList (script : List Read) :
    characters script =
      ((String.ofList (characters script).1).toList, (characters script).2) :=
  Prod.ext String.toList_ofList.symm rfl

namespace Reading

theorem exists_of_ofReads {script : List Read} {program : Program}
    (read : (ofReads script).result = .ok program) :
    exists text, Program.parse text = .ok program := by
  rw [result_ofReads (Utf8.characters_eq_toList script)] at read
  generalize (Utf8.characters script).2 = ending at read
  cases ending with
  | none => exact ⟨_, read⟩
  | some fault =>
      rw [surfaced] at read
      split at read
      · simp at read
      · exact ⟨_, read⟩

theorem ofFile_eq_ok_iff (path : String) (script : List Read) (program : Program) :
    (ofFile path (.opened script)).result = .ok program ↔ (ofReads script).result = .ok program := by
  rw [ofFile]
  cases (ofReads script).result <;> simp [Except.mapError]

end Reading

namespace Command

namespace Input

inductive Brings (bytes : List UInt8) : Input -> Prop where
  | standard {script : List Read} (delivers : Utf8.Delivers script bytes) :
      Brings bytes (.standard script)
  | file (path : String) : Brings bytes (.file path (.regular bytes))

theorem wellFormed_of_read {input : Input} {program : Program}
    (read : input.read.result = .ok program) : program.WellFormed := by
  have parsed : exists text, Program.parse text = .ok program := by
    match input with
    | .standard script => exact Reading.exists_of_ofReads read
    | .file path (.opened script) =>
        exact Reading.exists_of_ofReads ((Reading.ofFile_eq_ok_iff path script program).mp read)
    | .file path (.closed fault) => nomatch read
  obtain ⟨text, parsed⟩ := parsed
  exact Program.wellFormed_of_parse parsed

variable {input : Input}

theorem Brings.read_eq_ok_iff {bytes : List UInt8} (brings : input.Brings bytes)
    (program : Program) :
    input.read.result = .ok program ↔
      (Reading.ofReads (bytes.map .byte)).result = .ok program := by
  cases brings with
  | @standard script delivers =>
      have decoded := Utf8.characters_eq_toList script
      have same := Utf8.characters_eq_of_delivers (Utf8.delivers_map_byte bytes) delivers
      rw [read, Reading.result_ofReads decoded, Reading.result_ofReads (same.trans decoded)]
  | file path => exact Reading.ofFile_eq_ok_iff path _ program

theorem Brings.read_eq_ok_iff_parse {text : String} (brings : input.Brings text.toUTF8.data.toList)
    (program : Program) :
    input.read.result = .ok program ↔ Program.parse text = .ok program := by
  have decoded := Utf8.characters_of_delivers (Utf8.delivers_map_byte text.toUTF8.data.toList)
  rw [brings.read_eq_ok_iff, Reading.result_ofReads decoded]
  rfl

end Input

structure Outcome.Succeeds (outcome : Outcome) (printed : String) : Prop where
  exitCode : outcome.exitCode = 0
  stdout : outcome.stdout = printed

section Run

variable {request : Request}

theorem succeeds_of_ok {program : Program} (read : request.input.read.result = .ok program) :
    (run request).Succeeds (request.format.print program) := by
  constructor <;> simp [run, read]

theorem fails_of_exitCode (code : (run request).exitCode ≠ 0) :
    (run request).exitCode = 1 ∧ (run request).stdout = "" := by
  cases read : request.input.read.result with
  | ok program => exact absurd (succeeds_of_ok read).exitCode code
  | error failure => simp [run, read]

theorem exists_of_exitCode (code : (run request).exitCode = 0) :
    exists program, request.input.read.result = .ok program := by
  cases read : request.input.read.result with
  | ok program => exact ⟨program, rfl⟩
  | error failure => simp [run, read] at code

theorem exitCode_eq_zero_iff :
    (run request).exitCode = 0 ↔ exists program, request.input.read.result = .ok program :=
  ⟨exists_of_exitCode, fun ⟨_, read⟩ => (succeeds_of_ok read).exitCode⟩

end Run

theorem run_congr {input other : Input} (same : ∀ program,
      input.read.result = .ok program ↔ other.read.result = .ok program)
    (format : Format) (verbosity more : Nat) :
    (run { input, format, verbosity }).exitCode =
        (run { input := other, format, verbosity := more }).exitCode ∧
      (run { input, format, verbosity }).stdout =
        (run { input := other, format, verbosity := more }).stdout := by
  cases read : input.read.result with
  | ok program =>
      have here : (run { input, format, verbosity }).Succeeds (format.print program) :=
        succeeds_of_ok read
      have there : (run { input := other, format, verbosity := more }).Succeeds
          (format.print program) := succeeds_of_ok ((same program).mp read)
      exact ⟨here.exitCode.trans there.exitCode.symm, here.stdout.trans there.stdout.symm⟩
  | error failure =>
      cases others : other.read.result with
      | ok program => simp [read, others] at same
      | error failure => simp [run, read, others]

theorem exists_read_again {input again : Input} {verbosity : Nat} {text : String}
    (printed : (run { input, format := .canonical, verbosity }).Succeeds text)
    (brings : again.Brings text.toUTF8.data.toList) :
    exists program, input.read.result = .ok program ∧ again.read.result = .ok program ∧
      program.render = text := by
  obtain ⟨program, read⟩ := exists_of_exitCode printed.exitCode
  have render : program.render = text := (succeeds_of_ok read).stdout.symm.trans printed.stdout
  refine ⟨program, read, ?_, render⟩
  rw [brings.read_eq_ok_iff_parse, ← render]
  exact Program.parse_render (Input.wellFormed_of_read read)

/-- The canonical format is a normal form, which a further run leaves as it is. Whether a run
succeeds and what it prints depends only on the bytes that it is given. -/
theorem run_normalizes :
    (∀ input verbosity text,
      (run { input, format := .canonical, verbosity }).Succeeds text ->
      ∀ again : Input, again.Brings text.toUTF8.data.toList ->
        (∀ verbosity, (run { input := again, format := .canonical, verbosity }).Succeeds text) ∧
        ∀ format, exists printed, ∀ verbosity,
          (run { input, format, verbosity }).Succeeds printed ∧
          (run { input := again, format, verbosity }).Succeeds printed) ∧
    ∀ bytes (input : Input), input.Brings bytes -> ∀ format verbosity,
      let outcome := run { input, format, verbosity }
      (outcome.exitCode = 0 ↔
        exists program, (Reading.ofReads (bytes.map .byte)).result = .ok program) ∧
      (∀ other : Input, other.Brings bytes -> ∀ verbosity,
        (run { input := other, format, verbosity }).exitCode = outcome.exitCode ∧
        (run { input := other, format, verbosity }).stdout = outcome.stdout) ∧
      (outcome.exitCode ≠ 0 -> outcome.exitCode = 1 ∧ outcome.stdout = "") := by
  constructor
  · intro input verbosity text printed again brings
    obtain ⟨program, read, readAgain, render⟩ := exists_read_again printed brings
    refine ⟨fun verbosity => ?_, fun format => ⟨format.print program, fun verbosity => ?_⟩⟩
    · rw [← render]
      exact succeeds_of_ok readAgain
    · exact ⟨succeeds_of_ok read, succeeds_of_ok readAgain⟩
  · intro bytes input brings format verbosity outcome
    refine ⟨?_, fun other others more => ?_, fun failed => ?_⟩
    · exact exitCode_eq_zero_iff.trans (exists_congr brings.read_eq_ok_iff)
    · apply run_congr fun program => ?_
      rw [others.read_eq_ok_iff, brings.read_eq_ok_iff]
    · exact fails_of_exitCode failed

theorem run_normalizes_comment :
    let bytes := "Inputs:a[01];//é\nOutputs:;Parts:;Wires:;".toUTF8.data.toList
    let printed := "Inputs: a;\nOutputs:;\nParts:;\nWires:;\n"
    (run { input := .standard (bytes.map .byte), format := .canonical }).Succeeds printed ∧
      (run { input := .file "again.mhrd" (.regular printed.toUTF8.data.toList)
             format := .canonical }).Succeeds printed ∧
      (run { input := .file "stray.mhrd" (.regular [0x80]) }).exitCode = 1 ∧
      (run { input := .file "stray.mhrd" (.regular [0x80]) }).stdout = "" := by
  intro bytes printed
  have first : (run { input := .standard (bytes.map .byte), format := .canonical }).Succeeds
      printed := by
    constructor <;> decide +kernel
  refine ⟨first, (run_normalizes.1 _ 0 _ first _ (.file _)).1 0, ?_⟩
  refine (run_normalizes.2 [0x80] _ (.file "stray.mhrd") .summary 0).2.2 ?_
  decide +kernel

end Command

end Netlist
