import Netlist.Proofs.Language.Program
import Netlist.Proofs.Stream.Encoded

set_option autoImplicit false

namespace Netlist

/-- A source that remembers whether its end was met. -/
structure Watched (σ : Type) where
  source : σ
  ended : Bool := false

namespace Watched

variable {σ : Type} [Source σ]

def pull (watched : Watched σ) : Pull × Watched σ :=
  match Source.pull watched.source with
  | (.char c, source) => (.char c, { watched with source })
  | (.stop, source) => (.stop, { source, ended := true })
  | (.failed fault, source) => (.failed fault, { source, ended := true })

theorem count_add_size_pull (watched : Watched σ) :
    watched.pull.1.count + Source.size watched.pull.2.source ≤ Source.size watched.source := by
  have bound := Source.count_add_size_pull watched.source
  unfold pull
  split <;> rename_i step <;> simpa only [step] using bound

instance : Source (Watched σ) where
  pull := pull
  size watched := Source.size watched.source
  count_add_size_pull := count_add_size_pull

theorem agree_source :
    Origin.Agree fun (left : Origin (Watched σ)) (right : Origin σ) =>
      left.1.source = right.1 ∧ left.2 = right.2 := by
  rintro ⟨⟨source, ended⟩, faults⟩ ⟨_, _⟩ ⟨rfl, rfl⟩
  have watching : Source.pull ({ source, ended } : Watched σ) = pull { source, ended } := rfl
  unfold Origin.pull
  simp only [watching, pull]
  cases Source.pull source with
  | mk pulled rest => cases pulled <;> exact ⟨rfl, rfl, rfl⟩

theorem describes_ofText (text : String) (place : Nat) :
    ({ source := { source := Feed.ofText text } } : Lexer (Watched Feed)).token place =
      (Tape.ofText text).get place := by
  rw [← Tape.describes_ofText]
  exact Lexer.token_eq_of_mirrors agree_source ⟨⟨rfl, rfl⟩, rfl, rfl, rfl⟩ place

end Watched

def Reading.meetsEnd (text : String) : Bool :=
  let watched : Watched Feed := { source := Feed.ofText text }
  (Grammar.program (Cursor.ofSource watched)).2.lexer.source.ended

theorem program_of_agree {σ τ : Type} [Source σ] [Source τ] {same : Origin σ -> Origin τ -> Prop}
    (agree : Origin.Agree same) {left : σ} {right : τ} (start : same (left, []) (right, []))
    {tape : Tape} (describes : ∀ place, ({ source := left } : Lexer σ).token place = tape.get place) :
    (Grammar.program (Cursor.ofSource right)).1 = (Plain.program tape 0).1 ∧
      same (Grammar.program (Cursor.ofSource left)).2.lexer.origin
        (Grammar.program (Cursor.ofSource right)).2.lexer.origin := by
  have mirrors : ({ source := left } : Lexer σ).Mirrors same { source := right } :=
    ⟨start, rfl, rfl, rfl⟩
  have describes' (place : Nat) : ({ source := right } : Lexer τ).token place = tape.get place :=
    (Lexer.token_eq_of_mirrors agree mirrors place).symm.trans (describes place)
  -- both come to what the plain rule comes to, and have asked for the same number of tokens
  have first := Rule.simulates_program describes 0 _ (.inl (Cursor.past_ofSource left))
  have second := Rule.simulates_program describes' 0 _ (.inl (Cursor.past_ofSource right))
  generalize Plain.program tape 0 = plain at first second ⊢
  generalize Grammar.program (Cursor.ofSource left) = mine at first ⊢
  generalize Grammar.program (Cursor.ofSource right) = other at second ⊢
  match plain with
  | (.ok program, place) =>
      obtain ⟨near, rfl, peeked⟩ := first.of_ok
      obtain ⟨far, rfl, peeked'⟩ := second.of_ok
      refine ⟨rfl, ?_⟩
      rw [peeked.lexer.origin, peeked'.lexer.origin]
      exact (Lexer.mirrors_after agree mirrors (place + 1)).origin
  | (.error diagnostic, place) =>
      obtain ⟨near, rfl, past⟩ := first.of_error
      obtain ⟨far, rfl, past'⟩ := second.of_error
      refine ⟨rfl, ?_⟩
      rw [past.lexer.origin, past'.lexer.origin]
      exact (Lexer.mirrors_after agree mirrors place).origin

theorem ByteReader.origin_pull (script : List Read) :
    Origin.pull (({ script }, []) : Origin ByteReader) =
      match Utf8.decode script with
      | (.ok (some c), rest) => (some c, { script := rest }, [])
      | (.ok none, rest) => (none, { script := rest, finished := true }, [])
      | (.error fault, rest) =>
          (none, { script := rest, kept := some fault, finished := true }, [fault]) := by
  have reading : Source.pull ({ script } : ByteReader) = pull { script } := rfl
  unfold Origin.pull
  simp only [reading, pull]
  rw [if_neg Bool.false_ne_true]
  cases Utf8.decode script with
  | mk result rest =>
      cases result with
      | error fault => rfl
      | ok found => cases found <;> rfl

/-- A watched text and a byte reader that brings the same characters, and then `ending`. -/
inductive Twin (ending : Option Fault) : Origin (Watched Feed) -> Origin ByteReader -> Prop where
  | running {script : List Read} {chars : List Char}
      (decoded : Utf8.characters script = (chars, ending)) :
      Twin ending ({ source := { events := chars.map some } }, []) ({ script }, [])
  | ended {script : List Read} :
      Twin ending ({ source := { events := [] }, ended := true }, [])
        ({ script, kept := ending, finished := true }, ending.toList)

theorem Twin.agree (ending : Option Fault) : Origin.Agree (Twin ending) := by
  rintro left right twin
  -- behind the end nothing more is pulled from either
  cases twin with
  | ended => exact ⟨rfl, .ended⟩
  | @running script chars decoded =>
      rw [ByteReader.origin_pull]
      match step : Utf8.decode script with
      | (.ok (some c), rest) =>
          rw [Utf8.characters_of_char step] at decoded
          obtain ⟨rfl, rfl⟩ := Prod.mk.inj decoded
          exact ⟨rfl, .running rfl⟩
      | (.ok none, rest) =>
          rw [Utf8.characters_of_end step] at decoded
          obtain ⟨rfl, rfl⟩ := Prod.mk.inj decoded
          exact ⟨rfl, .ended⟩
      | (.error fault, rest) =>
          rw [Utf8.characters_of_fault step] at decoded
          obtain ⟨rfl, rfl⟩ := Prod.mk.inj decoded
          exact ⟨rfl, .ended⟩

theorem Twin.kept {ending : Option Fault} {left : Origin (Watched Feed)}
    {right : Origin ByteReader} (twin : Twin ending left right) :
    right.1.kept = (if left.1.ended then ending else none) ∧ right.2 = right.1.kept.toList := by
  cases twin with
  | running decoded => exact ⟨rfl, rfl⟩
  | ended => exact ⟨rfl, rfl⟩

theorem Journal.mem_faults_iff (journal : Journal) (fault : Fault) :
    fault ∈ journal.faults ↔ .sourceFailed fault ∈ journal.toList := by
  rw [faults, List.mem_filterMap, toList, List.mem_reverse]
  constructor
  · rintro ⟨record, member, told⟩
    cases record with
    | sourceFailed other =>
        obtain rfl : other = fault := Option.some.inj told
        exact member
    | _ => simp [Record.fault?] at told
  · intro member
    exact ⟨_, member, rfl⟩

theorem program_of_characters {script : List Read} {text : String} {ending : Option Fault}
    (decoded : Utf8.characters script = (text.toList, ending)) :
    let reader : ByteReader := { script }
    let parsed := Grammar.program (Cursor.ofSource reader)
    parsed.1.mapError .grammar = Program.parse text ∧
      parsed.2.lexer.source.kept = (if Reading.meetsEnd text then ending else none) ∧
      parsed.2.journal.faults = parsed.2.lexer.source.kept.toList := by
  obtain ⟨result, twin⟩ := program_of_agree (Twin.agree ending) (.running decoded)
    (Watched.describes_ofText text)
  obtain ⟨kept, told⟩ := twin.kept
  refine ⟨?_, kept, told⟩
  rw [result, parse_eq_plain]

namespace Reading

def surfaced (text : String) : Option Fault -> Except Failure Program
  | some fault => if meetsEnd text then .error (.stream fault) else Program.parse text
  | none => Program.parse text

variable {script : List Read} {text : String} {ending : Option Fault}
  (decoded : Utf8.characters script = (text.toList, ending))

include decoded

theorem result_ofReads : (ofReads script).result = surfaced text ending := by
  obtain ⟨result, kept, -⟩ := program_of_characters decoded
  rw [ofReads]
  simp only [kept, result]
  cases ending with
  | none =>
      rw [ite_self]
      rfl
  | some fault =>
      rw [surfaced]
      by_cases met : meetsEnd text
      · rw [if_pos met, if_pos met]
      · rw [if_neg met, if_neg met]

theorem faults_ofReads :
    (ofReads script).journal.faults = if meetsEnd text then ending.toList else [] := by
  obtain ⟨-, kept, told⟩ := program_of_characters decoded
  rw [ofReads]
  simp only [told, kept]
  cases meetsEnd text <;> rfl

theorem sourceFailed_mem_ofReads (fault : Fault) :
    .sourceFailed fault ∈ (ofReads script).journal.toList ↔
      ending = some fault ∧ meetsEnd text := by
  rw [← Journal.mem_faults_iff, faults_ofReads decoded]
  cases meetsEnd text <;> simp

theorem not_ok_of_sourceFailed {fault : Fault}
    (met : .sourceFailed fault ∈ (ofReads script).journal.toList) (program : Program) :
    (ofReads script).result ≠ .ok program := by
  obtain ⟨ended, pulled⟩ := (sourceFailed_mem_ofReads decoded fault).mp met
  have failed : (ofReads script).result = .error (.stream fault) := by
    rw [result_ofReads decoded, ended]
    exact if_pos pulled
  intro parsed
  rw [failed] at parsed
  nomatch parsed

theorem result_ofFile {bytes : List UInt8} (delivers : Utf8.Delivers script bytes) (path : String) :
    (ofFile path (.regular bytes)).result =
      match (ofReads script).result with
      | .error (.stream fault) => .error (.file path fault)
      | other => other := by
  -- a file is read without interruptions, which make no difference
  have same : Utf8.characters (bytes.map .byte) = (text.toList, ending) :=
    (Utf8.characters_eq_of_delivers (Utf8.delivers_map_byte bytes) delivers).trans decoded
  have regular : (ofReads (bytes.map .byte)).result = (ofReads script).result :=
    (result_ofReads same).trans (result_ofReads decoded).symm
  rw [File.regular, ofFile]
  simp only [regular]
  match (ofReads script).result with
  | .ok program => rfl
  | .error (.grammar diagnostic) => rfl
  | .error (.stream fault) => rfl
  | .error (.file path fault) => rfl

end Reading

/-- A fault outweighs all else if the end was pulled, and is never heard of if it was not. So a text
is parsed from its bytes as it is parsed itself, no program comes out once a fault was met, and a
file does as a stream does. -/
theorem ofReads_surfaces (script : List Read) :
    let text := String.ofList (Utf8.characters script).1
    let ending := (Utf8.characters script).2
    let reading := Reading.ofReads script
    (reading.result =
      match ending with
      | some fault =>
          if Reading.meetsEnd text then .error (.stream fault) else Program.parse text
      | none => Program.parse text) ∧
    (∀ whole : String, Utf8.Delivers script whole.toUTF8.data.toList ->
      reading.result = Program.parse whole) ∧
    (∀ fault, .sourceFailed fault ∈ reading.journal.toList ↔
      ending = some fault ∧ Reading.meetsEnd text) ∧
    (∀ program, reading.result = .ok program ->
      ∀ fault, .sourceFailed fault ∉ reading.journal.toList) ∧
    ∀ path bytes, Utf8.Delivers script bytes ->
      (Reading.ofFile path (.regular bytes)).result =
        match reading.result with
        | .error (.stream fault) => .error (.file path fault)
        | other => other := by
  intro text ending reading
  have decoded : Utf8.characters script = (text.toList, ending) :=
    Prod.ext String.toList_ofList.symm rfl
  refine ⟨Reading.result_ofReads decoded, fun whole delivers => ?_,
    Reading.sourceFailed_mem_ofReads decoded, fun program parsed fault met => ?_,
    fun path bytes delivers => Reading.result_ofFile decoded delivers path⟩
  · exact Reading.result_ofReads (Utf8.characters_of_delivers delivers)
  · exact Reading.not_ok_of_sourceFailed decoded met program parsed

end Netlist
