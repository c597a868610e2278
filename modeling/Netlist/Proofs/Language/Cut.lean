import Netlist.Proofs.Language.Program
import Netlist.Proofs.RoundTrip.WellFormed

set_option autoImplicit false

namespace Netlist

namespace Tape

def ofLexemes (lexemes : List Lexeme) : Tape :=
  { tokens := lexemes.map fun lexeme => { kind := lexeme.kind, text := lexeme.text, position := {} }
    finish := {} }

theorem rest_ofLexemes (lexemes : List Lexeme) : (ofLexemes lexemes).rest 0 = lexemes := by
  simp [rest, ofLexemes, Token.lexeme, Function.comp_def]

theorem spelled_ofLexemes {lexemes : List Lexeme} (spelled : Lexeme.Spelled lexemes) :
    (ofLexemes lexemes).Spelled := by
  intro token member
  obtain ⟨lexeme, found, rfl⟩ := List.mem_map.mp member
  exact spelled lexeme found

end Tape

theorem Plain.Reads.unique {α : Type} {rule : Plain α} {shape : Plain.Shape α}
    (reads : Plain.Reads rule shape) {lexemes rest left : List Lexeme} {value other : α}
    (spelled : Lexeme.Spelled lexemes) (first : shape lexemes value rest)
    (second : shape lexemes other left) : value = other ∧ rest = left := by
  rw [← Tape.rest_ofLexemes lexemes] at first second
  have spelled := Tape.spelled_ofLexemes spelled
  obtain ⟨after, step, rfl⟩ := (reads _ spelled 0 _ _).mpr first
  obtain ⟨last, again, rfl⟩ := (reads _ spelled 0 _ _).mpr second
  rw [step] at again
  cases again
  exact ⟨rfl, rfl⟩

section Unique

variable {α : Type} {element : Plain.Element α} {phrase : Phrase α} (reads : element.Reads phrase)
  {lexemes others rest left : List Lexeme} {values more : List α}

include reads

theorem BodyWritten.unique (first : BodyWritten phrase lexemes values)
    (second : BodyWritten phrase others more) (same : lexemes ++ rest = others ++ left)
    (spelled : Lexeme.Spelled (lexemes ++ rest)) : values = more ∧ rest = left :=
  (Plain.reads_body reads).unique spelled ⟨lexemes, rfl, first⟩ ⟨others, same, second⟩

theorem StatementWritten.unique {heading : Heading}
    (first : StatementWritten heading (BodyWritten phrase) lexemes values)
    (second : StatementWritten heading (BodyWritten phrase) others more)
    (same : lexemes ++ rest = others ++ left) (spelled : Lexeme.Spelled (lexemes ++ rest)) :
    values = more ∧ rest = left :=
  (Plain.reads_bodyStatement heading reads).unique spelled ⟨lexemes, rfl, first⟩
    ⟨others, same, second⟩

end Unique

theorem SegmentsWritten.isPrefix {lexemes others rest left : List Lexeme} {values more : List Wire}
    (first : SegmentsWritten lexemes values) (second : SegmentsWritten others more)
    (stops : ¬ (Lexeme.front left).any Phrase.wires.opens)
    (same : lexemes ++ rest = others ++ left) (spelled : Lexeme.Spelled (lexemes ++ rest)) :
    values.IsPrefix more := by
  induction first generalizing others more with
  | one written =>
      cases second with
      | one also =>
          obtain ⟨rfl, -⟩ := written.unique Plain.Element.reads_wires also same spelled
          exact List.prefix_rfl
      | more also opens further =>
          rw [List.append_assoc] at same
          obtain ⟨rfl, -⟩ := written.unique Plain.Element.reads_wires also same spelled
          exact List.prefix_append _ _
  | more written opens further ih =>
      rw [List.append_assoc] at same spelled
      cases second with
      | one also =>
          obtain ⟨-, rfl⟩ := written.unique Plain.Element.reads_wires also same spelled
          rw [Lexeme.front_append (Plain.SegmentsWritten.ne_nil further)] at stops
          exact absurd opens stops
      | more also opens furtherAlso =>
          rw [List.append_assoc] at same
          obtain ⟨rfl, behind⟩ := written.unique Plain.Element.reads_wires also same spelled
          rw [List.prefix_append_right_inj]
          exact ih furtherAlso behind (Lexeme.Spelled.of_append spelled).2

theorem BodyWritten.eq_append {α : Type} {phrase : Phrase α} {lexemes : List Lexeme}
    {values : List α} (written : BodyWritten phrase lexemes values) :
    exists init, lexemes = init ++ [.mark .semicolon] := by
  induction written with
  | ended => exact ⟨[], rfl⟩
  | passed noSemicolon noEntry further ih =>
      obtain ⟨init, rfl⟩ := ih
      exact ⟨_ :: init, rfl⟩
  | entry one further ih =>
      obtain ⟨init, rfl⟩ := ih
      exact ⟨_ ++ init, (List.append_assoc ..).symm⟩

theorem SegmentsWritten.eq_append {lexemes : List Lexeme} {values : List Wire}
    (written : SegmentsWritten lexemes values) :
    exists init, lexemes = init ++ [.mark .semicolon] := by
  induction written with
  | one written => exact written.eq_append
  | more written opens further ih =>
      obtain ⟨init, rfl⟩ := ih
      exact ⟨_ ++ init, (List.append_assoc ..).symm⟩

structure Program.Shortens (shorter program : Program) : Prop where
  inputs : shorter.inputs = program.inputs
  outputs : shorter.outputs = program.outputs
  parts : shorter.parts = program.parts
  wires : shorter.wires.IsPrefix program.wires

theorem isPrefix_of_semicolon {init rest front tail : List Lexeme}
    (same : init ++ [.mark .semicolon] ++ rest = front ++ tail)
    (noSemicolon : ∀ lexeme ∈ tail, lexeme.kind ≠ .semicolon) :
    List.IsPrefix (init ++ [.mark .semicolon]) front := by
  rcases List.append_eq_append_iff.mp same with ⟨more, inside, -⟩ | ⟨more, whole, behind⟩
  · exact ⟨more, inside.symm⟩
  · rcases List.eq_nil_or_concat more with rfl | ⟨others, last, rfl⟩
    · exact ⟨[], by rw [List.append_nil, whole, List.append_nil]⟩
    · rw [List.concat_eq_append, ← List.append_assoc, List.append_singleton_inj] at whole
      refine absurd rfl (noSemicolon (Lexeme.mark .semicolon) ?_)
      simp [behind, whole.2]

theorem StatementWritten.eq_append {α : Type} {heading : Heading}
    {entries : List Lexeme -> List α -> Prop} {lexemes : List Lexeme} {values : List α}
    (ends : ∀ lexemes values, entries lexemes values ->
      exists init, lexemes = init ++ [.mark .semicolon])
    (written : StatementWritten heading entries lexemes values) :
    exists init, lexemes = init ++ [.mark .semicolon] := by
  cases written with
  | intro written =>
      obtain ⟨init, rfl⟩ := ends _ _ written
      exact ⟨_ :: _ :: init, rfl⟩

theorem ProgramWritten.shortens {front tail back : List Lexeme} {shorter program : Program}
    (cut : ProgramWritten (front ++ tail) shorter)
    (noSemicolon : ∀ lexeme ∈ tail, lexeme.kind ≠ .semicolon)
    (written : ProgramWritten (front ++ back) program) (spelled : Lexeme.Spelled (front ++ back)) :
    shorter.Shortens program := by
  generalize short : front ++ tail = lexemes at cut
  generalize long : front ++ back = others at written
  cases cut with
  | @intro inputs outputs parts wires rest _ inputsCut outputsCut partsCut wiresCut _ =>
  cases written with
  | @intro inputs' outputs' parts' wires' rest' _ inputsWritten outputsWritten partsWritten
      wiresWritten stops =>
  -- the last semicolon is not in the tail, so the four statements are in front of it
  obtain ⟨init, ends⟩ := wiresCut.eq_append fun _ _ => SegmentsWritten.eq_append
  rw [ends, ← List.append_assoc] at short
  obtain ⟨more, rfl⟩ := isPrefix_of_semicolon short.symm noSemicolon
  rw [List.append_assoc (inputs ++ outputs ++ parts), ← ends] at long spelled
  simp only [List.append_assoc] at long spelled
  obtain ⟨sameInputs, long⟩ :=
    inputsCut.unique Plain.Element.reads_ports inputsWritten long spelled
  have spelled := (Lexeme.Spelled.of_append spelled).2
  obtain ⟨sameOutputs, long⟩ :=
    outputsCut.unique Plain.Element.reads_ports outputsWritten long spelled
  have spelled := (Lexeme.Spelled.of_append spelled).2
  obtain ⟨sameParts, long⟩ :=
    partsCut.unique Plain.Element.reads_parts partsWritten long spelled
  have spelled := (Lexeme.Spelled.of_append spelled).2
  refine ⟨sameInputs, sameOutputs, sameParts, ?_⟩
  cases wiresCut with
  | intro wiresCut =>
      cases wiresWritten with
      | intro wiresWritten =>
          have long := (List.cons.inj (List.cons.inj long).2).2
          have spelled := spelled.of_cons.of_cons
          exact wiresCut.isPrefix wiresWritten stops long spelled

end Netlist
