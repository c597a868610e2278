import Netlist.Proofs.Language.Reads
import Netlist.Proofs.Lexing.Meant
import Netlist.Proofs.Refinement.Statement
import Netlist.Reading

set_option autoImplicit false

namespace Netlist

theorem Lexeme.front_append {lexemes : List Lexeme} (some' : lexemes ≠ []) (rest : List Lexeme) :
    front (lexemes ++ rest) = front lexemes := by
  cases lexemes with
  | nil => exact absurd rfl some'
  | cons lexeme lexemes => rfl

structure Phrase.Regular {α : Type} (phrase : Phrase α) : Prop where
  semicolon : ¬ phrase.opens .semicolon
  endOfInput : ¬ phrase.opens .endOfInput
  starts : ∀ next lexemes value, phrase.written next lexemes value ->
    exists lexeme tail, lexemes = lexeme :: tail ∧ phrase.opens lexeme.kind

theorem Phrase.regular_ports : ports.Regular := by
  refine ⟨by simp [ports], by simp [ports], fun next lexemes value written => ?_⟩
  cases written with
  | bare alone => exact ⟨_, _, rfl, rfl⟩
  | sized pin => exact ⟨_, _, rfl, rfl⟩

theorem Phrase.regular_parts : parts.Regular := by
  refine ⟨by simp [parts], by simp [parts], fun next lexemes value written => ?_⟩
  cases written with
  | intro => exact ⟨_, _, rfl, rfl⟩

theorem Phrase.regular_wires : wires.Regular := by
  refine ⟨by simp [wires], by simp [wires], fun next lexemes value written => ?_⟩
  cases written with
  | constant right => exact ⟨_, _, rfl, rfl⟩
  | driven left right =>
      obtain ⟨tail, rfl⟩ := left.eq_cons
      exact ⟨_, _, rfl, rfl⟩

section Body

variable {α : Type} {phrase : Phrase α}

theorem BodyWritten.ne_nil (regular : phrase.Regular) {lexemes : List Lexeme} {values : List α}
    (written : BodyWritten phrase lexemes values) : lexemes ≠ [] := by
  cases written with
  | ended => simp
  | passed noSemicolon noEntry further => simp
  | entry one further =>
      obtain ⟨lexeme, tail, rfl, -⟩ := regular.starts _ _ _ one
      simp

end Body

namespace Plain

variable {α : Type}

structure Element.Reads (element : Element α) (phrase : Phrase α) : Prop where
  opens : element.opens = phrase.opens
  reads : Plain.Reads element.rule (shapeOf phrase.written)
  regular : phrase.Regular

theorem Element.reads_ports : ports.Reads Phrase.ports :=
  ⟨rfl, reads_port, Phrase.regular_ports⟩

theorem Element.reads_parts : parts.Reads Phrase.parts :=
  ⟨rfl, reads_part, Phrase.regular_parts⟩

theorem Element.reads_wires : wires.Reads Phrase.wires :=
  ⟨rfl, reads_wire, Phrase.regular_wires⟩

def shapeOfAny (written : List Lexeme -> α -> Prop) : Shape α :=
  shapeOf fun _ => written

variable {element : Element α} {phrase : Phrase α} {tape : Tape}

theorem written_of_body (reads : element.Reads phrase) (spelled : tape.Spelled) {place after : Nat}
    {values : List α} (step : body element tape place = (.ok values, after)) :
    exists front, tape.rest place = front ++ tape.rest after ∧ BodyWritten phrase front values := by
  -- an entry is written with regard to what follows it, and that is the rest of the body
  fun_induction body element tape place generalizing values after with
  | case1 place semicolon =>
      obtain ⟨rfl, rfl⟩ : [] = values ∧ place + 1 = after := by simpa using step
      have goesOn : (tape.get place).kind ≠ .endOfInput := by simp [semicolon]
      have here := Tape.rest_of_goesOn goesOn
      rw [spelled.lexeme_eq_mark (by rw [semicolon]; rfl), semicolon] at here
      exact ⟨_, here, .ended⟩
  | case2 place noSemicolon ended => simp at step
  | case3 place noSemicolon goesOn opens diagnostic last failed => simp at step
  | case4 place noSemicolon goesOn opens value middle one diagnostic last failed ih => simp at step
  | case5 place noSemicolon goesOn opens value middle one others last more ih =>
      obtain ⟨rfl, rfl⟩ : value :: others = values ∧ last = after := by simpa using step
      obtain ⟨front, here, written⟩ := (reads.reads tape spelled _ _ _).mp ⟨middle, one, rfl⟩
      obtain ⟨behind, there, further⟩ := ih more
      rw [there, Lexeme.front_append (further.ne_nil reads.regular)] at written
      exact ⟨front ++ behind, by rw [here, there, List.append_assoc], .entry written further⟩
  | case6 place noSemicolon goesOn passed ih =>
      obtain ⟨front, here, further⟩ := ih step
      have noEntry : ¬ phrase.opens (tape.get place).kind := reads.opens ▸ passed
      refine ⟨(tape.get place).lexeme :: front, ?_, .passed noSemicolon noEntry further⟩
      rw [Tape.rest_of_goesOn goesOn, here, List.cons_append]

theorem body_of_written (reads : element.Reads phrase) (spelled : tape.Spelled)
    {front rest : List Lexeme} {values : List α} (written : BodyWritten phrase front values)
    {place : Nat} (here : tape.rest place = front ++ rest) :
    exists after, body element tape place = (.ok values, after) ∧ tape.rest after = rest := by
  -- along the way it is written; the tape has the same lexemes from each place on
  induction written generalizing place with
  | ended =>
      obtain ⟨same, left, -⟩ := spelled.eq_cons here
      exact ⟨place + 1, body_of_semicolon (congrArg Lexeme.kind same), left⟩
  | passed noSemicolon noEntry further ih =>
      obtain ⟨same, left, goesOn⟩ := spelled.eq_cons here
      obtain ⟨after, step, rfl⟩ := ih left
      refine ⟨after, ?_, rfl⟩
      rw [← same] at noSemicolon noEntry
      rw [body_of_passed noSemicolon goesOn (by rw [reads.opens]; exact noEntry), step]
  | @entry lexemes tail value values one further ih =>
      obtain ⟨lexeme, more, front, opens⟩ := reads.regular.starts _ _ _ one
      rw [List.append_assoc] at here
      obtain ⟨same, -, goesOn⟩ := spelled.eq_cons (front ▸ here)
      rw [← same] at opens
      rw [← Lexeme.front_append (further.ne_nil reads.regular) rest] at one
      obtain ⟨middle, step, left⟩ := (reads.reads tape spelled place value _).mpr ⟨lexemes, here, one⟩
      obtain ⟨after, others, rfl⟩ := ih left
      have noSemicolon : (tape.get place).kind ≠ .semicolon := by
        intro semicolon
        exact reads.regular.semicolon (semicolon ▸ opens)
      rw [← reads.opens] at opens
      exact ⟨after, body_of_entry noSemicolon goesOn opens step others, rfl⟩

theorem reads_body (reads : element.Reads phrase) :
    Plain.Reads (body element) (shapeOfAny (BodyWritten phrase)) := by
  intro tape spelled place values rest
  constructor
  · intro accepted
    rcases accepted with ⟨after, step, rfl⟩
    exact written_of_body reads spelled step
  · intro written
    rcases written with ⟨front, here, written⟩
    exact body_of_written reads spelled written here

theorem opens_iff (spelled : tape.Spelled) (place : Nat) :
    wires.opens (tape.get place).kind ↔ (Lexeme.front (tape.rest place)).any Phrase.wires.opens := by
  rw [Element.reads_wires.opens]
  -- at the end there is no lexeme, and the end opens no wire
  by_cases ended : (tape.get place).kind = .endOfInput
  · have none' : tape.rest place = [] := by
      cases here : tape.rest place with
      | nil => rfl
      | cons lexeme lexemes => exact absurd ended (spelled.eq_cons here).2.2
    rw [none', ended]
    simp [Phrase.wires, Lexeme.front]
  · rw [Tape.rest_of_goesOn ended]
    rfl

theorem SegmentsWritten.ne_nil {lexemes : List Lexeme} {values : List Wire}
    (written : SegmentsWritten lexemes values) : lexemes ≠ [] := by
  cases written with
  | one written => exact written.ne_nil Phrase.regular_wires
  | more written opens further => simp [written.ne_nil Phrase.regular_wires]

theorem written_of_segments (spelled : tape.Spelled) {place after : Nat} {values : List Wire}
    (step : segments tape place = (.ok values, after)) :
    (exists front, tape.rest place = front ++ tape.rest after ∧ SegmentsWritten front values) ∧
      ¬ (Lexeme.front (tape.rest after)).any Phrase.wires.opens := by
  fun_induction segments tape place generalizing values after with
  | case1 place diagnostic last failed => simp at step
  | case2 place one middle found opens diagnostic last failed ih => simp at step
  | case3 place one middle found opens others last more ih =>
      obtain ⟨rfl, rfl⟩ : one ++ others = values ∧ last = after := by simpa using step
      obtain ⟨front, here, written⟩ := written_of_body Element.reads_wires spelled found
      obtain ⟨⟨behind, there, further⟩, stops⟩ := ih more
      rw [opens_iff spelled, there, Lexeme.front_append (SegmentsWritten.ne_nil further)] at opens
      refine ⟨⟨front ++ behind, ?_, .more written opens further⟩, stops⟩
      rw [here, there, List.append_assoc]
  | case4 place one middle found done =>
      obtain ⟨rfl, rfl⟩ : one = values ∧ middle = after := by simpa using step
      obtain ⟨front, here, written⟩ := written_of_body Element.reads_wires spelled found
      rw [opens_iff spelled] at done
      exact ⟨⟨front, here, .one written⟩, done⟩

theorem segments_of_written (spelled : tape.Spelled) {front rest : List Lexeme} {values : List Wire}
    (written : SegmentsWritten front values)
    (stops : ¬ (Lexeme.front rest).any Phrase.wires.opens) {place : Nat}
    (here : tape.rest place = front ++ rest) :
    exists after, segments tape place = (.ok values, after) ∧ tape.rest after = rest := by
  induction written generalizing place with
  | one written =>
      obtain ⟨after, step, rfl⟩ := body_of_written Element.reads_wires spelled written here
      rw [← opens_iff spelled] at stops
      exact ⟨after, segments_of_one step stops, rfl⟩
  | more written opens further ih =>
      rw [List.append_assoc] at here
      obtain ⟨middle, step, left⟩ := body_of_written Element.reads_wires spelled written here
      rw [← Lexeme.front_append (SegmentsWritten.ne_nil further) rest, ← left, ← opens_iff spelled]
        at opens
      obtain ⟨after, others, rfl⟩ := ih left
      exact ⟨after, segments_of_more step opens others, rfl⟩

theorem reads_segments :
    Reads segments fun lexemes values rest =>
      shapeOfAny SegmentsWritten lexemes values rest ∧
        ¬ (Lexeme.front rest).any Phrase.wires.opens := by
  intro tape spelled place values rest
  constructor
  · intro accepted
    rcases accepted with ⟨after, step, rfl⟩
    exact written_of_segments spelled step
  · intro written
    rcases written with ⟨⟨front, here, written⟩, stops⟩
    exact segments_of_written spelled written stops here

theorem reads_statement {entries : Plain (List α)} {shape : Shape (List α)} (heading : Heading)
    (reads : Reads entries shape) :
    Reads (statement heading entries) fun lexemes values rest =>
      exists middle, lexemes = .mark (.keyword heading) :: .mark .colon :: middle ∧
        shape middle values rest := by
  apply (reads_mark_bind rfl (reads_mark_bind rfl reads)).congr
  intro lexemes values rest
  constructor
  · intro accepted
    rcases accepted with ⟨_, rfl, middle, rfl, behind⟩
    exact ⟨middle, rfl, behind⟩
  · intro written
    rcases written with ⟨middle, rfl, behind⟩
    exact ⟨_, rfl, middle, rfl, behind⟩

theorem reads_bodyStatement (heading : Heading) (reads : element.Reads phrase) :
    Reads (statement heading (body element))
      (shapeOfAny (StatementWritten heading (BodyWritten phrase))) := by
  apply (reads_statement heading (reads_body reads)).congr
  intro lexemes values rest
  constructor
  · intro accepted
    rcases accepted with ⟨_, rfl, front, rfl, written⟩
    exact ⟨_, rfl, .intro written⟩
  · intro written
    rcases written with ⟨_, rfl, written⟩
    cases written with
    | intro written => exact ⟨_, rfl, _, rfl, written⟩

theorem reads_wireStatement :
    Reads wireStatement fun lexemes values rest =>
      shapeOfAny (StatementWritten .wires SegmentsWritten) lexemes values rest ∧
        ¬ (Lexeme.front rest).any Phrase.wires.opens := by
  apply (reads_statement .wires reads_segments).congr
  intro lexemes values rest
  constructor
  · intro accepted
    rcases accepted with ⟨_, rfl, ⟨front, rfl, written⟩, stops⟩
    exact ⟨⟨_, rfl, .intro written⟩, stops⟩
  · intro written
    rcases written with ⟨⟨_, rfl, written⟩, stops⟩
    cases written with
    | intro written => exact ⟨_, rfl, ⟨_, rfl, written⟩, stops⟩

theorem reads_statements :
    Reads Plain.program fun lexemes program rest =>
      exists inputs outputs parts wires,
        lexemes = inputs ++ outputs ++ parts ++ wires ++ rest ∧
        StatementWritten .inputs (BodyWritten Phrase.ports) inputs program.inputs ∧
        StatementWritten .outputs (BodyWritten Phrase.ports) outputs program.outputs ∧
        StatementWritten .parts (BodyWritten Phrase.parts) parts program.parts ∧
        StatementWritten .wires SegmentsWritten wires program.wires ∧
        ¬ (Lexeme.front rest).any Phrase.wires.opens := by
  refine ((reads_bodyStatement .inputs Element.reads_ports).bind fun inputs =>
    (reads_bodyStatement .outputs Element.reads_ports).bind fun outputs =>
      (reads_bodyStatement .parts Element.reads_parts).bind fun parts =>
        reads_wireStatement.bind fun wires =>
          reads_pure ({ inputs, outputs, parts, wires } : Netlist.Program)).congr ?_
  intro lexemes program rest
  constructor
  · intro accepted
    rcases accepted with ⟨_, _, ⟨inputs, rfl, first⟩, _, _, ⟨outputs, rfl, second⟩, _, _,
      ⟨parts, rfl, third⟩, _, _, ⟨⟨wires, rfl, fourth⟩, stops⟩, rfl, rfl⟩
    exact ⟨inputs, outputs, parts, wires, by simp only [List.append_assoc], first, second, third,
      fourth, stops⟩
  · intro written
    rcases written with ⟨inputs, outputs, parts, wires, rfl, first, second, third, fourth, stops⟩
    exact ⟨_, _, ⟨inputs, by simp only [List.append_assoc], first⟩, _, _, ⟨outputs, rfl, second⟩,
      _, _, ⟨parts, rfl, third⟩, _, _, ⟨⟨wires, rfl, fourth⟩, stops⟩, rfl, rfl⟩

theorem reads_program {program : Netlist.Program} (spelled : tape.Spelled) (place : Nat) :
    (exists after, Plain.program tape place = (.ok program, after)) ↔
      ProgramWritten (tape.rest place) program := by
  constructor
  · intro accepted
    rcases accepted with ⟨after, step⟩
    obtain ⟨inputs, outputs, parts, wires, whole, first, second, third, fourth, stops⟩ :=
      (reads_statements tape spelled place _ _).mp ⟨after, step, rfl⟩
    exact whole ▸ .intro first second third fourth stops
  · intro written
    generalize whole : tape.rest place = lexemes at written
    cases written with
    | @intro _ _ _ _ rest _ first second third fourth stops =>
        obtain ⟨after, step, -⟩ := (reads_statements tape spelled place program rest).mpr
          ⟨_, _, _, _, whole, first, second, third, fourth, stops⟩
        exact ⟨after, step⟩

end Plain

theorem parse_eq_plain (text : String) :
    Program.parse text = (Plain.program (Tape.ofText text) 0).1.mapError .grammar := by
  have agree := Rule.simulates_program (Tape.describes_ofText text) 0 _
    (.inl (Cursor.past_ofSource (Feed.ofText text)))
  rw [Program.parse, Reading.ofText]
  generalize Plain.program (Tape.ofText text) 0 = plain at agree ⊢
  generalize Grammar.program (Cursor.ofSource (Feed.ofText text)) = result at agree ⊢
  cases agree with
  | ok stands => rfl
  | error past => rfl

theorem parse_eq_ok_iff_plain (text : String) (program : Program) :
    Program.parse text = .ok program ↔
      exists after, Plain.program (Tape.ofText text) 0 = (.ok program, after) := by
  rw [parse_eq_plain]
  cases Plain.program (Tape.ofText text) 0 with
  | mk result after => cases result <;> simp [Except.mapError]

theorem parse_eq_ok_iff_meantOf (text : String) (program : Program) :
    Program.parse text = .ok program ↔ ProgramWritten (Lexeme.meantOf text.toList) program := by
  rw [parse_eq_ok_iff_plain, Plain.reads_program (Tape.spelled_ofText text),
    ← Token.lexemes_significant]
  rfl

theorem parse_eq_ok_of_written {text : String} {lexemes : List Lexeme} {program : Program}
    (same : Lexeme.meantOf text.toList = lexemes) (written : ProgramWritten lexemes program) :
    Program.parse text = .ok program :=
  (parse_eq_ok_iff_meantOf text program).mpr (same ▸ written)

/-- A text is parsed as a program just if its significant tokens are written like that program. -/
theorem parse_eq_ok_iff (text : String) (program : Program) :
    Program.parse text = .ok program ↔
      ProgramWritten ((Token.significant text).map Token.lexeme) program :=
  (parse_eq_ok_iff_plain text program).trans
    (Plain.reads_program (Tape.spelled_ofText text) 0)

end Netlist
