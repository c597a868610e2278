import Netlist.Proofs.Insertion
import Netlist.Proofs.RoundTrip.Followed
import Netlist.Proofs.Session

set_option autoImplicit false

namespace Netlist

open Lexeme (isSignificant)

def Call.heading : Call -> Heading
  | .statement heading => heading
  | .program => .inputs

namespace Answer

def call : Answer -> Call
  | .statement found => .statement found.heading
  | .program _ => .program

def render : Answer -> String
  | .statement found => found.render
  | .program found => found.render

def lexemes : Answer -> List Lexeme
  | .statement found => found.lexemes
  | .program found => found.lexemes

def WellFormed : Answer -> Prop
  | .statement found => found.WellFormed
  | .program found => found.WellFormed

theorem meantOf_render {answer : Answer} (wellFormed : answer.WellFormed) (text : List Char) :
    Lexeme.meantOf (answer.render.toList ++ text) =
      answer.lexemes.filter isSignificant ++ Lexeme.meantOf text := by
  cases answer with
  | statement found => exact Statement.meantOf_render wellFormed text
  | program found => exact Program.meantOf_render wellFormed text

theorem front_lexemes (answer : Answer) (rest : List Lexeme) :
    Lexeme.front (answer.lexemes.filter isSignificant ++ rest) =
      some (.keyword answer.call.heading) := by
  cases answer with
  | statement found => cases found <;> rfl
  | program found => rfl

end Answer

section Calls

variable {tape : Tape} {place : Nat}

open Plain (Reads Shape)

theorem Plain.Reads.bind_pure {α β : Type} {rule : Plain α} {shape : Shape α}
    (reads : Reads rule shape) (result : α -> β) (spelled : tape.Spelled) {value : α}
    {rest : List Lexeme} (here : shape (tape.rest place) value rest) :
    exists after,
      (rule >>= fun value => pure (result value)) tape place = (.ok (result value), after) ∧
        tape.rest after = rest := by
  obtain ⟨after, step, left⟩ := (reads tape spelled place value rest).mpr here
  refine ⟨after, ?_, left⟩
  rw [bind_apply, step]
  rfl

theorem Answer.plain_call {answer : Answer} (wellFormed : answer.WellFormed)
    (spelled : tape.Spelled) {rest : List Lexeme}
    (noWire : ¬ (Lexeme.front rest).any Phrase.wires.opens)
    (here : tape.rest place = answer.lexemes.filter isSignificant ++ rest) :
    exists after, answer.call.plain tape place = (.ok answer, after) ∧ tape.rest after = rest := by
  match answer with
  | .statement (.inputs entries) =>
      exact (Plain.reads_bodyStatement .inputs Plain.Element.reads_ports).bind_pure _ spelled
        ⟨_, here, Statement.written_inputs wellFormed⟩
  | .statement (.outputs entries) =>
      exact (Plain.reads_bodyStatement .outputs Plain.Element.reads_ports).bind_pure _ spelled
        ⟨_, here, Statement.written_outputs wellFormed⟩
  | .statement (.parts entries) =>
      exact (Plain.reads_bodyStatement .parts Plain.Element.reads_parts).bind_pure _ spelled
        ⟨_, here, Statement.written_parts entries⟩
  | .statement (.wires entries) =>
      exact Plain.reads_wireStatement.bind_pure _ spelled
        ⟨⟨_, here, Statement.written_wires wellFormed⟩, noWire⟩
  | .program found =>
      refine Plain.reads_statements.bind_pure _ spelled ⟨_, _, _, _, ?_,
        Statement.written_inputs wellFormed.inputs, Statement.written_outputs wellFormed.outputs,
        Statement.written_parts found.parts, Statement.written_wires wellFormed.wires, noWire⟩
      rw [here, lexemes, Program.filter_lexemes]

theorem Tape.Spelled.get_of_rest (spelled : tape.Spelled) (nothing : tape.rest place = []) :
    tape.get place = Token.ending tape.finish := by
  by_cases inside : place < tape.tokens.length
  · rw [Tape.rest_of_goesOn (spelled.ne_endOfInput inside)] at nothing
    simp at nothing
  · exact Tape.get_of_length_le (Nat.le_of_not_lt inside)

theorem Plain.statement_bind_of_ne {α β : Type} {heading : Heading} {entries : Plain (List α)}
    {continuation : List α -> Plain β} (other : (tape.get place).kind ≠ .keyword heading) :
    (statement heading entries >>= continuation) tape place =
      (.error (.unexpectedToken (tape.get place) heading.word), place + 1) := by
  rw [bind_apply, statement, expect_bind_of_ne other]
  rfl

theorem Call.plain_of_end (call : Call) (spelled : tape.Spelled) (nothing : tape.rest place = []) :
    call.plain tape place =
        (.error (.unexpected "" call.heading.word tape.finish), place + 1) ∧
      tape.rest (place + 1) = [] := by
  have here := spelled.get_of_rest nothing
  have missing : Diagnostic.unexpectedToken (tape.get place) call.heading.word =
      .unexpected "" call.heading.word tape.finish := by
    rw [here]
    rfl
  have other (heading : Heading) : (tape.get place).kind ≠ .keyword heading := by
    rw [here]
    simp [Token.ending]
  refine ⟨?_, ?_⟩
  · rw [← missing]
    cases call with
    | statement heading => cases heading <;> exact Plain.statement_bind_of_ne (other _)
    | program =>
        rw [plain, Plain.program, Plain.bind_assoc]
        exact Plain.statement_bind_of_ne (other _)
  · rw [Tape.rest, List.map_eq_nil_iff, List.drop_eq_nil_iff] at nothing ⊢
    omega

end Calls

structure Passage where
  layout : String := ""
  answer : Answer

namespace Passage

def ofProgram (program : Program) : Passage :=
  { answer := .program program }

def text (passages : List Passage) : String :=
  String.join (passages.map fun passage => passage.layout ++ passage.answer.render)

def lexemes (passages : List Passage) : List Lexeme :=
  passages.flatMap fun passage => passage.answer.lexemes.filter isSignificant

structure WellFormed (passage : Passage) : Prop where
  layout : Layout passage.layout
  answer : passage.answer.WellFormed

theorem meantOf_text {passages : List Passage}
    (wellFormed : ∀ passage ∈ passages, passage.WellFormed) (ending : List Char) :
    Lexeme.meantOf ((text passages).toList ++ ending) = lexemes passages ++ Lexeme.meantOf ending := by
  rw [text, String.toList_join, List.flatMap_map]
  induction passages with
  | nil => rfl
  | cons passage passages ih =>
      obtain ⟨here, others⟩ := List.forall_mem_cons.mp wellFormed
      rw [List.flatMap_cons, String.toList_append, List.append_assoc, List.append_assoc,
        Lexeme.meantOf_of_skipped here.layout.skipped, Answer.meantOf_render here.answer, ih others,
        lexemes, lexemes, List.flatMap_cons, List.append_assoc]

theorem noWire_lexemes (passages : List Passage) :
    ¬ (Lexeme.front (lexemes passages)).any Phrase.wires.opens := by
  cases passages with
  | nil => simp [lexemes, Lexeme.front]
  | cons passage passages =>
      rw [lexemes, List.flatMap_cons, Answer.front_lexemes]
      simp [Phrase.wires]

end Passage

section Session

variable {σ : Type} [Source σ] {tape : Tape}
  {steps : List (Except Diagnostic Answer × Cursor σ)} {place : Nat}

theorem Tape.Follows.exists_of_cons {call : Call} {calls : List Call}
    (follows : tape.Follows place (call :: calls) steps) {result : Except Diagnostic Answer}
    {after : Nat} (brings : call.plain tape place = (result, after)) :
    exists cursor others, steps = (result, cursor) :: others ∧ tape.Follows after calls others := by
  cases follows with
  | call same stops ahead further =>
      obtain ⟨rfl, rfl⟩ := Prod.mk.inj (same.symm.trans brings)
      exact ⟨_, _, rfl, further⟩

theorem Tape.Follows.results_of_end {calls : List Call} (spelled : tape.Spelled)
    (follows : tape.Follows place calls steps) (nothing : tape.rest place = []) :
    steps.map Prod.fst =
      calls.map fun call => .error (.unexpected "" call.heading.word tape.finish) := by
  induction calls generalizing place steps with
  | nil =>
      cases follows with
      | done => rfl
  | cons call calls ih =>
      obtain ⟨brings, behind⟩ := call.plain_of_end spelled nothing
      obtain ⟨cursor, others, rfl, further⟩ := follows.exists_of_cons brings
      rw [List.map_cons, List.map_cons, ih further behind]

theorem Tape.Follows.results_of_passages {passages : List Passage} {calls : List Call}
    (spelled : tape.Spelled) (wellFormed : ∀ passage ∈ passages, passage.WellFormed)
    (follows : tape.Follows place (passages.map (fun passage => passage.answer.call) ++ calls) steps)
    (here : tape.rest place = Passage.lexemes passages) :
    steps.map Prod.fst = passages.map (fun passage => .ok passage.answer) ++
      calls.map fun call => .error (.unexpected "" call.heading.word tape.finish) := by
  induction passages generalizing place steps with
  | nil => exact follows.results_of_end spelled here
  | cons passage passages ih =>
      obtain ⟨first, others⟩ := List.forall_mem_cons.mp wellFormed
      rw [Passage.lexemes, List.flatMap_cons] at here
      obtain ⟨after, brings, behind⟩ := Answer.plain_call first.answer spelled
        (Passage.noWire_lexemes passages) here
      obtain ⟨cursor, rest, rfl, further⟩ := follows.exists_of_cons brings
      rw [List.map_cons, List.map_cons, List.cons_append, ih others further behind]

end Session

def Cursor.results {σ : Type} [Source σ] (cursor : Cursor σ) (calls : List Call) :
    List (Except Diagnostic Answer) :=
  (cursor.session calls).map Prod.fst

theorem Passage.results_text {passages : List Passage} {ending : String}
    (wellFormed : ∀ passage ∈ passages, passage.WellFormed)
    (noMeaning : Token.significant ending = []) (calls : List Call) :
    (Cursor.ofSource (Feed.ofText (text passages ++ ending))).results
        (passages.map (fun passage => passage.answer.call) ++ calls) =
      passages.map (fun passage => .ok passage.answer) ++
        calls.map fun call => .error (.unexpected "" call.heading.word
          ((text passages ++ ending).toList.foldl Position.after {})) := by
  have follows := follows_of_at (Tape.describes_ofText (text passages ++ ending))
    (.inl (Cursor.past_ofSource _)) (passages.map (fun passage => passage.answer.call) ++ calls)
  have here : (Tape.ofText (text passages ++ ending)).rest 0 = lexemes passages := by
    have whole := meantOf_text wellFormed ending.toList
    rw [Lexeme.meantOf_of_noMeaning noMeaning, List.append_nil, ← String.toList_append,
      ← Token.lexemes_significant] at whole
    exact whole
  exact follows.results_of_passages (Tape.spelled_ofText _) wellFormed here

theorem layout_empty : Layout "" where
  noMeaning := by decide +kernel
  noComment := by decide +kernel

/-- Calls in turn bring what is printed in turn, with any layout in between. Behind the last of it
each call fails for want of its heading. -/
theorem results_passages :
    (∀ passages ending, (∀ passage ∈ passages, passage.WellFormed) ->
      Token.significant ending = [] -> ∀ calls,
        (Cursor.ofSource (Feed.ofText (Passage.text passages ++ ending))).results
            (passages.map (fun passage => passage.answer.call) ++ calls) =
          passages.map (fun passage => .ok passage.answer) ++
            calls.map fun call => .error (.unexpected "" call.heading.word
              ((Passage.text passages ++ ending).toList.foldl Position.after {}))) ∧
    ∀ programs : List Program, (∀ program ∈ programs, program.WellFormed) ->
      (Cursor.ofSource (Feed.ofText (String.join (programs.map Program.render)))).results
          (programs.map fun _ => .program) =
        programs.map fun program => .ok (.program program) := by
  refine ⟨fun passages ending wellFormed noMeaning => Passage.results_text wellFormed noMeaning, ?_⟩
  intro programs wellFormed
  have alone : ∀ passage ∈ programs.map Passage.ofProgram, passage.WellFormed := by
    simpa using fun program member => ⟨layout_empty, wellFormed program member⟩
  have whole := Passage.results_text alone layout_empty.noMeaning []
  simpa [Passage.text, Passage.ofProgram, Function.comp_def, Answer.call, Answer.render] using whole

theorem results_passages_wiresFirst :
    (Cursor.ofSource (Feed.ofText
        "Wires: a -> b;//\nInputs:;\nOutputs:;\nParts:;\nWires: a -> b;\n//")).results
        [.statement .wires, .program, .statement .parts] =
      [.ok (.statement (.wires [{ source := { name := "a" }, target := { name := "b" } }])),
        .ok (.program { wires := [{ source := { name := "a" }, target := { name := "b" } }] }),
        .error (.unexpected "" "Parts" { line := 6, column := 3 })] ∧
    (Cursor.ofSource (Feed.ofText (String.join [Program.render {}, Program.render {}]))).results
        [.program, .program] = [.ok (.program {}), .ok (.program {})] := by
  let wire : Wire := { source := { name := "a" }, target := { name := "b" } }
  let passages : List Passage :=
    [{ answer := .statement (.wires [wire]) },
      { layout := "//\n", answer := .program { wires := [wire] } }]
  have parsed : Program.parse "Inputs:;Outputs:;Parts:;Wires:a->b;" = .ok { wires := [wire] } := by
    decide +kernel
  have program := Program.wellFormed_of_parse parsed
  have comment : Layout "//\n" := ⟨by decide +kernel, by decide +kernel⟩
  have wellFormed : ∀ passage ∈ passages, passage.WellFormed := by
    simp only [passages, List.forall_mem_cons, List.not_mem_nil, false_implies, implies_true,
      and_true]
    exact ⟨⟨layout_empty, program.wires⟩, ⟨comment, program⟩⟩
  have text : Passage.text passages ++ "//" =
      "Wires: a -> b;//\nInputs:;\nOutputs:;\nParts:;\nWires: a -> b;\n//" := by
    decide +kernel
  have finish : (Passage.text passages ++ "//").toList.foldl Position.after {} =
      { line := 6, column := 3 } := by
    rw [text]
    decide +kernel
  have empty : Program.WellFormed {} := by constructor <;> simp
  constructor
  · have whole := results_passages.1 passages "//" wellFormed (by decide +kernel)
      [.statement .parts]
    rwa [finish, text] at whole
  · exact results_passages.2 [{}, {}] (by simpa using empty)

end Netlist
