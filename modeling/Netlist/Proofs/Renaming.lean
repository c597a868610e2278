import Netlist.Proofs.Diagnosis.Statement
import Netlist.Proofs.Language.Program
import Netlist.Proofs.Lexing.Renaming
import Netlist.Proofs.RoundTrip.Canonical

set_option autoImplicit false

namespace Netlist

namespace Renaming

def port (names : Renaming) (port : Port) : Port :=
  { port with id := names.apply port.id }

def part (names : Renaming) (part : Part) : Part :=
  { id := names.apply part.id, module := names.apply part.module }

def endpoint (names : Renaming) (endpoint : Endpoint) : Endpoint :=
  { endpoint with
    name := names.apply endpoint.name, selector := endpoint.selector.map names.apply }

def wire (names : Renaming) (wire : Wire) : Wire :=
  { source := if wire.isConstant then wire.source else names.endpoint wire.source
    target := names.endpoint wire.target }

def program (names : Renaming) (program : Program) : Program :=
  { inputs := program.inputs.map names.port
    outputs := program.outputs.map names.port
    parts := program.parts.map names.part
    wires := program.wires.map names.wire }

variable (names : Renaming)

theorem line_finish (text : String) :
    (Tape.ofText (names.text text)).finish.line = (Tape.ofText text).finish.line := by
  rw [Tape.ofText, Tape.ofText, Position.foldl_after, Position.foldl_after, Position.behind,
    Position.behind]
  simp only
  rw [names.toList_text, names.count_spelling, Lexeme.spelling_ofText]
  intro lexeme member name
  have spells := Lexeme.spells_of_mem_ofText member
  rw [name] at spells
  exact spells.isName

theorem renames_get (text : String) (place : Nat) :
    names.Renames ((Tape.ofText text).get place) ((Tape.ofText (names.text text)).get place) := by
  have significant : List.Forall₂ names.Renames (Tape.ofText text).tokens
      (Tape.ofText (names.text text)).tokens := by
    refine List.rel_filter (fun token other renames => ?_) (names.forall₂_scan text)
    simp only [Token.isSignificant, renames.kind]
  have length := significant.length_eq
  by_cases inside : place < (Tape.ofText text).tokens.length
  · have here := List.Forall₂.get significant inside (length ▸ inside)
    simpa [Tape.get, List.getElem?_eq_getElem, inside, length ▸ inside] using here
  · rw [Tape.get_of_length_le (Nat.le_of_not_lt inside),
      Tape.get_of_length_le (length ▸ Nat.le_of_not_lt inside)]
    exact ⟨rfl, names.line_finish text⟩

end Renaming

namespace Plain

variable (names : Renaming) (tape other : Tape) {α β γ δ : Type}

inductive Reblamed : Diagnostic -> Diagnostic -> Prop where
  | unexpected (place : Nat) (expected : String) :
      Reblamed (.unexpectedToken (tape.get place) expected)
        (.unexpectedToken (other.get place) expected)
  | pin (place : Nat) (digits : (tape.get place).kind = .digits) :
      Reblamed (.pinToken (tape.get place)) (.pinToken (other.get place))

inductive Renamed (same : α -> β -> Prop) :
    Except Diagnostic α × Nat -> Except Diagnostic β × Nat -> Prop where
  | ok {value : α} {result : β} {place : Nat} (alike : same value result) :
      Renamed same (.ok value, place) (.ok result, place)
  | error {diagnostic blame : Diagnostic} {place : Nat}
      (reblamed : Reblamed tape other diagnostic blame) :
      Renamed same (.error diagnostic, place) (.error blame, place)

/-- On two tapes that differ in names only, the rules come to the same but for those names. -/
def Renames (same : α -> β -> Prop) (rule : Plain α) (counterpart : Plain β) : Prop :=
  ∀ place, Renamed tape other same (rule tape place) (counterpart other place)

def Abreast (token counterpart : Token) : Prop :=
  exists place, token = tape.get place ∧ counterpart = other.get place

variable {names tape other}

theorem Renamed.mono {same alike : α -> β -> Prop} {outcome : Except Diagnostic α × Nat}
    {result : Except Diagnostic β × Nat} (renamed : Renamed tape other same outcome result)
    (weaken : ∀ value counterpart, same value counterpart -> alike value counterpart) :
    Renamed tape other alike outcome result := by
  cases renamed with
  | ok same => exact .ok (weaken _ _ same)
  | error reblamed => exact .error reblamed

theorem Renamed.bind {same : α -> β -> Prop} {alike : γ -> δ -> Prop} {rule : Plain α}
    {counterpart : Plain β} {continuation : α -> Plain γ} {behind : β -> Plain δ} {place : Nat}
    (first : Renamed tape other same (rule tape place) (counterpart other place))
    (second : ∀ value result middle, rule tape place = (.ok value, middle) -> same value result ->
      Renamed tape other alike (continuation value tape middle) (behind result other middle)) :
    Renamed tape other alike ((rule >>= continuation) tape place)
      ((counterpart >>= behind) other place) := by
  rw [bind_apply, bind_apply]
  generalize rule tape place = outcome at first second
  generalize counterpart other place = result at first
  cases first with
  | ok same => exact second _ _ _ rfl same
  | error reblamed => exact .error reblamed

theorem Renames.bind {same : α -> β -> Prop} {alike : γ -> δ -> Prop} {rule : Plain α}
    {counterpart : Plain β} {continuation : α -> Plain γ} {behind : β -> Plain δ}
    (first : Renames tape other same rule counterpart)
    (second : ∀ value result, same value result ->
      Renames tape other alike (continuation value) (behind result)) :
    Renames tape other alike (rule >>= continuation) (counterpart >>= behind) :=
  fun place => (first place).bind fun value result middle _ same => second value result same middle

theorem renames_pure {same : α -> β -> Prop} {value : α} {result : β} (alike : same value result) :
    Renames tape other same (pure value) (pure result) :=
  fun _ => .ok alike

theorem Renames.bind_pure {same : α -> β -> Prop} {rule : Plain α} {counterpart : Plain β}
    (first : Renames tape other same rule counterpart) {alike : γ -> δ -> Prop} {finish : α -> γ}
    {finish' : β -> δ} (agree : ∀ value result, same value result ->
      alike (finish value) (finish' result)) :
    Renames tape other alike (rule >>= fun value => pure (finish value))
      (counterpart >>= fun result => pure (finish' result)) :=
  first.bind fun value result same => renames_pure (agree value result same)

theorem renames_take : Renames tape other (Abreast tape other) take take :=
  fun place => .ok ⟨place, rfl, rfl⟩

theorem renames_unexpected {same : α -> β -> Prop} {token counterpart : Token}
    (abreast : Abreast tape other token counterpart) (expected : String) :
    Renames tape other same (fail (.unexpectedToken token expected))
      (fail (.unexpectedToken counterpart expected)) := by
  obtain ⟨place, rfl, rfl⟩ := abreast
  exact fun _ => .error (.unexpected place expected)

variable (renames : ∀ place, names.Renames (tape.get place) (other.get place))

include renames

theorem Abreast.renamed {token counterpart : Token}
    (abreast : Abreast tape other token counterpart) :
    names.Renames token counterpart := by
  obtain ⟨place, rfl, rfl⟩ := abreast
  exact renames place

theorem renames_expect (kind : Token.Kind) :
    Renames tape other
      (fun token counterpart => Abreast tape other token counterpart ∧ token.kind = kind)
      (expect kind) (expect kind) := by
  refine renames_take.bind fun token counterpart abreast => ?_
  rw [(abreast.renamed renames).kind]
  by_cases same : token.kind = kind
  · rw [if_pos same, if_pos same]
    exact renames_pure ⟨abreast, same⟩
  · rw [if_neg same, if_neg same]
    exact renames_unexpected abreast _

theorem renames_optional {same : α -> β -> Prop} {rule : Plain α} {counterpart : Plain β}
    {absent : α} {missing : β} (kind : Token.Kind)
    (chosen : Renames tape other same rule counterpart) (alike : same absent missing) :
    Renames tape other same (optional kind rule absent) (optional kind counterpart missing) := by
  intro place
  have sameKind := (renames place).kind
  by_cases present : (tape.get place).kind = kind
  · rw [optional_of_eq present, optional_of_eq (sameKind.trans present)]
    exact chosen (place + 1)
  · rw [optional_of_ne present, optional_of_ne (sameKind ▸ present)]
    exact .ok alike

section Elements

theorem renames_name :
    Renames tape other (fun token counterpart => counterpart.text = names.apply token.text)
      (expect .name) (expect .name) := by
  intro place
  refine (renames_expect renames .name place).mono fun token counterpart ⟨abreast, name⟩ => ?_
  exact (abreast.renamed renames).text.trans (if_pos name)

theorem renames_pin : Renames tape other Eq pin pin := by
  refine (renames_expect renames .digits).bind fun token counterpart ⟨abreast, digits⟩ => ?_
  have text : counterpart.text = token.text :=
    (abreast.renamed renames).text.trans (names.word_of_ne (by simp [digits]) _)
  rw [text]
  obtain ⟨place, rfl, rfl⟩ := abreast
  dsimp only
  split_ifs
  · exact renames_pure rfl
  · exact fun _ => .error (.pin place digits)

theorem renames_width : Renames tape other Eq width width := by
  refine (renames_pin renames).bind ?_
  rintro value _ rfl
  exact (renames_expect renames .rightBracket).bind_pure fun _ _ _ => rfl

theorem renames_port :
    Renames tape other (fun port counterpart => counterpart = names.port port) port port := by
  refine (renames_name renames).bind fun id counterpart text => ?_
  refine (renames_optional renames .leftBracket (renames_width renames) rfl).bind_pure ?_
  rintro pins _ rfl
  simp [text, Renaming.port]

theorem renames_part :
    Renames tape other (fun part counterpart => counterpart = names.part part) part part := by
  refine (renames_name renames).bind fun id counterpart text => ?_
  refine (renames_name renames).bind_pure fun module counterpart text' => ?_
  simp [text, text', Renaming.part]

theorem renames_pinsFrom (first : UInt32) :
    Renames tape other Eq (pinsFrom first) (pinsFrom first) := by
  refine renames_take.bind fun token counterpart abreast => ?_
  rw [(abreast.renamed renames).kind]
  split_ifs with bracket colon
  · exact renames_pure rfl
  · refine (renames_pin renames).bind ?_
    rintro last _ rfl
    exact (renames_expect renames .rightBracket).bind_pure fun _ _ _ => rfl
  · exact renames_unexpected abreast _

theorem renames_pins : Renames tape other Eq pins pins := by
  refine (renames_pin renames).bind ?_
  rintro first _ rfl
  exact renames_pinsFrom renames first

theorem renames_selector :
    Renames tape other (fun selector counterpart => counterpart = selector.map names.apply)
      selector selector :=
  (renames_name renames).bind_pure fun token counterpart text => by simp [text]

theorem renames_endpoint (name : String) :
    Renames tape other
      (fun endpoint counterpart => endpoint.name = name ∧ counterpart = names.endpoint endpoint)
      (endpoint name) (endpoint (names.apply name)) := by
  refine (renames_optional renames .dot (renames_selector renames) rfl).bind ?_
  rintro selector _ rfl
  refine (renames_optional renames .leftBracket (renames_pins renames) rfl).bind_pure ?_
  rintro pins _ rfl
  exact ⟨rfl, rfl⟩

theorem renames_wireTarget :
    Renames tape other (fun target counterpart => counterpart = names.endpoint target)
      wireTarget wireTarget := by
  refine (renames_name renames).bind fun token counterpart text => ?_
  rw [text]
  exact fun place => (renames_endpoint renames token.text place).mono fun _ _ alike => alike.2

variable (spelled : tape.Spelled)

include spelled

theorem renames_wireSource :
    Renames tape other (fun source counterpart => ∀ target,
        names.wire { source, target } = { source := counterpart, target := names.endpoint target })
      wireSource wireSource := by
  refine renames_take.bind fun token counterpart abreast => ?_
  have renamed := abreast.renamed renames
  rw [renamed.kind, renamed.text]
  have spells (goesOn : token.kind ≠ .endOfInput) : Lexeme.Spells token.kind token.text.toList := by
    obtain ⟨place, rfl, rfl⟩ := abreast
    exact spelled.rest place _ (Tape.rest_of_goesOn goesOn ▸ List.mem_cons_self)
  split_ifs with digits name
  · have isNumber := (digits ▸ spells (by simp [digits])).isNumber
    rw [names.word_of_ne (by simp [digits])]
    refine renames_pure fun target => ?_
    rw [Renaming.wire, if_pos (Wire.isConstant_of_isNumber isNumber)]
  · have isName := (name ▸ spells (by simp [name])).isName
    rw [Renaming.word, if_pos name]
    intro place
    refine (renames_endpoint renames token.text place).mono ?_
    rintro source _ ⟨sameName, rfl⟩ target
    rw [Renaming.wire, if_neg (Wire.not_isConstant_of_isName (sameName ▸ isName))]
  · exact renames_unexpected abreast _

theorem renames_wire :
    Renames tape other (fun wire counterpart => counterpart = names.wire wire) wire wire := by
  refine (renames_wireSource renames spelled).bind fun source counterpart alike => ?_
  refine (renames_expect renames .arrow).bind fun _ _ _ => ?_
  refine (renames_wireTarget renames).bind_pure ?_
  rintro target _ rfl
  exact (alike target).symm

end Elements

section Statements

theorem renamed_body {element : Element α} {change : α -> α}
    (one : Renames tape other (fun value counterpart => counterpart = change value)
      element.rule element.rule) (place : Nat) :
    Renamed tape other (fun values counterparts => counterparts = values.map change)
      (body element tape place) (body element other place) := by
  have sameKind := (renames place).kind
  by_cases semicolon : (tape.get place).kind = .semicolon
  · rw [body_of_semicolon semicolon, body_of_semicolon (sameKind.trans semicolon)]
    exact .ok rfl
  · by_cases ended : (tape.get place).kind = .endOfInput
    · rw [body_of_end ended, body_of_end (sameKind.trans ended)]
      exact .error (.unexpected place _)
    · have inside := Tape.lt_of_goesOn ended
      by_cases opens : element.opens (tape.get place).kind
      · rw [body_of_opens semicolon ended opens,
          body_of_opens (sameKind ▸ semicolon) (sameKind ▸ ended) (sameKind ▸ opens)]
        refine (one place).bind fun value _ middle found same => ?_
        have further := lt_of_moves element.moves found
        refine (renamed_body one middle).bind fun values _ after _ same' => ?_
        rw [same, same']
        exact .ok rfl
      · have there : body element other place = body element other (place + 1) :=
          body_of_passed (sameKind ▸ semicolon) (sameKind ▸ ended) (sameKind ▸ opens)
        rw [body_of_passed semicolon ended opens, there]
        exact renamed_body one (place + 1)
termination_by tape.tokens.length - place

variable (spelled : tape.Spelled)

include spelled

theorem renamed_segments (place : Nat) :
    Renamed tape other (fun values counterparts => counterparts = values.map names.wire)
      (segments tape place) (segments other place) := by
  rw [segments_eq]
  refine (renamed_body renames (renames_wire renames spelled) place).bind ?_
  rintro values _ middle found rfl
  have further := body_ok_lt found
  rw [segmentsBehind, segmentsBehind, (renames middle).kind]
  by_cases opens : wires.opens (tape.get middle).kind
  · have inside := lt_of_opensWire opens
    rw [if_pos opens, if_pos opens]
    refine (renamed_segments middle).bind ?_
    rintro more _ after _ rfl
    exact .ok (List.map_append ..).symm
  · rw [if_neg opens, if_neg opens]
    exact .ok rfl
termination_by tape.tokens.length - place

omit spelled in
theorem renames_statement (heading : Heading) {change : α -> α} {entries : Plain (List α)}
    (each : Renames tape other (fun values counterparts => counterparts = values.map change)
      entries entries) :
    Renames tape other (fun values counterparts => counterparts = values.map change)
      (statement heading entries) (statement heading entries) :=
  (renames_expect renames _).bind fun _ _ _ => (renames_expect renames _).bind fun _ _ _ => each

theorem renames_program :
    Renames tape other (fun program counterpart => counterpart = names.program program)
      program program := by
  have ports : Renames tape other (fun values counterparts => counterparts = values.map names.port)
      (body ports) (body ports) :=
    renamed_body renames (renames_port renames)
  have parts : Renames tape other (fun values counterparts => counterparts = values.map names.part)
      (body parts) (body parts) :=
    renamed_body renames (renames_part renames)
  refine (renames_statement renames .inputs ports).bind ?_
  rintro inputs _ rfl
  refine (renames_statement renames .outputs ports).bind ?_
  rintro outputs _ rfl
  refine (renames_statement renames .parts parts).bind ?_
  rintro parts _ rfl
  refine (renames_statement renames .wires (renamed_segments renames spelled)).bind_pure ?_
  rintro wires _ rfl
  rfl

end Statements

end Plain

theorem Tape.get_mem_scan (text : String) (place : Nat) :
    (ofText text).get place ∈ Token.scan text := by
  by_cases inside : place < (ofText text).tokens.length
  · have member : (ofText text).get place ∈ Token.significant text := by
      rw [get, List.getElem?_eq_getElem inside]
      exact List.getElem_mem inside
    exact (List.mem_filter.mp member).1
  · obtain ⟨tokens, whole, -⟩ := Lexer.tokens_eq_append (Lexer.faces_ofText text)
    rw [get_of_length_le (Nat.le_of_not_lt inside), Lexer.scan_eq_tokens, whole]
    exact List.mem_append_right _ List.mem_cons_self

/-- With the names of a text replaced, the program comes out with its names replaced, and a failure
says the same in the same line. If a name is what was found, the other name is. -/
theorem parse_rename (names : Renaming) (text : String) :
    (∀ program, Program.parse text = .ok program ->
      Program.parse (names.text text) = .ok (names.program program)) ∧
    (∀ found expected position,
      Program.parse text = .error (.grammar (.unexpected found expected position)) ->
        exists culprit column,
          culprit ∈ Token.scan text ∧ culprit.text = found ∧ culprit.position = position ∧
            Program.parse (names.text text) =
              .error (.grammar (.unexpected (names.word culprit.kind found) expected
                { position with column }))) ∧
    (∀ literal position,
      Program.parse text = .error (.grammar (.pinOutOfRange literal position)) ->
        exists column, Program.parse (names.text text) =
          .error (.grammar (.pinOutOfRange literal { position with column }))) ∧
    ((exists program, Program.parse (names.text text) = .ok program) ↔
      exists program, Program.parse text = .ok program) := by
  have renames := names.renames_get text
  have whole := Plain.renames_program renames (Tape.spelled_ofText text) 0
  rw [parse_eq_plain, parse_eq_plain]
  generalize Plain.program (Tape.ofText text) 0 = outcome at whole
  generalize Plain.program (Tape.ofText (names.text text)) 0 = result at whole
  cases whole with
  | ok same =>
      subst same
      simp [Except.mapError]
  | error reblamed =>
      cases reblamed with
      | unexpected place expected =>
          simp only [Except.mapError, Diagnostic.unexpectedToken, Except.error.injEq,
            Failure.grammar.injEq, Diagnostic.unexpected.injEq, reduceCtorEq, false_implies,
            implies_true, exists_const, true_and, and_true]
          rintro _ _ _ ⟨rfl, rfl, rfl⟩
          exact ⟨_, _, Tape.get_mem_scan text place, rfl, rfl, (renames place).text, rfl,
            (renames place).position⟩
      | pin place digits =>
          have text' := (renames place).text.trans (names.word_of_ne (by simp [digits]) _)
          simp only [Except.mapError, Diagnostic.pinToken, Except.error.injEq,
            Failure.grammar.injEq, Diagnostic.pinOutOfRange.injEq, reduceCtorEq, false_implies,
            implies_true, exists_const, true_and, and_true]
          rintro _ _ ⟨rfl, rfl⟩
          exact ⟨_, text', (renames place).position⟩

theorem parse_rename_merged :
    let names := Renaming.replacing "b" "a" isName_a
    let program : Program :=
      { inputs := [{ id := "a", pins := { first := 1, last := 1 } }]
        outputs := [{ id := "b", pins := { first := 1, last := 2 } }]
        wires := [{ source := { name := "b" }, target := { name := "a", selector := some "b" } }] }
    let merged : Program :=
      { inputs := [{ id := "a", pins := { first := 1, last := 1 } }]
        outputs := [{ id := "a", pins := { first := 1, last := 2 } }]
        wires := [{ source := { name := "a" }, target := { name := "a", selector := some "a" } }] }
    Program.parse "Inputs:a;Outputs:b[2];Parts:;Wires:b->a.b;" = .ok program ∧
      names.text "Inputs:a;Outputs:b[2];Parts:;Wires:b->a.b;" =
        "Inputs:a;Outputs:a[2];Parts:;Wires:a->a.a;" ∧
      Program.parse "Inputs:a;Outputs:a[2];Parts:;Wires:a->a.a;" = .ok merged ∧
      names.text "Inputs:a;\nb" = "Inputs:a;\na" ∧
      exists column, Program.parse "Inputs:a;\na" =
        .error (.grammar (.unexpected "a" "Outputs" { line := 2, column })) := by
  intro names program merged
  have parsed : Program.parse "Inputs:a;Outputs:b[2];Parts:;Wires:b->a.b;" = .ok program := by
    decide +kernel
  have renamed : names.program program = merged := by decide +kernel
  have text : names.text "Inputs:a;Outputs:b[2];Parts:;Wires:b->a.b;" =
      "Inputs:a;Outputs:a[2];Parts:;Wires:a->a.a;" := by decide +kernel
  have failed : Program.parse "Inputs:a;\nb" =
      .error (.grammar (.unexpected "b" "Outputs" { line := 2, column := 1 })) := by decide +kernel
  have textToo : names.text "Inputs:a;\nb" = "Inputs:a;\na" := by decide +kernel
  have named : ∀ token ∈ Token.scan "Inputs:a;\nb", token.text = "b" -> token.kind = .name := by
    decide +kernel
  have success := (parse_rename names _).1 program parsed
  rw [text, renamed] at success
  obtain ⟨culprit, column, member, found, -, failure⟩ :=
    (parse_rename names _).2.1 _ _ _ failed
  have kind := named culprit member found
  have replaced : names.word culprit.kind "b" = "a" := by
    rw [kind]
    decide +kernel
  rw [textToo, replaced] at failure
  exact ⟨parsed, text, success, textToo, column, failure⟩

end Netlist
