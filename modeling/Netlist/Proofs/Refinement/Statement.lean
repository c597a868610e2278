import Netlist.Proofs.Plain.Statement
import Netlist.Proofs.Refinement.Rule
import Netlist.Grammar.Statement

set_option autoImplicit false

namespace Netlist.Rule

section Elements

variable {σ : Type} [Source σ] {start : Lexer σ} {tape : Tape}
  (describes : ∀ place, start.token place = tape.get place)

include describes

theorem simulates_pin :
    Simulates start tape (Cursor.At start) (Cursor.Past start) Grammar.pin Plain.pin := by
  apply (simulates_expect describes .digits).bind
  intro token
  dsimp only
  split_ifs
  · exact simulates_pure _ _
  · exact simulates_fail _ _

theorem simulates_width :
    Simulates start tape (Cursor.At start) (Cursor.Past start) Grammar.width Plain.width :=
  (simulates_pin describes).bind fun _ =>
    (simulates_expect describes .rightBracket).ofPast.bind fun _ => simulates_pure _ _

theorem simulates_port :
    Simulates start tape (Cursor.At start) (Cursor.At start) Grammar.port Plain.port := by
  apply (simulates_expect describes .name).bind
  intro id
  refine Simulates.bind (simulates_lookahead describes fun place => ?_).ofPast
    fun pins => simulates_pure _ _
  cases kind : (tape.get place).kind with
  | leftBracket =>
      intro cursor past
      rw [Plain.optional_of_eq kind]
      exact (simulates_width describes _ cursor (.inl past)).at
  | _ => exact Plain.optional_of_ne (by simp [kind])

theorem simulates_part :
    Simulates start tape (fun place cursor => Cursor.At start place cursor ∧
      (tape.get place).kind = .name) (Cursor.Past start) Grammar.part Plain.part := by
  rintro place cursor ⟨stands, name⟩
  -- the kind of the first token is known, so the plain rule may take it without looking
  have plain : Plain.part tape place = (Plain.take >>= fun id => Plain.expect .name >>= fun module =>
      (pure { id := id.text, module := module.text } : Plain Part)) tape place := by
    rw [Plain.part, Plain.expect_bind_of_eq name, Plain.take_bind]
  rw [plain]
  exact (simulates_next describes).bind (fun _ =>
    (simulates_expect describes .name).ofPast.bind fun _ => simulates_pure _ _) place cursor stands

theorem simulates_pins :
    Simulates start tape (Cursor.At start) (Cursor.Past start) Grammar.pins Plain.pins := by
  apply (simulates_pin describes).bind
  intro first
  apply (simulates_next describes).ofPast.bind
  intro token
  cases kind : token.kind with
  | rightBracket =>
      rw [if_pos rfl]
      exact simulates_pure _ _
  | colon =>
      rw [if_neg (by simp), if_pos rfl]
      exact (simulates_pin describes).ofPast.bind fun last =>
        (simulates_expect describes .rightBracket).ofPast.bind fun _ => simulates_pure _ _
  | _ =>
      rw [if_neg (by simp), if_neg (by simp)]
      exact simulates_fail _ _

theorem simulates_selection :
    Simulates start tape (Cursor.At start) (Cursor.At start)
      (lookahead
        (fun
          | .leftBracket => some Grammar.pins
          | _ => none)
        .unspecified)
      (Plain.optional .leftBracket Plain.pins .unspecified) := by
  apply simulates_lookahead describes
  intro place
  cases kind : (tape.get place).kind with
  | leftBracket =>
      intro cursor past
      rw [Plain.optional_of_eq kind]
      exact (simulates_pins describes _ cursor (.inl past)).at
  | _ => exact Plain.optional_of_ne (by simp [kind])

theorem simulates_endpoint (name : String) :
    Simulates start tape (Cursor.At start) (Cursor.At start) (Grammar.endpoint name)
      (Plain.endpoint name) := by
  apply simulates_lookahead describes
  intro place
  -- one look decides here what takes the plain rule two: a selector, pins or neither
  cases kind : (tape.get place).kind with
  | dot =>
      intro cursor past
      rw [Plain.endpoint, Plain.bind_apply, Plain.optional_of_eq kind, ← Plain.bind_apply,
        Plain.selector, Plain.bind_assoc]
      refine (simulates_expect describes .name).ofPast.bind (fun selector => ?_) _ cursor past
      exact (simulates_selection describes).ofPast.bind fun pins => simulates_pure _ _
  | leftBracket =>
      intro cursor past
      rw [Plain.endpoint, Plain.bind_apply, Plain.optional_of_ne (by simp [kind])]
      simp only
      rw [Plain.bind_apply, Plain.optional_of_eq kind, ← Plain.bind_apply]
      exact ((simulates_pins describes).ofPast.bind (fun pins => simulates_pure _ _) _ cursor past).at
  | _ =>
      have noSelector : (tape.get place).kind ≠ .dot := by simp [kind]
      have noPins : (tape.get place).kind ≠ .leftBracket := by simp [kind]
      rw [Plain.endpoint, Plain.bind_apply, Plain.optional_of_ne noSelector]
      simp only
      rw [Plain.bind_apply, Plain.optional_of_ne noPins]
      rfl

theorem simulates_wireSource :
    Simulates start tape (Cursor.At start) (Cursor.At start) Grammar.wireSource
      Plain.wireSource := by
  apply (simulates_next describes).bind
  intro token
  cases kind : token.kind with
  | digits =>
      rw [if_pos rfl]
      exact fun place cursor past => .ok (.inl past)
  | name =>
      rw [if_neg (by simp), if_pos rfl]
      exact (simulates_endpoint describes token.text).ofPast
  | _ =>
      rw [if_neg (by simp), if_neg (by simp)]
      exact simulates_fail _ _

theorem simulates_wireTarget :
    Simulates start tape (Cursor.At start) (Cursor.At start) Grammar.wireTarget
      Plain.wireTarget :=
  (simulates_expect describes .name).bind fun token =>
    (simulates_endpoint describes token.text).ofPast

theorem simulates_wire :
    Simulates start tape (Cursor.At start) (Cursor.At start) Grammar.wire Plain.wire :=
  (simulates_wireSource describes).bind fun _ =>
    (simulates_expect describes .arrow).bind fun _ =>
      (simulates_wireTarget describes).ofPast.bind fun _ => simulates_pure _ _

end Elements

section Lists

variable {σ α : Type} [Source σ] (start : Lexer σ) (tape : Tape)

structure ElementSimulates (element : Element σ α) (plain : Plain.Element α) : Prop where
  opens : element.opens = plain.opens
  rule : Simulates start tape
    (fun place cursor => Cursor.At start place cursor ∧ plain.opens (tape.get place).kind)
    (Cursor.At start) element.rule plain.rule

variable {start : Lexer σ} {tape : Tape}

theorem turn_of_next (element : Element σ α) {cursor rest : Cursor σ} {token : Token}
    (step : cursor.next = (token, rest)) :
    Grammar.turn element cursor =
      if token.kind = .semicolon then (.ok .ended, rest)
      else if token.kind = .endOfInput then
        (.error (.unexpectedToken token Token.Kind.semicolon.describe), rest)
      else if element.opens token.kind then
        (element.rule >>= fun value => pure (Grammar.Turn.entry value)) rest.giveBack
      else (.ok .passed, rest) := by
  rw [Grammar.turn, bind_apply, next, step]
  simp only
  split_ifs <;> rfl

theorem body_eq_turn (element : Element σ α) (found : Array α) (cursor : Cursor σ) :
    Grammar.body element found cursor =
      match Grammar.turn element cursor with
      | (.ok .ended, rest) => (.ok found, rest)
      | (.ok (.entry value), rest) => Grammar.body element (found.push value) rest
      | (.ok .passed, rest) => Grammar.body element found rest
      | (.error diagnostic, rest) => (.error diagnostic, rest) := by
  rw [Grammar.body]
  split <;> simp_all

theorem body_of_opens (element : Element σ α) (found : Array α) {cursor rest : Cursor σ}
    {token : Token} (step : cursor.next = (token, rest)) (noSemicolon : token.kind ≠ .semicolon)
    (goesOn : token.kind ≠ .endOfInput) (opens : element.opens token.kind) :
    Grammar.body element found cursor =
      match element.rule rest.giveBack with
      | (.ok value, rest) => Grammar.body element (found.push value) rest
      | (.error diagnostic, rest) => (.error diagnostic, rest) := by
  rw [body_eq_turn, turn_of_next element step, if_neg noSemicolon, if_neg goesOn, if_pos opens,
    bind_apply]
  cases element.rule rest.giveBack with
  | mk result rest => cases result <;> rfl

theorem wireLists_of_body {found values : Array Wire} {cursor middle rest : Cursor σ} {token : Token}
    (one : Grammar.body Grammar.wires found cursor = (.ok values, middle))
    (step : middle.next = (token, rest)) :
    Grammar.wireLists found cursor =
      if Grammar.opensWire token.kind then Grammar.wireLists values rest.giveBack
      else (.ok values, rest.giveBack) := by
  rw [Grammar.wireLists]
  split
  · simp_all
  · rename_i other after again
    rw [one] at again
    obtain ⟨rfl, rfl⟩ : values = other ∧ middle = after := by simpa using again
    simp only [Cursor.peek, step]

theorem wireLists_of_error {found : Array Wire} {cursor rest : Cursor σ} {diagnostic : Diagnostic}
    (failed : Grammar.body Grammar.wires found cursor = (.error diagnostic, rest)) :
    Grammar.wireLists found cursor = (.error diagnostic, rest) := by
  rw [Grammar.wireLists]
  split <;> simp_all

def found {α : Type} (before : Array α) (outcome : Except Diagnostic (List α) × Nat) :
    Except Diagnostic (Array α) × Nat :=
  (outcome.1.map fun values => before ++ values.toArray, outcome.2)

theorem found_ok (before : Array α) (values : List α) (place : Nat) :
    found before (.ok values, place) = (.ok (before ++ values.toArray), place) := rfl

theorem found_error (before : Array α) (diagnostic : Diagnostic) (place : Nat) :
    found before (.error diagnostic, place) = (.error diagnostic, place) := rfl

theorem matches_completed {post : Nat -> Cursor σ -> Prop} {entries : Rule σ (Array α)}
    {outcome : Except Diagnostic (List α) × Nat} {cursor : Cursor σ} (heading : Heading)
    (noted : ∀ place cursor record, record.fault? = none -> post place cursor ->
      post place (cursor.note record))
    (list : Matches start post (found #[] outcome) (entries cursor)) :
    Matches start post outcome ((entries >>= fun found =>
      note (.completed heading found.size) >>= fun _ => (pure found.toList : Rule σ (List α)))
        cursor) := by
  rw [bind_apply]
  match outcome with
  | (.ok values, place) =>
      rw [found_ok] at list
      obtain ⟨rest, same, stands⟩ := list.of_ok
      rw [same, Array.empty_append]
      exact .ok (noted _ _ _ rfl stands)
  | (.error diagnostic, place) =>
      rw [found_error] at list
      obtain ⟨rest, same, past⟩ := list.of_error
      rw [same]
      exact .error past

theorem statement_apply (heading : Heading) (entries : Rule σ (Array α)) (cursor : Cursor σ) :
    Grammar.statement heading entries cursor =
      (expect (.keyword heading) >>= fun _ => expect .colon >>= fun _ => entries >>= fun found =>
        note (.completed heading found.size) >>= fun _ => (pure found.toList : Rule σ (List α)))
        (cursor.note (.opening heading)) := by
  rw [Grammar.statement, Grammar.opening, bind_assoc, bind_apply, note]
  simp only
  rw [bind_assoc]
  simp only [bind_assoc]
  rfl

variable (describes : ∀ place, start.token place = tape.get place)

include describes

theorem simulates_body {element : Element σ α} {plain : Plain.Element α}
    (simulates : ElementSimulates start tape element plain) {place : Nat} {cursor : Cursor σ}
    (stands : cursor.At start place) (before : Array α) :
    Matches start (Cursor.Past start) (found before (Plain.body plain tape place))
      (Grammar.body element before cursor) := by
  -- along the plain list; the cursor is at the place it has come to, with `before` behind it
  fun_induction Plain.body plain tape place generalizing cursor before with
  | case1 place semicolon =>
      obtain ⟨rest, step, past, peeked⟩ := next_of_at describes stands
      rw [body_eq_turn, turn_of_next element step, if_pos semicolon]
      rw [found_ok, Array.append_empty]
      exact .ok past
  | case2 place noSemicolon ended =>
      obtain ⟨rest, step, past, peeked⟩ := next_of_at describes stands
      rw [body_eq_turn, turn_of_next element step, if_neg noSemicolon, if_pos ended]
      exact .error past
  | case3 place noSemicolon goesOn opens diagnostic after failed =>
      obtain ⟨rest, step, past, peeked⟩ := next_of_at describes stands
      have outcome := simulates.rule place rest.giveBack ⟨.inr peeked, opens⟩
      rw [body_of_opens element before step noSemicolon goesOn (simulates.opens ▸ opens)]
      rw [failed] at outcome
      obtain ⟨last, same, past⟩ := outcome.of_error
      rw [same]
      exact .error past
  | case4 place noSemicolon goesOn opens value middle one diagnostic last failed ih =>
      obtain ⟨rest, step, past, peeked⟩ := next_of_at describes stands
      have outcome := simulates.rule place rest.giveBack ⟨.inr peeked, opens⟩
      rw [body_of_opens element before step noSemicolon goesOn (simulates.opens ▸ opens)]
      rw [one] at outcome
      obtain ⟨behind, same, stands⟩ := outcome.of_ok
      have further := ih stands (before.push value)
      rw [failed] at further
      rw [same]
      exact further
  | case5 place noSemicolon goesOn opens value middle one values last more ih =>
      obtain ⟨rest, step, past, peeked⟩ := next_of_at describes stands
      have outcome := simulates.rule place rest.giveBack ⟨.inr peeked, opens⟩
      rw [body_of_opens element before step noSemicolon goesOn (simulates.opens ▸ opens)]
      rw [one] at outcome
      obtain ⟨behind, same, stands⟩ := outcome.of_ok
      have further := ih stands (before.push value)
      rw [more, found_ok] at further
      rw [same, found_ok, List.toArray_cons, ← Array.append_assoc]
      exact further
  | case6 place noSemicolon goesOn passed ih =>
      obtain ⟨rest, step, past, peeked⟩ := next_of_at describes stands
      rw [body_eq_turn, turn_of_next element step, if_neg noSemicolon, if_neg goesOn,
        if_neg (by rw [simulates.opens]; exact passed)]
      exact ih (.inl past) before

theorem simulates_ports : ElementSimulates start tape Grammar.ports Plain.ports :=
  ⟨rfl, fun place cursor stands => simulates_port describes place cursor stands.1⟩

theorem simulates_parts : ElementSimulates start tape Grammar.parts Plain.parts := by
  refine ⟨rfl, fun place cursor stands => ?_⟩
  have name : (tape.get place).kind = .name := by
    simpa [Plain.parts, Grammar.opensName] using stands.2
  exact (simulates_part describes place cursor ⟨stands.1, name⟩).at

theorem simulates_wires : ElementSimulates start tape Grammar.wires Plain.wires :=
  ⟨rfl, fun place cursor stands => simulates_wire describes place cursor stands.1⟩

theorem wireLists_of_ok {after : Nat} {before values : Array Wire} {cursor : Cursor σ}
    (list : Matches start (Cursor.Past start) (.ok values, after)
      (Grammar.body Grammar.wires before cursor)) :
    exists peeked, peeked.Peeked start after ∧
      Grammar.wireLists before cursor =
        if Grammar.opensWire (tape.get after).kind then Grammar.wireLists values peeked
        else (.ok values, peeked) := by
  obtain ⟨middle, same, past⟩ := list.of_ok
  obtain ⟨rest, step, -, peeked⟩ := next_of_at describes (.inl past)
  exact ⟨rest.giveBack, peeked, wireLists_of_body same step⟩

theorem simulates_wireLists {place : Nat} {cursor : Cursor σ} (stands : cursor.At start place)
    (before : Array Wire) :
    Matches start (Cursor.Peeked start) (found before (Plain.segments tape place))
      (Grammar.wireLists before cursor) := by
  -- every list is looked behind, so the cursor holds a token wherever it stops
  have list := simulates_body describes (simulates_wires describes) stands before
  fun_induction Plain.segments tape place generalizing cursor before with
  | case1 place diagnostic after failed =>
      rw [failed, found_error] at list
      obtain ⟨rest, same, past⟩ := list.of_error
      rw [wireLists_of_error same]
      exact .error past
  | case2 place values after one opens diagnostic last failed ih =>
      rw [one, found_ok] at list
      obtain ⟨behind, peeked, same⟩ := wireLists_of_ok describes list
      rw [same, if_pos (show Grammar.opensWire _ from opens)]
      have further := ih (.inr peeked) (before ++ values.toArray)
        (simulates_body describes (simulates_wires describes) (.inr peeked) _)
      rw [failed] at further
      exact further
  | case3 place values after one opens more last followed ih =>
      rw [one, found_ok] at list
      obtain ⟨behind, peeked, same⟩ := wireLists_of_ok describes list
      rw [same, if_pos (show Grammar.opensWire _ from opens)]
      have further := ih (.inr peeked) (before ++ values.toArray)
        (simulates_body describes (simulates_wires describes) (.inr peeked) _)
      rw [followed, found_ok] at further
      rw [found_ok, ← List.append_toArray, ← Array.append_assoc]
      exact further
  | case4 place values after one done =>
      rw [one, found_ok] at list
      obtain ⟨behind, peeked, same⟩ := wireLists_of_ok describes list
      rw [same, if_neg (show ¬ Grammar.opensWire _ from done)]
      exact .ok peeked

theorem simulates_statement {post : Nat -> Cursor σ -> Prop} {entries : Rule σ (Array α)}
    {plain : Plain (List α)} (heading : Heading)
    (noted : ∀ place cursor record, record.fault? = none -> post place cursor ->
      post place (cursor.note record))
    (lists : ∀ place cursor, cursor.Past start place ->
      Matches start post (found #[] (plain tape place)) (entries cursor)) :
    Simulates start tape (Cursor.At start) post (Grammar.statement heading entries)
      (Plain.statement heading plain) := by
  intro place cursor stands
  rw [statement_apply]
  refine (simulates_expect describes (.keyword heading)).bind (fun _ => ?_) place _ (stands.note rfl)
  apply (simulates_expect describes .colon).ofPast.bind
  intro _ place cursor past
  exact matches_completed heading noted (lists place cursor past)

theorem simulates_bodyStatement (heading : Heading) {element : Element σ α}
    {plain : Plain.Element α} (simulates : ElementSimulates start tape element plain) :
    Simulates start tape (Cursor.At start) (Cursor.Past start)
      (Grammar.statement heading (Grammar.body element #[]))
      (Plain.statement heading (Plain.body plain)) :=
  simulates_statement describes heading (fun _ _ _ noFault past => past.note noFault)
    fun _ _ past => simulates_body describes simulates (.inl past) #[]

theorem simulates_inputStatement :
    Simulates start tape (Cursor.At start) (Cursor.Past start) Grammar.inputStatement
      Plain.inputStatement :=
  simulates_bodyStatement describes .inputs (simulates_ports describes)

theorem simulates_outputStatement :
    Simulates start tape (Cursor.At start) (Cursor.Past start) Grammar.outputStatement
      Plain.outputStatement :=
  simulates_bodyStatement describes .outputs (simulates_ports describes)

theorem simulates_partStatement :
    Simulates start tape (Cursor.At start) (Cursor.Past start) Grammar.partStatement
      Plain.partStatement :=
  simulates_bodyStatement describes .parts (simulates_parts describes)

theorem simulates_wireStatement :
    Simulates start tape (Cursor.At start) (Cursor.Peeked start) Grammar.wireStatement
      Plain.wireStatement :=
  simulates_statement describes .wires (fun _ _ _ noFault peeked => peeked.note noFault)
    fun _ _ past => simulates_wireLists describes (.inl past) #[]

theorem simulates_program :
    Simulates start tape (Cursor.At start) (Cursor.Peeked start) Grammar.program Plain.program :=
  (simulates_inputStatement describes).bind fun _ =>
    (simulates_outputStatement describes).ofPast.bind fun _ =>
      (simulates_partStatement describes).ofPast.bind fun _ =>
        (simulates_wireStatement describes).ofPast.bind fun _ => simulates_pure _ _

end Lists

end Netlist.Rule
