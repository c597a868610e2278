import Netlist.Proofs.Plain.Element

set_option autoImplicit false

namespace Netlist.Plain

variable {α β : Type}

def body (element : Element α) : Plain (List α) :=
  fun tape place =>
    if (tape.get place).kind = .semicolon then (.ok [], place + 1)
    else if _ : (tape.get place).kind = .endOfInput then
      (.error (.unexpectedToken (tape.get place) Token.Kind.semicolon.describe), place + 1)
    else if element.opens (tape.get place).kind then
      match _ : element.rule tape place with
      | (.error diagnostic, after) => (.error diagnostic, after)
      | (.ok value, after) =>
          match body element tape after with
          | (.error diagnostic, last) => (.error diagnostic, last)
          | (.ok values, last) => (.ok (value :: values), last)
    else body element tape (place + 1)
termination_by tape place => tape.tokens.length - place
decreasing_by
  -- an entry is at least one token
  · have := Tape.lt_of_goesOn (by assumption)
    have := lt_of_moves element.moves (by assumption)
    omega
  · have := Tape.lt_of_goesOn (by assumption)
    omega

section Body

variable {element : Element α} {tape : Tape} {place : Nat}

theorem body_of_semicolon (semicolon : (tape.get place).kind = .semicolon) :
    body element tape place = (.ok [], place + 1) := by
  rw [body, if_pos semicolon]

theorem body_of_end (ended : (tape.get place).kind = .endOfInput) :
    body element tape place =
      (.error (.unexpectedToken (tape.get place) Token.Kind.semicolon.describe), place + 1) := by
  rw [body, if_neg (by simp [ended]), dif_pos ended]

theorem body_of_opens (noSemicolon : (tape.get place).kind ≠ .semicolon)
    (goesOn : (tape.get place).kind ≠ .endOfInput) (opens : element.opens (tape.get place).kind) :
    body element tape place =
      (element.rule >>= fun value => body element >>= fun values => pure (value :: values))
        tape place := by
  rw [body, if_neg noSemicolon, dif_neg goesOn, if_pos opens, bind_apply]
  cases element.rule tape place with
  | mk result middle =>
      cases result with
      | error diagnostic => rfl
      | ok value =>
          simp only [bind_apply]
          cases body element tape middle with
          | mk result after => cases result <;> rfl

theorem body_of_entry {value : α} {values : List α} {middle after : Nat}
    (noSemicolon : (tape.get place).kind ≠ .semicolon)
    (goesOn : (tape.get place).kind ≠ .endOfInput) (opens : element.opens (tape.get place).kind)
    (one : element.rule tape place = (.ok value, middle))
    (more : body element tape middle = (.ok values, after)) :
    body element tape place = (.ok (value :: values), after) := by
  rw [body_of_opens noSemicolon goesOn opens, bind_apply, one]
  simp only [bind_apply, more, pure_apply]

theorem body_of_passed (noSemicolon : (tape.get place).kind ≠ .semicolon)
    (goesOn : (tape.get place).kind ≠ .endOfInput)
    (noEntry : ¬ element.opens (tape.get place).kind) :
    body element tape place = body element tape (place + 1) := by
  rw [body, if_neg noSemicolon, dif_neg goesOn, if_neg noEntry]

end Body

def Closes (tape : Tape) (place : Nat) : Except Diagnostic α × Nat -> Prop :=
  Comes tape place fun after => exists last, place ≤ last ∧ after = last + 1 ∧
    (tape.get last).kind = .semicolon ∧ Clear tape place last

theorem Closes.of_clear {tape : Tape} {place middle : Nat} {outcome : Except Diagnostic α × Nat}
    (closes : Closes tape middle outcome) (le : place ≤ middle) (clear : Clear tape place middle) :
    Closes tape place outcome :=
  closes.weaken le fun _ ⟨last, low, same, semicolon, clearer⟩ =>
    ⟨last, by omega, same, semicolon, clear.trans clearer⟩

theorem Moves.bind_closes {least : Nat} {rule : Plain α} {continuation : α -> Plain β} {tape : Tape}
    (moves : Moves least rule)
    (further : ∀ value place, Closes tape place (continuation value tape place)) (place : Nat) :
    Closes tape place ((rule >>= continuation) tape place) :=
  (moves tape place).bind fun value middle ⟨bound, clear⟩ =>
    (further value middle).of_clear (by omega) clear

theorem closes_body (element : Element α) (tape : Tape) (place : Nat) :
    Closes tape place (body element tape place) := by
  -- the semicolon that is found is the first, since neither entries nor what is passed over are one
  fun_induction body element tape place with
  | case1 place semicolon =>
      exact ⟨place, Nat.le_refl _, rfl, semicolon, fun _ low high => by omega⟩
  | case2 place noSemicolon ended => exact ⟨place, Nat.le_refl _, rfl, .inr ⟨_, rfl⟩⟩
  | case3 place noSemicolon goesOn opens diagnostic after failed =>
      have lands := element.moves tape place
      rw [failed] at lands
      exact lands
  | case4 place noSemicolon goesOn opens value middle found diagnostic last failed ih =>
      have lands := element.moves tape place
      rw [found] at lands
      rw [failed] at ih
      exact ih.of_clear (Nat.le_of_add_right_le lands.1) lands.2
  | case5 place noSemicolon goesOn opens value middle found values last more ih =>
      have lands := element.moves tape place
      rw [found] at lands
      rw [more] at ih
      have further : Closes tape middle (.ok values, last) := ih
      exact further.of_clear (Nat.le_of_add_right_le lands.1) lands.2
  | case6 place noSemicolon goesOn passed ih =>
      exact ih.of_clear (Nat.le_succ place) (clear_succ noSemicolon)

theorem body_ok_lt {element : Element α} {tape : Tape} {place after : Nat} {values : List α}
    (step : body element tape place = (.ok values, after)) : place < after := by
  have closes := closes_body element tape place
  rw [step] at closes
  obtain ⟨last, low, rfl, -⟩ := closes
  omega

theorem not_opensWire_end : ¬ wires.opens .endOfInput := by
  simp [wires, Grammar.opensWire]

theorem lt_of_opensWire {tape : Tape} {place : Nat} (opens : wires.opens (tape.get place).kind) :
    place < tape.tokens.length :=
  Tape.lt_of_goesOn fun ended => not_opensWire_end (ended ▸ opens)

def segments : Plain (List Wire) :=
  fun tape place =>
    match _ : body wires tape place with
    | (.error diagnostic, after) => (.error diagnostic, after)
    | (.ok values, after) =>
        if _ : wires.opens (tape.get after).kind then
          match segments tape after with
          | (.error diagnostic, last) => (.error diagnostic, last)
          | (.ok more, last) => (.ok (values ++ more), last)
        else (.ok values, after)
termination_by tape place => tape.tokens.length - place
decreasing_by
  have := lt_of_opensWire (by assumption)
  have := body_ok_lt (by assumption)
  omega

def segmentsBehind (values : List Wire) : Plain (List Wire) :=
  fun tape place =>
    if wires.opens (tape.get place).kind then
      (segments >>= fun more => pure (values ++ more)) tape place
    else (.ok values, place)

theorem segments_eq : segments = (body wires >>= segmentsBehind) := by
  funext tape place
  rw [segments, bind_apply]
  cases body wires tape place with
  | mk result after =>
      cases result with
      | error diagnostic => rfl
      | ok values =>
          by_cases opens : wires.opens (tape.get after).kind
          · simp only [segmentsBehind, opens, dif_pos, if_true, bind_apply]
            cases segments tape after with
            | mk result last => cases result <;> rfl
          · simp only [segmentsBehind, opens, dite_false, if_false, Bool.false_eq_true]

theorem segments_of_more {tape : Tape} {place middle after : Nat} {values others : List Wire}
    (one : body wires tape place = (.ok values, middle)) (opens : wires.opens (tape.get middle).kind)
    (more : segments tape middle = (.ok others, after)) :
    segments tape place = (.ok (values ++ others), after) := by
  rw [segments_eq, bind_apply, one]
  simp only [segmentsBehind, opens, if_true, bind_apply, more, pure_apply]

theorem segments_of_one {tape : Tape} {place after : Nat} {values : List Wire}
    (one : body wires tape place = (.ok values, after))
    (done : ¬ wires.opens (tape.get after).kind) :
    segments tape place = (.ok values, after) := by
  rw [segments_eq, bind_apply, one]
  exact if_neg done

def Ends (tape : Tape) (place : Nat) : Except Diagnostic α × Nat -> Prop :=
  Comes tape place fun after => exists last, place ≤ last ∧ after = last + 1 ∧
    (tape.get last).kind = .semicolon ∧ ¬ wires.opens (tape.get after).kind

theorem Ends.of_le {tape : Tape} {place middle : Nat} {outcome : Except Diagnostic α × Nat}
    (ends : Ends tape middle outcome) (le : place ≤ middle) : Ends tape place outcome :=
  ends.weaken le fun _ ⟨last, low, rest⟩ => ⟨last, Nat.le_trans le low, rest⟩

theorem ends_segments (tape : Tape) (place : Nat) : Ends tape place (segments tape place) := by
  -- each list ends further on, so where the last of them ends is behind the first place
  fun_induction segments tape place with
  | case1 place diagnostic after failed =>
      have closes := closes_body wires tape place
      rw [failed] at closes
      exact closes
  | case2 place values after found opens diagnostic last failed ih =>
      rw [failed] at ih
      exact ih.of_le (Nat.le_of_lt (body_ok_lt found))
  | case3 place values after found opens more last followed ih =>
      rw [followed] at ih
      have further : Ends tape after (.ok more, last) := ih
      exact further.of_le (Nat.le_of_lt (body_ok_lt found))
  | case4 place values after found done =>
      have closes := closes_body wires tape place
      rw [found] at closes
      obtain ⟨last, low, same, semicolon, -⟩ := closes
      exact ⟨last, low, same, semicolon, done⟩

theorem segments_ok_lt {tape : Tape} {place after : Nat} {values : List Wire}
    (step : segments tape place = (.ok values, after)) : place < after := by
  have ends := ends_segments tape place
  rw [step] at ends
  obtain ⟨last, low, rfl, -⟩ := ends
  omega

theorem Moves.bind_ends {least : Nat} {rule : Plain α} {continuation : α -> Plain β} {tape : Tape}
    (moves : Moves least rule)
    (further : ∀ value place, Ends tape place (continuation value tape place)) (place : Nat) :
    Ends tape place ((rule >>= continuation) tape place) :=
  (moves tape place).bind fun value middle ⟨bound, _⟩ => (further value middle).of_le (by omega)

theorem Closes.bind_ends {rule : Plain α} {continuation : α -> Plain β} {tape : Tape} {place : Nat}
    (closes : Closes tape place (rule tape place))
    (further : ∀ value place, Ends tape place (continuation value tape place)) :
    Ends tape place ((rule >>= continuation) tape place) :=
  Comes.bind closes fun value middle ⟨last, low, same, _⟩ =>
    (further value middle).of_le (by omega)

def statement (heading : Heading) (entries : Plain (List α)) : Plain (List α) := do
  let _ <- expect (.keyword heading)
  let _ <- expect .colon
  entries

def inputStatement : Plain (List Port) :=
  statement .inputs (body ports)

def outputStatement : Plain (List Port) :=
  statement .outputs (body ports)

def partStatement : Plain (List Part) :=
  statement .parts (body parts)

def wireStatement : Plain (List Wire) :=
  statement .wires segments

def program : Plain Program := do
  let inputs <- inputStatement
  let outputs <- outputStatement
  let parts <- partStatement
  let wires <- wireStatement
  pure { inputs, outputs, parts, wires }

theorem closes_statement (heading : Heading) (element : Element α) (tape : Tape) (place : Nat) :
    Closes tape place (statement heading (body element) tape place) := by
  refine (moves_expect (by simp)).bind_closes (fun _ => ?_) place
  exact (moves_expect (by simp)).bind_closes fun _ => closes_body element tape

theorem ends_wireStatement (tape : Tape) (place : Nat) :
    Ends tape place (wireStatement tape place) := by
  refine (moves_expect (by simp)).bind_ends (fun _ => ?_) place
  exact (moves_expect (by simp)).bind_ends fun _ => ends_segments tape

theorem ends_program (tape : Tape) (place : Nat) : Ends tape place (program tape place) := by
  have inputs := closes_statement .inputs ports tape
  have outputs := closes_statement .outputs ports tape
  have parts := closes_statement .parts Plain.parts tape
  apply (inputs place).bind_ends
  intro _ place
  apply (outputs place).bind_ends
  intro _ place
  apply (parts place).bind_ends
  intro _ place
  exact (ends_wireStatement tape place).bind_pure _

end Netlist.Plain
