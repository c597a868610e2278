import Netlist.Proofs.Guarded.Rule
import Netlist.Proofs.Session

set_option autoImplicit false

namespace Netlist

def Grammar.Turn.round {α : Type} (found : Array α) : Grammar.Turn α -> Round (Array α) (Array α)
  | .ended => .done found
  | .entry value => .again (found.push value)
  | .passed => .again found

namespace Rule

variable {σ α : Type} [Source σ]

theorem unfolds_body (element : Element σ α) :
    Unfolds (Grammar.body element) fun found =>
      Grammar.turn element >>= fun turned => pure (turned.round found) := by
  intro found cursor
  dsimp only
  rw [body_eq_turn, bind_apply]
  rcases Grammar.turn element cursor with ⟨diagnostic | _ | value | _, rest⟩ <;> rfl

theorem unfolds_wireLists :
    Unfolds (Grammar.wireLists : Array Wire -> Rule σ (Array Wire)) fun found =>
      Grammar.body Grammar.wires found >>= fun found =>
        (next >>= fun token => giveBack >>= fun _ => pure token.kind) >>= fun kind =>
          pure (if Grammar.opensWire kind then .again found else .done found) := by
  intro found cursor
  dsimp only
  rw [bind_apply]
  rcases one : Grammar.body Grammar.wires found cursor with ⟨diagnostic | values, middle⟩
  · rw [wireLists_of_error one]
  · rcases step : middle.next with ⟨token, rest⟩
    rw [wireLists_of_body one step]
    by_cases opens : Grammar.opensWire token.kind <;>
      simp [bind_apply, pure_apply, next, giveBack, step, opens]

end Rule

namespace Guarded

open Grammar (Turn opensName opensWire)

noncomputable section Definitions

variable {σ α : Type} [Supply σ]

def pin : Guarded σ UInt32 := do
  let token <- expect .digits
  let value := Nat.ofDigitChars 10 token.text.toList 0
  if value ≤ PinRange.maxPin then pure (.ofNat value) else fail (.pinToken token)

def width : Guarded σ PinRange := do
  let width <- pin
  let _ <- expect .rightBracket
  pure (.ofWidth width)

def port : Guarded σ Port := do
  let id <- expect .name
  let pins <- lookahead
    (fun
      | .leftBracket => some width
      | _ => none)
    (.ofWidth 1)
  pure { id := id.text, pins }

def part : Guarded σ Part := do
  let id <- next
  if id.kind = .name then
    let module <- expect .name
    pure { id := id.text, module := module.text }
  else breakOff .partUnnamed

def pins : Guarded σ PinRange := do
  let first <- pin
  let token <- next
  match token.kind with
  | .rightBracket => pure (.single first)
  | .colon => do
      let last <- pin
      let _ <- expect .rightBracket
      pure { first, last }
  | _ => fail (.unexpectedToken token ": or ]")

def selected (name : String) : Guarded σ Endpoint := do
  let selector <- expect .name
  let pins <- lookahead
    (fun
      | .leftBracket => some pins
      | _ => none)
    .unspecified
  pure { name, selector := some selector.text, pins }

def endpoint (name : String) : Guarded σ Endpoint :=
  lookahead
    (fun
      | .dot => some (selected name)
      | .leftBracket => some do
          let pins <- pins
          pure { name, pins }
      | _ => none)
    { name }

def wireSource : Guarded σ Endpoint := do
  let token <- next
  match token.kind with
  | .digits => pure { name := token.text }
  | .name => endpoint token.text
  | _ => breakOff .wireUnopened

def wireTarget : Guarded σ Endpoint := do
  let token <- expect .name
  endpoint token.text

def wire : Guarded σ Wire := do
  let source <- wireSource
  let _ <- expect .arrow
  let target <- wireTarget
  pure { source, target }

structure Element (σ α : Type) where
  opens : Token.Kind -> Bool
  rule : Guarded σ α

def ports : Element σ Port :=
  { opens := opensName, rule := port }

def parts : Element σ Part :=
  { opens := opensName, rule := part }

def wires : Element σ Wire :=
  { opens := opensWire, rule := wire }

def turn (element : Element σ α) : Guarded σ (Turn α) := do
  let token <- next
  if token.kind = .semicolon then pure .ended
  else if token.kind = .endOfInput then
    fail (.unexpectedToken token Token.Kind.semicolon.describe)
  else if element.opens token.kind then do
    giveBack
    let value <- element.rule
    pure (.entry value)
  else pure .passed

def bodyRound (element : Element σ α) (found : Array α) :
    Guarded σ (Round (Array α) (Array α)) := do
  let turned <- turn element
  pure (turned.round found)

def body (element : Element σ α) : Array α -> Guarded σ (Array α) :=
  loop (bodyRound element)

def wireListsRound (found : Array Wire) : Guarded σ (Round (Array Wire) (Array Wire)) := do
  let found <- body wires found
  let kind <- peek
  pure (if opensWire kind then .again found else .done found)

def wireLists : Array Wire -> Guarded σ (Array Wire) :=
  loop wireListsRound

def opening (heading : Heading) : Guarded σ Unit := do
  note (.opening heading)
  let _ <- expect (.keyword heading)
  let _ <- expect .colon

def statement (heading : Heading) (entries : Guarded σ (Array α)) : Guarded σ (List α) := do
  opening heading
  let found <- entries
  note (.completed heading found.size)
  pure found.toList

def inputStatement : Guarded σ (List Port) :=
  statement .inputs (body ports #[])

def outputStatement : Guarded σ (List Port) :=
  statement .outputs (body ports #[])

def partStatement : Guarded σ (List Part) :=
  statement .parts (body parts #[])

def wireStatement : Guarded σ (List Wire) :=
  statement .wires (wireLists #[])

def program : Guarded σ Program := do
  let inputs <- inputStatement
  let outputs <- outputStatement
  let parts <- partStatement
  let wires <- wireStatement
  pure { inputs, outputs, parts, wires }

def call : Call -> Guarded σ Answer
  | .statement .inputs => inputStatement >>= fun entries => pure (.statement (.inputs entries))
  | .statement .outputs => outputStatement >>= fun entries => pure (.statement (.outputs entries))
  | .statement .parts => partStatement >>= fun entries => pure (.statement (.parts entries))
  | .statement .wires => wireStatement >>= fun entries => pure (.statement (.wires entries))
  | .program => program >>= fun program => pure (.program program)

end Definitions

open Outcome (Meets meets_ok)

variable {σ α : Type} [Supply σ]

section Elements

theorem tracks_pin : Tracks 1 (pin : Guarded σ UInt32) fun _ => Grammar.pin := by
  refine (tracks_expect (by simp)).bind fun token => ?_
  dsimp only
  split
  · exact tracks_pure _
  · exact tracks_fail _ _

theorem tracks_width : Tracks 1 (width : Guarded σ PinRange) fun _ => Grammar.width :=
  tracks_pin.bind fun _ => (tracks_expect (by simp)).zero.bind fun _ => tracks_pure _

theorem tracks_port : Tracks 1 (port : Guarded σ Port) fun _ => Grammar.port := by
  refine (tracks_expect (by simp)).bind fun id => Tracks.bind_pure ?_ _
  refine tracks_lookahead fun kind => ?_
  cases kind with
  | leftBracket => exact .inr ⟨_, _, rfl, fun _ => rfl, tracks_width.zero⟩
  | _ => exact .inl ⟨rfl, fun _ => rfl⟩

theorem tracks_pins : Tracks 1 (pins : Guarded σ PinRange) fun _ => Grammar.pins := by
  refine tracks_pin.bind fun first => tracks_next.bind fun token => ?_
  cases token.kind with
  | rightBracket => exact tracks_pure _
  | colon =>
      exact tracks_pin.zero.bind fun _ => (tracks_expect (by simp)).zero.bind fun _ => tracks_pure _
  | _ => exact tracks_fail _ _

theorem tracks_selected (name : String) :
    Tracks 1 (selected name : Guarded σ Endpoint) fun _ => Grammar.selected name := by
  refine (tracks_expect (by simp)).bind fun id => Tracks.bind_pure ?_ _
  refine tracks_lookahead fun kind => ?_
  cases kind with
  | leftBracket => exact .inr ⟨_, _, rfl, fun _ => rfl, tracks_pins.zero⟩
  | _ => exact .inl ⟨rfl, fun _ => rfl⟩

theorem tracks_endpoint (name : String) :
    Tracks 0 (endpoint name : Guarded σ Endpoint) fun _ => Grammar.endpoint name := by
  refine tracks_lookahead fun kind => ?_
  cases kind with
  | dot => exact .inr ⟨_, _, rfl, fun _ => rfl, (tracks_selected name).zero⟩
  | leftBracket => exact .inr ⟨_, _, rfl, fun _ => rfl, (tracks_pins.bind_pure _).zero⟩
  | _ => exact .inl ⟨rfl, fun _ => rfl⟩

theorem tracks_wireTarget :
    Tracks 1 (wireTarget : Guarded σ Endpoint) fun _ => Grammar.wireTarget :=
  (tracks_expect (by simp)).bind fun token => tracks_endpoint token.text

/-- Wherever its first token is the one taken back, an element is read without a breach, and uses
that token up. -/
structure ElementTracks (element : Element σ α)
    (plain : (source : Source σ) -> Netlist.Element σ α) : Prop where
  opens : ∀ source : Source σ, (plain source).opens = element.opens
  rule : ∀ (cursor : Cursor σ) (token : Token), cursor.Sound -> cursor.returned = some token ->
    ¬ token.kind.isLayout -> element.opens token.kind ->
    Runs cursor (Uses cursor) (fun source => (plain source).rule cursor) (element.rule cursor)

theorem elementTracks_ports : ElementTracks (ports : Element σ Port) fun _ => Grammar.ports :=
  ⟨fun _ => rfl, fun cursor _ sound _ _ _ => tracks_port cursor sound⟩

theorem elementTracks_parts : ElementTracks (parts : Element σ Part) fun _ => Grammar.parts := by
  refine ⟨fun _ => rfl, fun cursor token sound returned meant opens => ?_⟩
  have name : token.kind = .name := by simpa [parts, opensName] using opens
  refine (runs_next_of_returned sound returned meant).bind fun id rest sound keeps given => ?_
  obtain ⟨rfl, -⟩ := given
  simp only [name, if_true]
  exact (((tracks_expect (by simp)).bind_pure _ rest sound).imp fun _ _ more =>
    keeps.trans more).after keeps

theorem runs_wireSource {cursor : Cursor σ} {token : Token} (sound : cursor.Sound)
    (returned : cursor.returned = some token) (meant : ¬ token.kind.isLayout)
    (opens : opensWire token.kind) :
    Runs cursor (fun _ rest => Spends 0 cursor.remaining rest.remaining)
      (fun _ => Grammar.wireSource cursor) (wireSource cursor) := by
  refine (runs_next_of_returned sound returned meant).bind fun found rest sound keeps given => ?_
  obtain ⟨rfl, -⟩ := given
  have kinds : found.kind = .name ∨ found.kind = .digits := by simpa [opensWire] using opens
  rcases kinds with kind | kind <;> simp only [kind]
  · exact ((tracks_endpoint found.text rest sound).imp fun _ _ more => keeps.trans more).after keeps
  · exact runs_ok sound keeps keeps fun _ _ => rfl

theorem tracks_wireBehind (source : Endpoint) :
    Tracks 1 (expect .arrow >>= fun _ => wireTarget >>= fun target =>
        (pure { source, target } : Guarded σ Wire))
      fun _ => Rule.expect .arrow >>= fun _ => Grammar.wireTarget >>= fun target =>
        pure ({ source, target } : Wire) :=
  (tracks_expect (by simp)).bind fun _ => tracks_wireTarget.zero.bind_pure _

theorem elementTracks_wires : ElementTracks (wires : Element σ Wire) fun _ => Grammar.wires := by
  refine ⟨fun _ => rfl, fun cursor token sound returned meant opens => ?_⟩
  refine (runs_wireSource sound returned meant opens).bind fun source rest sound keeps _ => ?_
  exact ((tracks_wireBehind source rest sound).imp fun _ _ more => keeps.trans more).after keeps

end Elements

section Lists

theorem tracks_turn {element : Element σ α} {plain : (source : Source σ) -> Netlist.Element σ α}
    (tracks : ElementTracks element plain) :
    Tracks 1 (turn element) fun source => Grammar.turn (plain source) := by
  intro cursor sound
  refine (runs_next cursor sound).bind fun token rest sound keeps gives => ?_
  by_cases semicolon : token.kind = .semicolon
  · simp only [semicolon, if_true]
    exact runs_ok sound keeps (gives.uses (by simp [semicolon])) fun _ _ => rfl
  by_cases ended : token.kind = .endOfInput
  · simp only [ended, if_true]
    exact runs_error sound keeps fun _ _ => rfl
  simp only [semicolon, ended, tracks.opens, if_false]
  by_cases opens : element.opens token.kind
  · obtain ⟨back, returned, sound, keeps⟩ := gives.giveBack
    simp only [opens, if_true]
    rw [bind_of_ok back]
    refine ((tracks.rule _ token sound returned gives.meant opens).bind
      fun value last sound less uses => ?_).after keeps
    exact runs_ok sound less (keeps.trans uses) fun _ _ => rfl
  · simp only [opens, Bool.false_eq_true, if_false]
    exact runs_ok sound keeps (gives.uses ended) fun _ _ => rfl

theorem tracks_bodyRound {element : Element σ α}
    {plain : (source : Source σ) -> Netlist.Element σ α}
    (tracks : ElementTracks element plain) (found : Array α) :
    Tracks 1 (bodyRound element found) fun source =>
      Grammar.turn (plain source) >>= fun turned => pure (turned.round found) :=
  (tracks_turn tracks).bind_pure _

theorem tracks_body {element : Element σ α} {plain : (source : Source σ) -> Netlist.Element σ α}
    (tracks : ElementTracks element plain) (found : Array α) :
    Tracks 1 (body element found) fun source => Grammar.body (plain source) found :=
  tracks_loop (fun source => Rule.unfolds_body (plain source)) (tracks_bodyRound tracks) found

theorem tracks_wireListsRound (found : Array Wire) :
    Tracks 1 (wireListsRound found : Guarded σ (Round (Array Wire) (Array Wire))) fun _ =>
      Grammar.body Grammar.wires found >>= fun found =>
        (Rule.next >>= fun token => Rule.giveBack >>= fun _ => pure token.kind) >>= fun kind =>
          pure (if opensWire kind then .again found else .done found) :=
  (tracks_body elementTracks_wires found).bind fun _ => tracks_peek.bind_pure _

theorem tracks_wireLists (found : Array Wire) :
    Tracks 1 (wireLists found : Guarded σ (Array Wire)) fun _ => Grammar.wireLists found :=
  tracks_loop (fun _ => Rule.unfolds_wireLists) tracks_wireListsRound found

theorem tracks_statement (heading : Heading) {entries : Guarded σ (Array α)}
    {rule : Source σ -> Rule σ (Array α)} (tracks : Tracks 1 entries rule) :
    Tracks 1 (statement heading entries) fun source => Grammar.statement heading (rule source) := by
  refine Tracks.bind_uses ?_ fun _ => tracks.bind fun found =>
    (tracks_note _).bind fun _ => tracks_pure _
  exact (tracks_note _).bind fun _ => (tracks_expect (by simp)).zero.bind fun _ =>
    (tracks_expect (by simp)).zero.bind_pure _

theorem tracks_inputStatement :
    Tracks 1 (inputStatement : Guarded σ (List Port)) fun _ => Grammar.inputStatement :=
  tracks_statement .inputs (tracks_body elementTracks_ports #[])

theorem tracks_outputStatement :
    Tracks 1 (outputStatement : Guarded σ (List Port)) fun _ => Grammar.outputStatement :=
  tracks_statement .outputs (tracks_body elementTracks_ports #[])

theorem tracks_partStatement :
    Tracks 1 (partStatement : Guarded σ (List Part)) fun _ => Grammar.partStatement :=
  tracks_statement .parts (tracks_body elementTracks_parts #[])

theorem tracks_wireStatement :
    Tracks 1 (wireStatement : Guarded σ (List Wire)) fun _ => Grammar.wireStatement :=
  tracks_statement .wires (tracks_wireLists #[])

theorem tracks_program : Tracks 1 (program : Guarded σ Program) fun _ => Grammar.program :=
  tracks_inputStatement.bind fun _ => tracks_outputStatement.zero.bind fun _ =>
    tracks_partStatement.zero.bind fun _ => tracks_wireStatement.zero.bind_pure _

theorem tracks_call (asked : Call) :
    Tracks 1 (call asked : Guarded σ Answer) fun _ => asked.rule := by
  match asked with
  | .statement .inputs => exact tracks_inputStatement.bind_pure _
  | .statement .outputs => exact tracks_outputStatement.bind_pure _
  | .statement .parts => exact tracks_partStatement.bind_pure _
  | .statement .wires => exact tracks_wireStatement.bind_pure _
  | .program => exact tracks_program.bind_pure _

end Lists

end Guarded

end Netlist
