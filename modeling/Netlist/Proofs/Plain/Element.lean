import Netlist.Grammar.Element
import Netlist.Proofs.Plain.Rule

set_option autoImplicit false

namespace Netlist.Plain

variable {α : Type}

def pin : Plain UInt32 := do
  let token <- expect .digits
  let value := Nat.ofDigitChars 10 token.text.toList 0
  if value ≤ PinRange.maxPin then pure (.ofNat value) else fail (.pinToken token)

def width : Plain PinRange := do
  let width <- pin
  let _ <- expect .rightBracket
  pure (.ofWidth width)

def port : Plain Port := do
  let id <- expect .name
  let pins <- optional .leftBracket width (.ofWidth 1)
  pure { id := id.text, pins }

def part : Plain Part := do
  let id <- expect .name
  let module <- expect .name
  pure { id := id.text, module := module.text }

def pinsFrom (first : UInt32) : Plain PinRange := do
  let token <- take
  if token.kind = .rightBracket then pure (.single first)
  else if token.kind = .colon then do
    let last <- pin
    let _ <- expect .rightBracket
    pure { first, last }
  else fail (.unexpectedToken token ": or ]")

def pins : Plain PinRange := do
  let first <- pin
  pinsFrom first

def selector : Plain (Option String) := do
  let selector <- expect .name
  pure (some selector.text)

def endpoint (name : String) : Plain Endpoint := do
  let selector <- optional .dot selector none
  let pins <- optional .leftBracket pins .unspecified
  pure { name, selector, pins }

def wireSource : Plain Endpoint := do
  let token <- take
  if token.kind = .digits then pure { name := token.text }
  else if token.kind = .name then endpoint token.text
  else fail (.unexpectedToken token "digit or identifier")

def wireTarget : Plain Endpoint := do
  let token <- expect .name
  endpoint token.text

def wire : Plain Wire := do
  let source <- wireSource
  let _ <- expect .arrow
  let target <- wireTarget
  pure { source, target }

theorem moves_pin : Moves 1 pin := by
  intro tape place
  by_cases same : (tape.get place).kind = .digits
  · rw [pin, expect_bind_of_eq same]
    by_cases fits : Nat.ofDigitChars 10 (tape.get place).text.toList 0 ≤ PinRange.maxPin
    · simp only [fits, if_true]
      exact (moves_pure _ tape (place + 1)).of_succ (by simp [same])
    · simp only [fits, if_false]
      exact lands_fail (.inl rfl)
  · rw [pin, expect_bind_of_ne same]
    exact lands_fail (.inr ⟨_, rfl⟩)

theorem moves_width : Moves 2 width :=
  moves_pin.bind fun _ => (moves_expect (by simp)).bind fun _ => moves_pure _

theorem moves_port : Moves 1 port :=
  (moves_expect (by simp)).bind fun _ =>
    (moves_optional (by simp) (moves_width.mono (Nat.zero_le _))).bind fun _ => moves_pure _

theorem moves_part : Moves 2 part :=
  (moves_expect (by simp)).bind fun _ => (moves_expect (by simp)).bind fun _ => moves_pure _

theorem moves_pinsFrom (first : UInt32) : Moves 1 (pinsFrom first) := by
  intro tape place
  rw [pinsFrom, take_bind]
  split_ifs with bracket colon
  · exact (moves_pure _ tape (place + 1)).of_succ (by simp [bracket])
  -- the colon, a number and the closing bracket
  · have moves : Moves 2 (pin >>= fun last => expect .rightBracket >>= fun _ =>
        (pure { first, last } : Plain PinRange)) :=
      moves_pin.bind fun last => (moves_expect (by simp)).bind fun _ => moves_pure _
    exact ((moves tape (place + 1)).of_succ (by simp [colon])).mono (by omega)
  · exact lands_fail (.inr ⟨_, rfl⟩)

theorem moves_pins : Moves 2 pins :=
  moves_pin.bind moves_pinsFrom

theorem moves_endpoint (name : String) : Moves 0 (endpoint name) := by
  -- both clauses may be missing, so nothing is sure to be passed
  have selects : Moves 1 selector := (moves_expect (by simp)).bind fun _ => moves_pure _
  exact (moves_optional (by simp) (selects.mono (Nat.zero_le _))).bind fun _ =>
    (moves_optional (by simp) (moves_pins.mono (Nat.zero_le _))).bind fun _ => moves_pure _

theorem moves_wireSource : Moves 1 wireSource := by
  intro tape place
  rw [wireSource, take_bind]
  split_ifs with digits name
  · exact (moves_pure _ tape (place + 1)).of_succ (by simp [digits])
  · exact (moves_endpoint _ tape (place + 1)).of_succ (by simp [name])
  · exact lands_fail (.inr ⟨_, rfl⟩)

theorem moves_wire : Moves 3 wire :=
  moves_wireSource.bind fun _ => (moves_expect (by simp)).bind fun _ =>
    ((moves_expect (by simp)).bind fun _ => moves_endpoint _).bind fun _ => moves_pure _

structure Element (α : Type) where
  opens : Token.Kind -> Bool
  rule : Plain α
  moves : Moves 1 rule

def ports : Element Port :=
  { opens := Grammar.opensName, rule := port, moves := moves_port }

def parts : Element Part :=
  { opens := Grammar.opensName, rule := part, moves := moves_part.mono (by omega) }

def wires : Element Wire :=
  { opens := Grammar.opensWire, rule := wire, moves := moves_wire.mono (by omega) }

theorem lt_of_moves {rule : Plain α} (moves : Moves 1 rule) {tape : Tape} {place after : Nat}
    {value : α} (step : rule tape place = (.ok value, after)) : place < after := by
  have lands := moves tape place
  rw [step] at lands
  exact lands.1

end Netlist.Plain
