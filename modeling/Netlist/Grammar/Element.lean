import Netlist.Grammar.Rule
import Netlist.Program

set_option autoImplicit false

/-!
# Elements of a statement

Ports, parts and wires, each with the kinds of token it can open with:

    port     = name [ "[" digits "]" ]
    part     = name name
    wire     = ( digits | endpoint ) "->" endpoint
    endpoint = name [ "." name ] [ "[" digits [ ":" digits ] "]" ]
-/

namespace Netlist

structure Element (σ α : Type) [Source σ] where
  -- the kinds of token that open one
  opens : Token.Kind -> Bool
  rule : Rule σ α
  consumes : rule.Consumes

namespace Grammar

open Rule

variable {σ : Type} [Source σ]

def pin : Rule σ UInt32 := do
  let token <- expect .digits
  let value := Nat.ofDigitChars 10 token.text.toList 0
  if value ≤ PinRange.maxPin then pure (.ofNat value) else fail (.pinToken token)

def width : Rule σ PinRange := do
  let width <- pin
  let _ <- expect .rightBracket
  pure (.ofWidth width)

def port : Rule σ Port := do
  let id <- expect .name
  let pins <- lookahead
    (fun
      | .leftBracket => some width
      | _ => none)
    (.ofWidth 1)
  pure { id := id.text, pins }

def part : Rule σ Part := do
  let id <- next
  let module <- expect .name
  pure { id := id.text, module := module.text }

def pins : Rule σ PinRange := do
  let first <- pin
  let token <- next
  match token.kind with
  | .rightBracket => pure (.single first)
  | .colon => do
      let last <- pin
      let _ <- expect .rightBracket
      pure { first, last }
  | _ => fail (.unexpectedToken token ": or ]")

def selected (name : String) : Rule σ Endpoint := do
  let selector <- expect .name
  let pins <- lookahead
    (fun
      | .leftBracket => some pins
      | _ => none)
    .unspecified
  pure { name, selector := some selector.text, pins }

def endpoint (name : String) : Rule σ Endpoint :=
  lookahead
    (fun
      | .dot => some (selected name)
      | .leftBracket => some do
          let pins <- pins
          pure { name, pins }
      | _ => none)
    { name }

def wireSource : Rule σ Endpoint := do
  let token <- next
  match token.kind with
  -- a constant has neither selector nor pins
  | .digits => pure { name := token.text }
  | .name => endpoint token.text
  | _ => fail (.unexpectedToken token "digit or identifier")

def wireTarget : Rule σ Endpoint := do
  let token <- expect .name
  endpoint token.text

def wire : Rule σ Wire := do
  let source <- wireSource
  let _ <- expect .arrow
  let target <- wireTarget
  pure { source, target }

theorem consumes_pin : (pin : Rule σ UInt32).Consumes := by
  refine (consumes_expect (by simp)).bind fun token => ?_
  dsimp only
  split
  · exact neverGrows_pure _
  · exact neverGrows_fail _

theorem neverGrows_width : (width : Rule σ PinRange).NeverGrows :=
  consumes_pin.neverGrows.bind fun _ =>
    (consumes_expect (by simp)).neverGrows.bind fun _ => neverGrows_pure _

theorem consumes_port : (port : Rule σ Port).Consumes := by
  refine (consumes_expect (by simp)).bind fun id => NeverGrows.bind ?_ fun _ => neverGrows_pure _
  refine neverGrows_lookahead fun kind rule choice => ?_
  split at choice <;> simp only [Option.some.injEq, reduceCtorEq] at choice
  rw [← choice]
  exact neverGrows_width

theorem consumes_part : (part : Rule σ Part).Consumes :=
  neverGrows_next.bind_consumes fun _ =>
    (consumes_expect (by simp)).bind fun _ => neverGrows_pure _

theorem neverGrows_pins : (pins : Rule σ PinRange).NeverGrows := by
  refine consumes_pin.neverGrows.bind fun first => neverGrows_next.bind fun token => ?_
  split
  · exact neverGrows_pure _
  · exact consumes_pin.neverGrows.bind fun _ =>
      (consumes_expect (by simp)).neverGrows.bind fun _ => neverGrows_pure _
  · exact neverGrows_fail _

theorem neverGrows_selected (name : String) : (selected name : Rule σ Endpoint).NeverGrows := by
  refine (consumes_expect (by simp)).neverGrows.bind fun selector =>
    NeverGrows.bind ?_ fun _ => neverGrows_pure _
  refine neverGrows_lookahead fun kind rule choice => ?_
  split at choice <;> simp only [Option.some.injEq, reduceCtorEq] at choice
  rw [← choice]
  exact neverGrows_pins

theorem neverGrows_endpoint (name : String) : (endpoint name : Rule σ Endpoint).NeverGrows := by
  refine neverGrows_lookahead fun kind rule choice => ?_
  split at choice <;> simp only [Option.some.injEq, reduceCtorEq] at choice <;> rw [← choice]
  · exact neverGrows_selected name
  · exact neverGrows_pins.bind fun _ => neverGrows_pure _

theorem neverGrows_wireSource : (wireSource : Rule σ Endpoint).NeverGrows := by
  refine neverGrows_next.bind fun token => ?_
  split
  · exact neverGrows_pure _
  · exact neverGrows_endpoint _
  · exact neverGrows_fail _

theorem consumes_wire : (wire : Rule σ Wire).Consumes :=
  neverGrows_wireSource.bind_consumes fun _ =>
    (consumes_expect (by simp)).bind fun _ =>
      ((consumes_expect (by simp)).neverGrows.bind fun _ => neverGrows_endpoint _).bind fun _ =>
        neverGrows_pure _

def opensName (kind : Token.Kind) : Bool :=
  kind = .name

def opensWire (kind : Token.Kind) : Bool :=
  kind = .name || kind = .digits

def ports : Element σ Port :=
  { opens := opensName, rule := port, consumes := consumes_port }

def parts : Element σ Part :=
  { opens := opensName, rule := part, consumes := consumes_part }

def wires : Element σ Wire :=
  { opens := opensWire, rule := wire, consumes := consumes_wire }

end Grammar

end Netlist
