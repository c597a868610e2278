import Netlist.Proofs.Language.Program

set_option autoImplicit false

namespace Netlist

inductive Side where
  | source
  | target
deriving DecidableEq

inductive Bound where
  | first
  | last
deriving DecidableEq

inductive Use where
  -- the width of a port
  | width
  -- a pin at one end of a wire
  | pin (side : Side) (bound : Bound)
  -- what a wire without a driver carries
  | constant
  -- the number stands between two entries
  | nothing
deriving DecidableEq

/-- A number of a program: which statement it stands in, behind how many entries, and what for. -/
structure Slot where
  heading : Heading
  number : Nat
  use : Use
deriving DecidableEq

def PinFits (literal : String) : Prop :=
  Nat.ofDigitChars 10 literal.toList 0 ≤ PinRange.maxPin

namespace Use

def isPin : Use -> Bool
  | .width | .pin .. => true
  | .constant | .nothing => false

def Fits (use : Use) (literal : String) : Prop :=
  use.isPin -> PinFits literal

end Use

def PinRange.bound (pins : PinRange) : Bound -> UInt32
  | .first => pins.first
  | .last => pins.last

def Wire.side (wire : Wire) : Side -> Endpoint
  | .source => wire.source
  | .target => wire.target

/-- The number is kept in the entry: a pin as what it says, a constant as it is written. -/
def Port.Keeps (port : Port) (literal : String) : Use -> Prop
  | .width => port.pins.first = 1 ∧ PinWritten literal port.pins.last
  | _ => False

def Wire.Keeps (wire : Wire) (literal : String) : Use -> Prop
  | .pin side bound => PinWritten literal ((wire.side side).pins.bound bound)
  | .constant => wire.source = { name := literal, pins := { first := 0, last := 0 } }
  | _ => False

structure Numbers (α : Type) where
  upTo : String -> Use -> List Lexeme -> Prop
  keeps : String -> Use -> α -> Prop

namespace Numbers

variable {α : Type}

def Keeps (numbers : Numbers α) (literal : String) (number : Nat) (use : Use) (values : List α) :
    Prop :=
  use = .nothing ∨ exists value, values[number]? = some value ∧ numbers.keeps literal use value

end Numbers

inductive PortUpTo (literal : String) : Use -> List Lexeme -> Prop where
  | width {id : String} : PortUpTo literal .width [.name id, .mark .leftBracket, .digits literal]

inductive PinsUpTo (literal : String) : Bound -> List Lexeme -> Prop where
  | first : PinsUpTo literal .first [.mark .leftBracket, .digits literal]
  | last {low : String} {first : UInt32} (left : PinWritten low first) :
      PinsUpTo literal .last [.mark .leftBracket, .digits low, .mark .colon, .digits literal]

theorem PinsUpTo.eq_cons {literal : String} {bound : Bound} {lexemes : List Lexeme}
    (upTo : PinsUpTo literal bound lexemes) :
    exists tail, lexemes = .mark .leftBracket :: tail := by
  cases upTo with
  | first => exact ⟨_, rfl⟩
  | last left => exact ⟨_, rfl⟩

inductive EndpointUpTo (literal : String) : Bound -> List Lexeme -> Prop where
  | pins {name : String} {bound : Bound} {lexemes : List Lexeme}
      (upTo : PinsUpTo literal bound lexemes) : EndpointUpTo literal bound (.name name :: lexemes)
  | both {name selector : String} {bound : Bound} {lexemes : List Lexeme}
      (upTo : PinsUpTo literal bound lexemes) :
      EndpointUpTo literal bound (.name name :: .mark .dot :: .name selector :: lexemes)

theorem EndpointUpTo.eq_cons {literal : String} {bound : Bound} {lexemes : List Lexeme}
    (upTo : EndpointUpTo literal bound lexemes) :
    exists name tail, lexemes = .name name :: tail := by
  cases upTo with
  | pins upTo => exact ⟨_, _, rfl⟩
  | both upTo => exact ⟨_, _, rfl⟩

inductive WireUpTo (literal : String) : Use -> List Lexeme -> Prop where
  | constant : WireUpTo literal .constant [.digits literal]
  | source {bound : Bound} {lexemes : List Lexeme} (upTo : EndpointUpTo literal bound lexemes) :
      WireUpTo literal (.pin .source bound) lexemes
  | ofConstant {text : String} {bound : Bound} {lexemes : List Lexeme}
      (upTo : EndpointUpTo literal bound lexemes) :
      WireUpTo literal (.pin .target bound) (.digits text :: .mark .arrow :: lexemes)
  | driven {before behind : List Lexeme} {source : Endpoint} {bound : Bound}
      (left : EndpointWritten (some .arrow) before source)
      (upTo : EndpointUpTo literal bound behind) :
      WireUpTo literal (.pin .target bound) (before ++ .mark .arrow :: behind)

namespace Numbers

def ports : Numbers Port :=
  { upTo := PortUpTo, keeps := fun literal use port => port.Keeps literal use }

def parts : Numbers Part :=
  { upTo := fun _ _ _ => False, keeps := fun _ _ _ => False }

def wires : Numbers Wire :=
  { upTo := WireUpTo, keeps := fun literal use wire => wire.Keeps literal use }

end Numbers

inductive BodyUpTo {α : Type} (phrase : Phrase α) (numbers : Numbers α) (literal : String) :
    Nat -> Use -> List Lexeme -> Prop where
  | here {use : Use} {lexemes : List Lexeme} (one : numbers.upTo literal use lexemes) :
      BodyUpTo phrase numbers literal 0 use lexemes
  | between (noEntry : ¬ phrase.opens .digits) :
      BodyUpTo phrase numbers literal 0 .nothing [.digits literal]
  | passed {number : Nat} {use : Use} {lexeme : Lexeme} {rest : List Lexeme}
      (noSemicolon : lexeme.kind ≠ .semicolon) (noEntry : ¬ phrase.opens lexeme.kind)
      (further : BodyUpTo phrase numbers literal number use rest) :
      BodyUpTo phrase numbers literal number use (lexeme :: rest)
  | later {number : Nat} {use : Use} {lexemes rest : List Lexeme} {value : α}
      (one : phrase.written (Lexeme.front rest) lexemes value)
      (further : BodyUpTo phrase numbers literal number use rest) :
      BodyUpTo phrase numbers literal (number + 1) use (lexemes ++ rest)

inductive SegmentsUpTo (literal : String) : Nat -> Use -> List Lexeme -> Prop where
  | one {number : Nat} {use : Use} {lexemes : List Lexeme}
      (upTo : BodyUpTo Phrase.wires Numbers.wires literal number use lexemes) :
      SegmentsUpTo literal number use lexemes
  | more {number : Nat} {use : Use} {lexemes rest : List Lexeme} {values : List Wire}
      (written : BodyWritten Phrase.wires lexemes values)
      (opens : (Lexeme.front rest).any Phrase.wires.opens)
      (further : SegmentsUpTo literal number use rest) :
      SegmentsUpTo literal (values.length + number) use (lexemes ++ rest)

inductive StatementUpTo (upTo : String -> Nat -> Use -> List Lexeme -> Prop) (literal : String) :
    Slot -> List Lexeme -> Prop where
  | intro {slot : Slot} {lexemes : List Lexeme}
      (inside : upTo literal slot.number slot.use lexemes) :
      StatementUpTo upTo literal slot (.mark (.keyword slot.heading) :: .mark .colon :: lexemes)

inductive ProgramUpTo (literal : String) (slot : Slot) : List Lexeme -> Prop where
  | inputs {lexemes : List Lexeme} (here : slot.heading = .inputs)
      (upTo : StatementUpTo (BodyUpTo Phrase.ports Numbers.ports) literal slot lexemes) :
      ProgramUpTo literal slot lexemes
  | outputs {inputs lexemes : List Lexeme} {first : List Port} (here : slot.heading = .outputs)
      (inputsWritten : StatementWritten .inputs (BodyWritten Phrase.ports) inputs first)
      (upTo : StatementUpTo (BodyUpTo Phrase.ports Numbers.ports) literal slot lexemes) :
      ProgramUpTo literal slot (inputs ++ lexemes)
  | parts {inputs outputs lexemes : List Lexeme} {first second : List Port}
      (here : slot.heading = .parts)
      (inputsWritten : StatementWritten .inputs (BodyWritten Phrase.ports) inputs first)
      (outputsWritten : StatementWritten .outputs (BodyWritten Phrase.ports) outputs second)
      (upTo : StatementUpTo (BodyUpTo Phrase.parts Numbers.parts) literal slot lexemes) :
      ProgramUpTo literal slot (inputs ++ outputs ++ lexemes)
  | wires {inputs outputs parts lexemes : List Lexeme} {first second : List Port}
      {third : List Part} (here : slot.heading = .wires)
      (inputsWritten : StatementWritten .inputs (BodyWritten Phrase.ports) inputs first)
      (outputsWritten : StatementWritten .outputs (BodyWritten Phrase.ports) outputs second)
      (partsWritten : StatementWritten .parts (BodyWritten Phrase.parts) parts third)
      (upTo : StatementUpTo SegmentsUpTo literal slot lexemes) :
      ProgramUpTo literal slot (inputs ++ outputs ++ parts ++ lexemes)

def Program.Keeps (program : Program) (literal : String) (slot : Slot) : Prop :=
  match slot.heading with
  | .inputs => Numbers.ports.Keeps literal slot.number slot.use program.inputs
  | .outputs => Numbers.ports.Keeps literal slot.number slot.use program.outputs
  | .parts => Numbers.parts.Keeps literal slot.number slot.use program.parts
  | .wires => Numbers.wires.Keeps literal slot.number slot.use program.wires

end Netlist
