import Netlist.Program
import Netlist.Proofs.Lexing.Lexeme

set_option autoImplicit false

/-!
# The language of netlists

How programs are written, as relations between lexemes and what they stand for. Where a clause may
be left out, the kind of the lexeme that comes `next` has to show that it was: a clause is read
whenever it can be.
-/

namespace Netlist

namespace Token.Kind

def isMark : Kind -> Bool
  | .keyword _ | .dot | .comma | .semicolon | .colon | .leftBracket | .rightBracket | .arrow => true
  | _ => false

def sign : Kind -> String
  | .keyword .inputs => "Inputs"
  | .keyword .outputs => "Outputs"
  | .keyword .parts => "Parts"
  | .keyword .wires => "Wires"
  | .dot => "."
  | .comma => ","
  | .semicolon => ";"
  | .colon => ":"
  | .leftBracket => "["
  | .rightBracket => "]"
  | .arrow => "->"
  | _ => ""

theorem ne_endOfInput_of_isMark {kind : Kind} (mark : kind.isMark) : kind ≠ .endOfInput := by
  intro ended
  rw [ended] at mark
  simp [isMark] at mark

end Token.Kind

theorem Heading.word_eq_sign (heading : Heading) :
    heading.word = (Token.Kind.keyword heading).sign := by
  cases heading <;> rfl

namespace Lexeme

def name (text : String) : Lexeme :=
  { kind := .name, text }

def digits (text : String) : Lexeme :=
  { kind := .digits, text }

def mark (kind : Token.Kind) : Lexeme :=
  { kind, text := kind.sign }

theorem name_cons_inj {id other : String} {lexemes rest : List Lexeme}
    (same : name id :: lexemes = name other :: rest) : id = other ∧ lexemes = rest := by
  obtain ⟨head, tail⟩ := List.cons.inj same
  exact ⟨congrArg text head, tail⟩

def Spelled (lexemes : List Lexeme) : Prop :=
  ∀ lexeme ∈ lexemes, Spells lexeme.kind lexeme.text.toList

def front (lexemes : List Lexeme) : Option Token.Kind :=
  lexemes.head?.map Lexeme.kind

theorem Spells.eq_sign {kind : Token.Kind} {word : List Char} (spells : Spells kind word)
    (mark : kind.isMark) : String.ofList word = kind.sign := by
  cases spells with
  | @word first tail letter more =>
      unfold Token.Kind.ofWord at mark ⊢
      cases found : Heading.ofWord? (String.ofList (first :: tail)) with
      | none =>
          rw [found] at mark
          simp [Token.Kind.isMark] at mark
      | some heading =>
          have same := List.find?_some found
          exact (of_decide_eq_true same).symm.trans heading.word_eq_sign
  | arrow => rfl
  | @lone c lone =>
      revert mark
      unfold Lexer.delimiter?
      split <;> intro mark
      case h_7 => simp [Token.Kind.isMark] at mark
      all_goals rfl
  | _ => simp [Token.Kind.isMark] at mark

theorem spells_sign {kind : Token.Kind} (mark : kind.isMark) : Spells kind kind.sign.toList := by
  cases kind with
  | keyword heading =>
      obtain ⟨first, more, whole, letter, others⟩ : exists first more,
          heading.word.toList = first :: more ∧ first.isAlpha ∧ ∀ c ∈ more, c.isAlphanum := by
        cases heading <;> exact ⟨_, _, rfl, rfl, List.all_eq_true.mp rfl⟩
      have spells := Spells.word letter others
      have keyword : Token.Kind.ofWord heading.word = .keyword heading := by cases heading <;> rfl
      rw [← whole, String.ofList_toList, keyword, heading.word_eq_sign] at spells
      exact spells
  -- the arrow is the only other mark of more than one character
  | arrow => exact .arrow
  | dot => exact @Spells.lone '.' rfl
  | comma => exact @Spells.lone ',' rfl
  | semicolon => exact @Spells.lone ';' rfl
  | colon => exact @Spells.lone ':' rfl
  | leftBracket => exact @Spells.lone '[' rfl
  | rightBracket => exact @Spells.lone ']' rfl
  | _ => simp [Token.Kind.isMark] at mark

theorem Spells.eq_mark {lexeme : Lexeme} (spells : Spells lexeme.kind lexeme.text.toList)
    (fixed : lexeme.kind.isMark) : lexeme = mark lexeme.kind := by
  have text := spells.eq_sign fixed
  rw [String.ofList_toList] at text
  rw [mark, ← text]

end Lexeme

/-- The digits of a pin. Leading zeros do not count, and no pin is too large for its type. -/
def PinWritten (text : String) (pin : UInt32) : Prop :=
  Nat.ofDigitChars 10 text.toList 0 = pin.toNat

inductive PortWritten (next : Option Token.Kind) : List Lexeme -> Port -> Prop where
  | bare {id : String} (alone : next ≠ some .leftBracket) :
      PortWritten next [.name id] { id, pins := { first := 1, last := 1 } }
  | sized {id text : String} {width : UInt32} (pin : PinWritten text width) :
      PortWritten next [.name id, .mark .leftBracket, .digits text, .mark .rightBracket]
        { id, pins := { first := 1, last := width } }

inductive PartWritten : List Lexeme -> Part -> Prop where
  | intro {id module : String} : PartWritten [.name id, .name module] { id, module }

inductive PinsWritten : List Lexeme -> PinRange -> Prop where
  | single {text : String} {pin : UInt32} (written : PinWritten text pin) :
      PinsWritten [.mark .leftBracket, .digits text, .mark .rightBracket]
        { first := pin, last := pin }
  | range {low high : String} {first last : UInt32} (left : PinWritten low first)
      (right : PinWritten high last) :
      PinsWritten
        [.mark .leftBracket, .digits low, .mark .colon, .digits high, .mark .rightBracket]
        { first, last }

theorem PinsWritten.eq_cons {lexemes : List Lexeme} {pins : PinRange}
    (written : PinsWritten lexemes pins) :
    exists tail, lexemes = .mark .leftBracket :: tail := by
  cases written with
  | single written => exact ⟨_, rfl⟩
  | range left right => exact ⟨_, rfl⟩

inductive EndpointWritten (next : Option Token.Kind) : List Lexeme -> Endpoint -> Prop where
  | bare {name : String} (noSelector : next ≠ some .dot) (noPins : next ≠ some .leftBracket) :
      EndpointWritten next [.name name] { name, pins := { first := 0, last := 0 } }
  | pins {name : String} {lexemes : List Lexeme} {pins : PinRange}
      (written : PinsWritten lexemes pins) :
      EndpointWritten next (.name name :: lexemes) { name, pins }
  | selector {name selector : String} (noPins : next ≠ some .leftBracket) :
      EndpointWritten next [.name name, .mark .dot, .name selector]
        { name, selector := some selector, pins := { first := 0, last := 0 } }
  | both {name selector : String} {lexemes : List Lexeme} {pins : PinRange}
      (written : PinsWritten lexemes pins) :
      EndpointWritten next (.name name :: .mark .dot :: .name selector :: lexemes)
        { name, selector := some selector, pins }

theorem EndpointWritten.eq_cons {next : Option Token.Kind} {lexemes : List Lexeme}
    {endpoint : Endpoint} (written : EndpointWritten next lexemes endpoint) :
    exists tail, lexemes = .name endpoint.name :: tail := by
  cases written with
  | bare noSelector noPins => exact ⟨_, rfl⟩
  | pins written => exact ⟨_, rfl⟩
  | selector noPins => exact ⟨_, rfl⟩
  | both written => exact ⟨_, rfl⟩

inductive WireWritten (next : Option Token.Kind) : List Lexeme -> Wire -> Prop where
  | constant {text : String} {lexemes : List Lexeme} {target : Endpoint}
      (written : EndpointWritten next lexemes target) :
      WireWritten next (.digits text :: .mark .arrow :: lexemes)
        { source := { name := text, pins := { first := 0, last := 0 } }, target }
  | driven {before behind : List Lexeme} {source target : Endpoint}
      (left : EndpointWritten (some .arrow) before source)
      (right : EndpointWritten next behind target) :
      WireWritten next (before ++ .mark .arrow :: behind) { source, target }

structure Phrase (α : Type) where
  opens : Token.Kind -> Bool
  written : Option Token.Kind -> List Lexeme -> α -> Prop

namespace Phrase

def ports : Phrase Port :=
  { opens := fun kind => kind = .name, written := PortWritten }

def parts : Phrase Part :=
  { opens := fun kind => kind = .name, written := fun _ => PartWritten }

def wires : Phrase Wire :=
  { opens := fun kind => kind = .name || kind = .digits, written := WireWritten }

end Phrase

/-- Entries up to the semicolon, and between them lexemes that are passed over. -/
inductive BodyWritten {α : Type} (phrase : Phrase α) : List Lexeme -> List α -> Prop where
  | ended : BodyWritten phrase [.mark .semicolon] []
  | passed {lexeme : Lexeme} {rest : List Lexeme} {values : List α}
      (noSemicolon : lexeme.kind ≠ .semicolon) (noEntry : ¬ phrase.opens lexeme.kind)
      (further : BodyWritten phrase rest values) : BodyWritten phrase (lexeme :: rest) values
  | entry {lexemes rest : List Lexeme} {value : α} {values : List α}
      (one : phrase.written (Lexeme.front rest) lexemes value)
      (further : BodyWritten phrase rest values) :
      BodyWritten phrase (lexemes ++ rest) (value :: values)

/-- Bodies one after another. Those behind the first one begin with a wire. -/
inductive SegmentsWritten : List Lexeme -> List Wire -> Prop where
  | one {lexemes : List Lexeme} {values : List Wire}
      (written : BodyWritten Phrase.wires lexemes values) : SegmentsWritten lexemes values
  | more {lexemes rest : List Lexeme} {values others : List Wire}
      (written : BodyWritten Phrase.wires lexemes values)
      (opens : (Lexeme.front rest).any Phrase.wires.opens)
      (further : SegmentsWritten rest others) : SegmentsWritten (lexemes ++ rest) (values ++ others)

inductive StatementWritten {α : Type} (heading : Heading) (entries : List Lexeme -> List α -> Prop) :
    List Lexeme -> List α -> Prop where
  | intro {lexemes : List Lexeme} {values : List α} (written : entries lexemes values) :
      StatementWritten heading entries (.mark (.keyword heading) :: .mark .colon :: lexemes) values

/-- A program, and anything behind it that begins with no wire. -/
inductive ProgramWritten : List Lexeme -> Program -> Prop where
  | intro {inputs outputs parts wires rest : List Lexeme} {program : Program}
      (inputsWritten : StatementWritten .inputs (BodyWritten Phrase.ports) inputs program.inputs)
      (outputsWritten : StatementWritten .outputs (BodyWritten Phrase.ports) outputs program.outputs)
      (partsWritten : StatementWritten .parts (BodyWritten Phrase.parts) parts program.parts)
      (wiresWritten : StatementWritten .wires SegmentsWritten wires program.wires)
      (stops : ¬ (Lexeme.front rest).any Phrase.wires.opens) :
      ProgramWritten (inputs ++ outputs ++ parts ++ wires ++ rest) program

end Netlist
