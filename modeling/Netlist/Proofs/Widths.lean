import Netlist.Proofs.Language.Entries
import Netlist.Proofs.RoundTrip.Followed

set_option autoImplicit false

namespace Netlist

structure Declaration where
  id : String
  digits : Option String

def Declaration.width (declaration : Declaration) : Nat :=
  declaration.digits.elim 1 fun text => Nat.ofDigitChars 10 text.toList 0

inductive DeclarationWritten (next : Option Token.Kind) : List Lexeme -> Declaration -> Prop where
  | bare {id : String} (alone : next ≠ some .leftBracket) :
      DeclarationWritten next [.name id] { id, digits := none }
  | sized {id text : String} :
      DeclarationWritten next [.name id, .mark .leftBracket, .digits text, .mark .rightBracket]
        { id, digits := some text }

def Phrase.declarations : Phrase Declaration :=
  { opens := fun kind => kind = .name, written := DeclarationWritten }

namespace PinRange

theorem toNat_count (range : PinRange) :
    range.count.toNat = min (range.last.toNat + 1 - range.first.toNat) 4294967295 :=
  UInt32.toNat_ofNat_of_lt' (Nat.lt_of_le_of_lt (Nat.min_le_right ..) (by decide))

theorem toNat_span (range : PinRange) :
    range.span.toNat =
      min (((range.first.toNat : Int) - range.last.toNat).natAbs + 1) 4294967295 := by
  have bounded : range.span.toNat = min (max range.first.toNat range.last.toNat -
      min range.first.toNat range.last.toNat + 1) 4294967295 :=
    UInt32.toNat_ofNat_of_lt' (Nat.lt_of_le_of_lt (Nat.min_le_right ..) (by decide))
  rw [bounded]
  omega

theorem count_ofWidth (width : UInt32) : (ofWidth width).count = width := by
  have bound := width.toNat_lt
  apply UInt32.toNat.inj
  rw [toNat_count, ofWidth]
  simp
  omega

theorem isDescending_iff (range : PinRange) :
    range.isDescending ↔ range.last.toNat < range.first.toNat := by
  rw [isDescending, decide_eq_true_iff, UInt32.lt_iff_toNat_lt]

theorem span_comm (first last : UInt32) :
    ({ first, last } : PinRange).span = ({ first := last, last := first } : PinRange).span := by
  apply UInt32.toNat.inj
  rw [toNat_span, toNat_span]
  dsimp only
  omega

theorem toNat_span_eq_iff (first last : UInt32) :
    ({ first, last } : PinRange).span.toNat = ((first.toNat : Int) - last.toNat).natAbs + 1 ↔
      (first, last) ≠ (0, 4294967295) ∧ (first, last) ≠ (4294967295, 0) := by
  have low := first.toNat_lt
  have high := last.toNat_lt
  simp only [toNat_span, ne_eq, Prod.mk.injEq, ← UInt32.toNat_inj, UInt32.toNat_ofNat]
  omega

theorem count_eq_span {range : PinRange} (upward : ¬ range.isDescending) :
    range.count = range.span := by
  rw [isDescending_iff] at upward
  apply UInt32.toNat.inj
  rw [toNat_count, toNat_span]
  omega

theorem count_eq_zero_iff (range : PinRange) : range.count = 0 ↔ range.isDescending := by
  rw [← UInt32.toNat_inj, toNat_count, isDescending_iff, UInt32.toNat_zero]
  omega

end PinRange

structure Port.Declared (port : Port) (declaration : Declaration) : Prop where
  id : port.id = declaration.id
  width : port.width.toNat = declaration.width
  count : port.pins.count = port.width

section Declarations

variable {next : Option Token.Kind} {lexemes : List Lexeme}

theorem Port.declared_ofWidth {id : String} {digits : Option String} {width : UInt32}
    (written : width.toNat = ({ id, digits } : Declaration).width) :
    (Port.ofWidth id width).Declared { id, digits } :=
  ⟨rfl, written, PinRange.count_ofWidth width⟩

theorem PortWritten.exists_declaration {port : Port} (written : PortWritten next lexemes port) :
    exists declaration,
      DeclarationWritten next lexemes declaration ∧ port.Declared declaration := by
  cases written with
  | bare alone => exact ⟨_, .bare alone, Port.declared_ofWidth rfl⟩
  | sized pin => exact ⟨_, .sized, Port.declared_ofWidth (Eq.symm pin)⟩

theorem BodyWritten.exists_forall₂ {α β : Type} {phrase : Phrase α} {other : Phrase β}
    {related : α -> β -> Prop} (opens : other.opens = phrase.opens)
    (entries : ∀ next lexemes value, phrase.written next lexemes value ->
      exists entry, other.written next lexemes entry ∧ related value entry)
    {values : List α} (written : BodyWritten phrase lexemes values) :
    exists found, BodyWritten other lexemes found ∧ List.Forall₂ related values found := by
  induction written with
  | ended => exact ⟨[], .ended, .nil⟩
  | passed noSemicolon noEntry further ih =>
      obtain ⟨found, body, pairs⟩ := ih
      exact ⟨found, .passed noSemicolon (opens ▸ noEntry) body, pairs⟩
  | entry one further ih =>
      obtain ⟨entry, same, here⟩ := entries _ _ _ one
      obtain ⟨found, body, pairs⟩ := ih
      exact ⟨entry :: found, .entry same body, .cons here pairs⟩

theorem StatementWritten.exists_declarations {heading : Heading} {ports : List Port}
    (written : StatementWritten heading (BodyWritten Phrase.ports) lexemes ports) :
    exists declarations,
      StatementWritten heading (BodyWritten Phrase.declarations) lexemes declarations ∧
        List.Forall₂ Port.Declared ports declarations := by
  cases written with
  | intro body =>
      have entries (next : Option Token.Kind) (group : List Lexeme) (port : Port)
          (one : Phrase.ports.written next group port) :
          exists declaration, Phrase.declarations.written next group declaration ∧
            port.Declared declaration := PortWritten.exists_declaration one
      have opens : Phrase.declarations.opens = Phrase.ports.opens := rfl
      obtain ⟨declarations, inside, pairs⟩ := body.exists_forall₂ opens entries
      exact ⟨declarations, .intro inside, pairs⟩

end Declarations

section Lookup

variable {ports : List Port} {declarations : List Declaration}

theorem find?_of_declared (pairs : List.Forall₂ Port.Declared ports declarations) (id : String) :
    ((ports.find? fun port => port.id = id).map Port.width).map UInt32.toNat =
      (declarations.find? fun declaration => declaration.id = id).map Declaration.width := by
  induction pairs with
  | nil => rfl
  | @cons port declaration ports declarations declared pairs ih =>
      rw [List.find?_cons, List.find?_cons, declared.id]
      by_cases same : declaration.id = id
      · simp [same, declared.width]
      · simpa [same] using ih

theorem Program.widthOf_of_declared {program : Program} {inputs outputs : List Declaration}
    (front : List.Forall₂ Port.Declared program.inputs inputs)
    (back : List.Forall₂ Port.Declared program.outputs outputs) (id : String) :
    (program.widthOf id).map UInt32.toNat =
      ((inputs ++ outputs).find? fun declaration => declaration.id = id).map Declaration.width :=
  find?_of_declared (List.rel_append front back) id

theorem Program.widthOf_eq_none_iff {program : Program} {inputs outputs : List Declaration}
    (front : List.Forall₂ Port.Declared program.inputs inputs)
    (back : List.Forall₂ Port.Declared program.outputs outputs) (id : String) :
    program.widthOf id = none ↔ ∀ declaration ∈ inputs ++ outputs, declaration.id ≠ id := by
  rw [← Option.map_eq_none_iff (f := UInt32.toNat), widthOf_of_declared front back,
    Option.map_eq_none_iff, List.find?_eq_none]
  simp

end Lookup

theorem exists_declarations_of_parse {text : String} {program : Program}
    (parsed : Program.parse text = .ok program) :
    exists front back rest inputs outputs,
      (Token.significant text).map Token.lexeme = front ++ back ++ rest ∧
        StatementWritten .inputs (BodyWritten Phrase.declarations) front inputs ∧
        StatementWritten .outputs (BodyWritten Phrase.declarations) back outputs ∧
        List.Forall₂ Port.Declared program.inputs inputs ∧
        List.Forall₂ Port.Declared program.outputs outputs := by
  rw [parse_eq_ok_iff_meantOf, ← Token.lexemes_significant] at parsed
  generalize (Token.significant text).map Token.lexeme = lexemes at parsed
  cases parsed with
  | intro inputsWritten outputsWritten partsWritten wiresWritten stops =>
      obtain ⟨inputs, front, declared⟩ := inputsWritten.exists_declarations
      obtain ⟨outputs, back, others⟩ := outputsWritten.exists_declarations
      exact ⟨_, _, _, inputs, outputs, by rw [List.append_assoc, List.append_assoc], front, back,
        declared, others⟩

/-- Ports have the widths that are written, every width can be written, and the two counts of a
range differ only in what they make of its direction. -/
theorem widths_exact :
    (∀ (text : String) (program : Program), Program.parse text = .ok program ->
      exists front back rest inputs outputs,
        (Token.significant text).map Token.lexeme = front ++ back ++ rest ∧
        StatementWritten .inputs (BodyWritten Phrase.declarations) front inputs ∧
        StatementWritten .outputs (BodyWritten Phrase.declarations) back outputs ∧
        List.Forall₂ Port.Declared program.inputs inputs ∧
        List.Forall₂ Port.Declared program.outputs outputs ∧
        ∀ id,
          (program.widthOf id).map UInt32.toNat =
            ((inputs ++ outputs).find? fun declaration => declaration.id = id).map
              Declaration.width ∧
          (program.widthOf id = none ↔ ∀ declaration ∈ inputs ++ outputs, declaration.id ≠ id)) ∧
    (∀ (id : String) (width : UInt32), IsName id ->
      let program : Program := { inputs := [.ofWidth id width] }
      Program.parse program.render = .ok program ∧ program.widthOf id = some width) ∧
    ∀ first last : UInt32,
      let range : PinRange := { first, last }
      let reversed : PinRange := { first := last, last := first }
      let distance := ((first.toNat : Int) - last.toNat).natAbs
      range.span = reversed.span ∧ range.span.toNat = min (distance + 1) 4294967295 ∧
        (range.span.toNat = distance + 1 ↔
          (first, last) ≠ (0, 4294967295) ∧ (first, last) ≠ (4294967295, 0)) ∧
        (¬ range.isDescending -> range.count = range.span) ∧
        (range.count = 0 ↔ range.isDescending) := by
  refine ⟨fun text program parsed => ?_, fun id width isName => ?_, fun first last => ?_⟩
  · obtain ⟨front, back, rest, inputs, outputs, whole, before, behind, declared, others⟩ :=
      exists_declarations_of_parse parsed
    exact ⟨front, back, rest, inputs, outputs, whole, before, behind, declared, others, fun id =>
      ⟨Program.widthOf_of_declared declared others id,
        Program.widthOf_eq_none_iff declared others id⟩⟩
  · have wellFormed : Program.WellFormed { inputs := [.ofWidth id width] } :=
      ⟨by simpa using ⟨isName, rfl⟩, by simp, by simp, by simp⟩
    exact ⟨Program.parse_render wellFormed, by
      simp [Program.widthOf, Port.ofWidth, Port.width, PinRange.ofWidth]⟩
  · exact ⟨PinRange.span_comm first last, PinRange.toNat_span _,
      PinRange.toNat_span_eq_iff first last, PinRange.count_eq_span, PinRange.count_eq_zero_iff _⟩

theorem widths_exact_twice :
    let program : Program :=
      { inputs := [.ofWidth "a" 4294967295, .ofWidth "b" 1]
        outputs := [.ofWidth "a" 2, .ofWidth "c" 0] }
    Program.parse "Inputs:a[04294967295],b;Outputs:a[2]c[0];Parts:;Wires:;" = .ok program ∧
      (exists inputs outputs,
        List.Forall₂ Port.Declared program.inputs inputs ∧
        List.Forall₂ Port.Declared program.outputs outputs ∧
        ∀ id, program.widthOf id = none ↔ ∀ declaration ∈ inputs ++ outputs, declaration.id ≠ id) ∧
      program.widthOf "a" = some 4294967295 ∧ program.widthOf "d" = none ∧
      IsName "a" ∧ ({ inputs := [.ofWidth "a" 0] } : Program).widthOf "a" = some 0 ∧
      (let range : PinRange := { first := 2, last := 5 }
      ¬ range.isDescending ∧ range.count = range.span) := by
  intro program
  have parsed : Program.parse "Inputs:a[04294967295],b;Outputs:a[2]c[0];Parts:;Wires:;" =
      .ok program := by decide +kernel
  have upward : ¬ ({ first := 2, last := 5 } : PinRange).isDescending := by decide
  obtain ⟨_, _, _, inputs, outputs, -, -, -, declared, others, found⟩ := widths_exact.1 _ _ parsed
  exact ⟨parsed, ⟨inputs, outputs, declared, others, fun id => (found id).2⟩, by decide, by decide,
    isName_a, (widths_exact.2.1 "a" 0 isName_a).2, upward, (widths_exact.2.2 2 5).2.2.2.1 upward⟩

end Netlist
