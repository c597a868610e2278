import Netlist.Proofs.Language.Program

set_option autoImplicit false

namespace Netlist

inductive Item where
  | input (number : Nat)
  | output (number : Nat)
  | part (number : Nat)
  | wire (number : Nat)

def Program.Has (program : Program) : Item -> Prop
  | .input number => number < program.inputs.length
  | .output number => number < program.outputs.length
  | .part number => number < program.parts.length
  | .wire number => number < program.wires.length

/-- The body `before ++ behind` is cut behind its entry of this number. -/
inductive EntryEnds {α : Type} (phrase : Phrase α) :
    Nat -> List Lexeme -> List Lexeme -> List α -> Prop where
  | here {before behind : List Lexeme} {value : α} {values : List α}
      (one : phrase.written (Lexeme.front behind) before value)
      (further : BodyWritten phrase behind values) :
      EntryEnds phrase 0 before behind (value :: values)
  | passed {number : Nat} {lexeme : Lexeme} {before behind : List Lexeme} {values : List α}
      (noSemicolon : lexeme.kind ≠ .semicolon) (noEntry : ¬ phrase.opens lexeme.kind)
      (ends : EntryEnds phrase number before behind values) :
      EntryEnds phrase number (lexeme :: before) behind values
  | later {number : Nat} {lexemes before behind : List Lexeme} {value : α} {values : List α}
      (one : phrase.written (Lexeme.front (before ++ behind)) lexemes value)
      (ends : EntryEnds phrase number before behind values) :
      EntryEnds phrase (number + 1) (lexemes ++ before) behind (value :: values)

inductive WireEnds : Nat -> List Lexeme -> List Lexeme -> List Wire -> Prop where
  | one {number : Nat} {before behind : List Lexeme} {values : List Wire}
      (ends : EntryEnds Phrase.wires number before behind values) :
      WireEnds number before behind values
  | first {number : Nat} {before behind rest : List Lexeme} {values others : List Wire}
      (ends : EntryEnds Phrase.wires number before behind values)
      (opens : (Lexeme.front rest).any Phrase.wires.opens)
      (further : SegmentsWritten rest others) :
      WireEnds number before (behind ++ rest) (values ++ others)
  | later {number : Nat} {lexemes before behind : List Lexeme} {values others : List Wire}
      (written : BodyWritten Phrase.wires lexemes values)
      (opens : (Lexeme.front (before ++ behind)).any Phrase.wires.opens)
      (ends : WireEnds number before behind others) :
      WireEnds (values.length + number) (lexemes ++ before) behind (values ++ others)

inductive StatementEnds {α : Type} (heading : Heading)
    (ends : Nat -> List Lexeme -> List Lexeme -> List α -> Prop) :
    Nat -> List Lexeme -> List Lexeme -> List α -> Prop where
  | intro {number : Nat} {before behind : List Lexeme} {values : List α}
      (inside : ends number before behind values) :
      StatementEnds heading ends number (.mark (.keyword heading) :: .mark .colon :: before) behind
        values

inductive ItemEnds (program : Program) : Item -> List Lexeme -> List Lexeme -> Prop where
  | input {number : Nat} {before behind outputs parts wires rest : List Lexeme}
      (ends : StatementEnds .inputs (EntryEnds Phrase.ports) number before behind program.inputs)
      (outputsWritten : StatementWritten .outputs (BodyWritten Phrase.ports) outputs program.outputs)
      (partsWritten : StatementWritten .parts (BodyWritten Phrase.parts) parts program.parts)
      (wiresWritten : StatementWritten .wires SegmentsWritten wires program.wires)
      (stops : ¬ (Lexeme.front rest).any Phrase.wires.opens) :
      ItemEnds program (.input number) before (behind ++ outputs ++ parts ++ wires ++ rest)
  | output {number : Nat} {inputs before behind parts wires rest : List Lexeme}
      (inputsWritten : StatementWritten .inputs (BodyWritten Phrase.ports) inputs program.inputs)
      (ends : StatementEnds .outputs (EntryEnds Phrase.ports) number before behind program.outputs)
      (partsWritten : StatementWritten .parts (BodyWritten Phrase.parts) parts program.parts)
      (wiresWritten : StatementWritten .wires SegmentsWritten wires program.wires)
      (stops : ¬ (Lexeme.front rest).any Phrase.wires.opens) :
      ItemEnds program (.output number) (inputs ++ before) (behind ++ parts ++ wires ++ rest)
  | part {number : Nat} {inputs outputs before behind wires rest : List Lexeme}
      (inputsWritten : StatementWritten .inputs (BodyWritten Phrase.ports) inputs program.inputs)
      (outputsWritten : StatementWritten .outputs (BodyWritten Phrase.ports) outputs program.outputs)
      (ends : StatementEnds .parts (EntryEnds Phrase.parts) number before behind program.parts)
      (wiresWritten : StatementWritten .wires SegmentsWritten wires program.wires)
      (stops : ¬ (Lexeme.front rest).any Phrase.wires.opens) :
      ItemEnds program (.part number) (inputs ++ outputs ++ before) (behind ++ wires ++ rest)
  | wire {number : Nat} {inputs outputs parts before behind rest : List Lexeme}
      (inputsWritten : StatementWritten .inputs (BodyWritten Phrase.ports) inputs program.inputs)
      (outputsWritten : StatementWritten .outputs (BodyWritten Phrase.ports) outputs program.outputs)
      (partsWritten : StatementWritten .parts (BodyWritten Phrase.parts) parts program.parts)
      (ends : StatementEnds .wires WireEnds number before behind program.wires)
      (stops : ¬ (Lexeme.front rest).any Phrase.wires.opens) :
      ItemEnds program (.wire number) (inputs ++ outputs ++ parts ++ before) (behind ++ rest)

def Lexeme.EndsElement (lexeme : Lexeme) : Prop :=
  lexeme.kind = .name ∨ lexeme.kind = .rightBracket

def EndsElement (lexemes : List Lexeme) : Prop :=
  exists init last, lexemes = init ++ [last] ∧ last.EndsElement

theorem EndsElement.append {lexemes : List Lexeme} (ends : EndsElement lexemes)
    (front : List Lexeme) : EndsElement (front ++ lexemes) := by
  obtain ⟨init, last, rfl, ends⟩ := ends
  exact ⟨front ++ init, last, (List.append_assoc ..).symm, ends⟩

theorem EndsElement.cons {lexemes : List Lexeme} (ends : EndsElement lexemes) (lexeme : Lexeme) :
    EndsElement (lexeme :: lexemes) :=
  ends.append [lexeme]

theorem EndsElement.ne_nil {lexemes : List Lexeme} (ends : EndsElement lexemes) : lexemes ≠ [] := by
  obtain ⟨init, last, rfl, -⟩ := ends
  simp

theorem endsElement_name (text : String) : EndsElement [.name text] :=
  ⟨[], .name text, rfl, .inl rfl⟩

theorem endsElement_bracket : EndsElement [.mark .rightBracket] :=
  ⟨[], .mark .rightBracket, rfl, .inr rfl⟩

structure Phrase.Separable {α : Type} (phrase : Phrase α) : Prop where
  passed : ¬ phrase.opens .comma
  closed : ∀ next lexemes value, phrase.written next lexemes value ->
    phrase.written (some .comma) lexemes value
  last : ∀ next lexemes value, phrase.written next lexemes value -> EndsElement lexemes

theorem Phrase.separable_ports : ports.Separable where
  passed := by simp [ports]
  closed next lexemes port written := by
    cases written with
    | bare alone => exact .bare (by simp)
    | sized pin => exact .sized pin
  last next lexemes port written := by
    cases written with
    | bare alone => exact endsElement_name _
    | sized pin => exact ((endsElement_bracket.cons _).cons _).cons _

theorem Phrase.separable_parts : parts.Separable where
  passed := by simp [parts]
  closed next lexemes part written := written
  last next lexemes part written := by
    cases written with
    | intro => exact (endsElement_name _).cons _

theorem PinsWritten.last {lexemes : List Lexeme} {pins : PinRange}
    (written : PinsWritten lexemes pins) : EndsElement lexemes := by
  cases written with
  | single written => exact (endsElement_bracket.cons _).cons _
  | range left right => exact (((endsElement_bracket.cons _).cons _).cons _).cons _

section Endpoint

variable {next : Option Token.Kind} {lexemes : List Lexeme} {endpoint : Endpoint}

theorem EndpointWritten.closed (written : EndpointWritten next lexemes endpoint) :
    EndpointWritten (some .comma) lexemes endpoint := by
  cases written with
  | bare noSelector noPins => exact .bare (by simp) (by simp)
  | pins written => exact .pins written
  | selector noPins => exact .selector (by simp)
  | both written => exact .both written

theorem EndpointWritten.last (written : EndpointWritten next lexemes endpoint) :
    EndsElement lexemes := by
  cases written with
  | bare noSelector noPins => exact endsElement_name _
  | pins written => exact written.last.cons _
  | selector noPins => exact ((endsElement_name _).cons _).cons _
  | both written => exact ((written.last.cons _).cons _).cons _

end Endpoint

theorem Phrase.separable_wires : wires.Separable where
  passed := by simp [wires]
  closed next lexemes wire written := by
    cases written with
    | constant right => exact .constant right.closed
    | driven left right => exact .driven left right.closed
  last next lexemes wire written := by
    cases written with
    | constant right => exact (right.last.cons _).cons _
    | driven left right => exact (right.last.cons _).append _

section Entry

variable {α : Type} {phrase : Phrase α} {number : Nat} {before behind : List Lexeme}
  {values : List α}

theorem EntryEnds.last (separable : phrase.Separable)
    (ends : EntryEnds phrase number before behind values) : EndsElement before := by
  induction ends with
  | here one further => exact separable.last _ _ _ one
  | passed noSemicolon noEntry ends ih => exact ih.cons _
  | later one ends ih => exact ih.append _

theorem EntryEnds.written_comma (separable : phrase.Separable)
    (ends : EntryEnds phrase number before behind values) :
    BodyWritten phrase (before ++ .mark .comma :: behind) values := by
  induction ends with
  | here one further =>
      have comma := @BodyWritten.passed _ _ (.mark .comma) _ _ (by simp [Lexeme.mark])
        separable.passed further
      exact .entry (separable.closed _ _ _ one) comma
  | passed noSemicolon noEntry ends ih => exact .passed noSemicolon noEntry ih
  | @later number lexemes before behind value values one ends ih =>
      have some' := (ends.last separable).ne_nil
      rw [Lexeme.front_append some', ← Lexeme.front_append some' (.mark .comma :: behind)] at one
      rw [List.append_assoc]
      exact .entry one ih

theorem EntryEnds.exists_of_written {lexemes : List Lexeme}
    (written : BodyWritten phrase lexemes values) (inside : number < values.length) :
    exists before behind, lexemes = before ++ behind ∧
      EntryEnds phrase number before behind values := by
  induction written generalizing number with
  | ended => simp at inside
  | passed noSemicolon noEntry further ih =>
      obtain ⟨before, behind, rfl, ends⟩ := ih inside
      exact ⟨_ :: before, behind, rfl, .passed noSemicolon noEntry ends⟩
  | @entry lexemes rest value values one further ih =>
      cases number with
      | zero => exact ⟨lexemes, rest, rfl, .here one further⟩
      | succ number =>
          obtain ⟨before, behind, rfl, ends⟩ := ih (Nat.lt_of_succ_lt_succ inside)
          exact ⟨lexemes ++ before, behind, (List.append_assoc ..).symm, .later one ends⟩

end Entry

section Wire

variable {number : Nat} {before behind : List Lexeme} {values : List Wire}

theorem WireEnds.last (ends : WireEnds number before behind values) : EndsElement before := by
  induction ends with
  | one ends => exact ends.last Phrase.separable_wires
  | first ends opens further => exact ends.last Phrase.separable_wires
  | later written opens ends ih => exact ih.append _

theorem WireEnds.written_comma (ends : WireEnds number before behind values) :
    SegmentsWritten (before ++ .mark .comma :: behind) values := by
  induction ends with
  | one ends => exact .one (ends.written_comma Phrase.separable_wires)
  | @first number before behind rest values others ends opens further =>
      have written := ends.written_comma Phrase.separable_wires
      simpa using SegmentsWritten.more written opens further
  | @later number lexemes before behind values others written opens ends ih =>
      have some' := ends.last.ne_nil
      rw [Lexeme.front_append some', ← Lexeme.front_append some' (.mark .comma :: behind)] at opens
      rw [List.append_assoc]
      exact .more written opens ih

theorem WireEnds.exists_of_written {lexemes : List Lexeme} (written : SegmentsWritten lexemes values)
    (inside : number < values.length) :
    exists before behind, lexemes = before ++ behind ∧ WireEnds number before behind values := by
  induction written generalizing number with
  | one written =>
      obtain ⟨before, behind, rfl, ends⟩ := EntryEnds.exists_of_written written inside
      exact ⟨before, behind, rfl, .one ends⟩
  | @more lexemes rest values others written opens further ih =>
      by_cases here : number < values.length
      · obtain ⟨before, behind, rfl, ends⟩ := EntryEnds.exists_of_written written here
        exact ⟨before, behind ++ rest, List.append_assoc .., .first ends opens further⟩
      · have split : number = values.length + (number - values.length) := by omega
        rw [List.length_append] at inside
        obtain ⟨before, behind, rfl, ends⟩ := @ih (number - values.length) (by omega)
        rw [split]
        exact ⟨lexemes ++ before, behind, (List.append_assoc ..).symm, .later written opens ends⟩

end Wire

/-- Places where elements end, with regard to how the lists are written that they stand in. -/
structure Cuts {α : Type} (ends : Nat -> List Lexeme -> List Lexeme -> List α -> Prop)
    (entries : List Lexeme -> List α -> Prop) : Prop where
  last : ∀ number before behind values, ends number before behind values -> EndsElement before
  comma : ∀ number before behind values, ends number before behind values ->
    entries (before ++ .mark .comma :: behind) values
  total : ∀ number lexemes values, entries lexemes values -> number < values.length ->
    exists before behind, lexemes = before ++ behind ∧ ends number before behind values

theorem Phrase.Separable.cuts {α : Type} {phrase : Phrase α} (separable : phrase.Separable) :
    Cuts (EntryEnds phrase) (BodyWritten phrase) where
  last _ _ _ _ ends := ends.last separable
  comma _ _ _ _ ends := ends.written_comma separable
  total _ _ _ written inside := EntryEnds.exists_of_written written inside

theorem cuts_wires : Cuts WireEnds SegmentsWritten where
  last _ _ _ _ ends := ends.last
  comma _ _ _ _ ends := ends.written_comma
  total _ _ _ written inside := WireEnds.exists_of_written written inside

theorem Cuts.statement {α : Type} {ends : Nat -> List Lexeme -> List Lexeme -> List α -> Prop}
    {entries : List Lexeme -> List α -> Prop} (cuts : Cuts ends entries) (heading : Heading) :
    Cuts (StatementEnds heading ends) (StatementWritten heading entries) where
  last number before behind values ends := by
    cases ends with
    | intro inside => exact ((cuts.last _ _ _ _ inside).cons _).cons _
  comma number before behind values ends := by
    cases ends with
    | intro inside => exact .intro (cuts.comma _ _ _ _ inside)
  total number lexemes values written inside := by
    cases written with
    | intro written =>
        obtain ⟨before, behind, rfl, ends⟩ := cuts.total _ _ _ written inside
        exact ⟨_, behind, rfl, .intro ends⟩

section Item

variable {program : Program} {item : Item} {before behind : List Lexeme}

theorem ItemEnds.last (ends : ItemEnds program item before behind) : EndsElement before := by
  have ports := Phrase.separable_ports.cuts
  have parts := Phrase.separable_parts.cuts
  cases ends with
  | input ends => exact (ports.statement _).last _ _ _ _ ends
  | output _ ends => exact ((ports.statement _).last _ _ _ _ ends).append _
  | part _ _ ends => exact ((parts.statement _).last _ _ _ _ ends).append _
  | wire _ _ _ ends => exact ((cuts_wires.statement _).last _ _ _ _ ends).append _

theorem ItemEnds.written_comma (ends : ItemEnds program item before behind) :
    ProgramWritten (before ++ .mark .comma :: behind) program := by
  have ports := Phrase.separable_ports.cuts
  have parts := Phrase.separable_parts.cuts
  cases ends with
  | input ends outputsWritten partsWritten wiresWritten stops =>
      have written := (ports.statement _).comma _ _ _ _ ends
      simpa using ProgramWritten.intro written outputsWritten partsWritten wiresWritten stops
  | output inputsWritten ends partsWritten wiresWritten stops =>
      have written := (ports.statement _).comma _ _ _ _ ends
      simpa using ProgramWritten.intro inputsWritten written partsWritten wiresWritten stops
  | part inputsWritten outputsWritten ends wiresWritten stops =>
      have written := (parts.statement _).comma _ _ _ _ ends
      simpa using ProgramWritten.intro inputsWritten outputsWritten written wiresWritten stops
  | wire inputsWritten outputsWritten partsWritten ends stops =>
      have written := (cuts_wires.statement _).comma _ _ _ _ ends
      simpa using ProgramWritten.intro inputsWritten outputsWritten partsWritten written stops

theorem ItemEnds.exists_of_written {lexemes : List Lexeme} (written : ProgramWritten lexemes program)
    (has : program.Has item) :
    exists before behind, lexemes = before ++ behind ∧ ItemEnds program item before behind := by
  have ports := Phrase.separable_ports.cuts
  have parts := Phrase.separable_parts.cuts
  cases written with
  | intro inputsWritten outputsWritten partsWritten wiresWritten stops =>
      cases item with
      | input number =>
          obtain ⟨before, behind, rfl, ends⟩ := (ports.statement _).total _ _ _ inputsWritten has
          exact ⟨_, _, by simp, .input ends outputsWritten partsWritten wiresWritten stops⟩
      | output number =>
          obtain ⟨before, behind, rfl, ends⟩ := (ports.statement _).total _ _ _ outputsWritten has
          exact ⟨_, _, by simp, .output inputsWritten ends partsWritten wiresWritten stops⟩
      | part number =>
          obtain ⟨before, behind, rfl, ends⟩ := (parts.statement _).total _ _ _ partsWritten has
          exact ⟨_, _, by simp, .part inputsWritten outputsWritten ends wiresWritten stops⟩
      | wire number =>
          obtain ⟨before, behind, rfl, ends⟩ :=
            (cuts_wires.statement _).total _ _ _ wiresWritten has
          exact ⟨_, _, by simp, .wire inputsWritten outputsWritten partsWritten ends stops⟩

end Item

end Netlist
