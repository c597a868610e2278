import Netlist.Proofs.Language.Written

set_option autoImplicit false

namespace Netlist

def IsName (text : String) : Prop :=
  (exists first rest, text.toList = first :: rest ∧ first.isAlpha ∧ ∀ c ∈ rest, c.isAlphanum) ∧
    ∀ heading, text ≠ Heading.word heading

def IsNumber (text : String) : Prop :=
  text ≠ "" ∧ ∀ c ∈ text.toList, c.isDigit

theorem isName_a : IsName "a" :=
  ⟨⟨'a', [], rfl, rfl, by simp⟩, by rintro (_ | _ | _ | _) <;> simp [Heading.word]⟩

theorem isNumber_zero : IsNumber "0" :=
  ⟨by simp, by simp⟩

theorem IsName.alphanum {text : String} (isName : IsName text) :
    ∀ c ∈ text.toList, c.isAlphanum := by
  obtain ⟨⟨first, rest, whole, letter, more⟩, -⟩ := isName
  rw [whole]
  exact List.forall_mem_cons.mpr ⟨by simp [Char.isAlphanum, letter], more⟩

def Port.WellFormed (port : Port) : Prop :=
  IsName port.id ∧ port.pins.first = 1

def Part.WellFormed (part : Part) : Prop :=
  IsName part.id ∧ IsName part.module

def Endpoint.WellFormed (endpoint : Endpoint) : Prop :=
  IsName endpoint.name ∧ ∀ selector ∈ endpoint.selector, IsName selector

/-- A source that is no name is a constant, and then a bare one. -/
def Wire.WellFormed (wire : Wire) : Prop :=
  (wire.source.WellFormed ∨ IsNumber wire.source.name ∧ wire.source.selector = none ∧
    wire.source.pins = { first := 0, last := 0 }) ∧ wire.target.WellFormed

def Statement.WellFormed : Statement -> Prop
  | .inputs entries | .outputs entries => ∀ port ∈ entries, port.WellFormed
  | .parts entries => ∀ part ∈ entries, part.WellFormed
  | .wires entries => ∀ wire ∈ entries, wire.WellFormed

structure Program.WellFormed (program : Program) : Prop where
  inputs : ∀ port ∈ program.inputs, port.WellFormed
  outputs : ∀ port ∈ program.outputs, port.WellFormed
  parts : ∀ part ∈ program.parts, part.WellFormed
  wires : ∀ wire ∈ program.wires, wire.WellFormed

theorem Program.WellFormed.statements {program : Program} (wellFormed : program.WellFormed) :
    ∀ statement ∈ program.statements, statement.WellFormed := by
  intro statement member
  simp only [Program.statements, List.mem_cons, List.not_mem_nil, or_false] at member
  rcases member with rfl | rfl | rfl | rfl
  · exact wellFormed.inputs
  · exact wellFormed.outputs
  · exact wellFormed.parts
  · exact wellFormed.wires

namespace Heading

theorem mem_all (heading : Heading) : heading ∈ all := by
  cases heading <;> simp [all]

theorem ofWord?_eq_none_iff (text : String) :
    ofWord? text = none ↔ ∀ heading, text ≠ Heading.word heading := by
  rw [ofWord?, List.find?_eq_none]
  constructor
  · intro none' heading same
    exact none' heading (mem_all heading) (by simp [same])
  · intro other heading _ same
    exact other heading (of_decide_eq_true same).symm

end Heading

namespace Lexeme

theorem Spells.isName {text : String} (spells : Spells .name text.toList) : IsName text := by
  generalize whole : text.toList = word at spells
  generalize given : Token.Kind.name = kind at spells
  cases spells with
  | @word first rest letter more =>
      have same : String.ofList (first :: rest) = text := by rw [← whole, String.ofList_toList]
      rw [same] at given
      refine ⟨⟨first, rest, whole, letter, more⟩, ?_⟩
      rw [← Heading.ofWord?_eq_none_iff]
      -- a word that was found to be a name is no heading
      unfold Token.Kind.ofWord at given
      cases found : Heading.ofWord? text with
      | none => rfl
      | some heading =>
          rw [found] at given
          simp at given
  | lone lone =>
      unfold Lexer.delimiter? at given
      split at given <;> simp at given
  | _ => simp at given

theorem Spells.isNumber {text : String} (spells : Spells .digits text.toList) : IsNumber text := by
  generalize whole : text.toList = word at spells
  generalize given : Token.Kind.digits = kind at spells
  cases spells with
  | @digits first rest digit digits =>
      refine ⟨fun empty => ?_, fun c member => ?_⟩
      · rw [empty] at whole
        simp at whole
      · rw [whole] at member
        cases member with
        | head => exact digit
        | tail _ member => exact digits c member
  | word letter more =>
      unfold Token.Kind.ofWord at given
      split at given <;> simp at given
  | lone lone =>
      unfold Lexer.delimiter? at given
      split at given <;> simp at given
  | _ => simp at given

theorem spells_name {text : String} (isName : IsName text) : Spells .name text.toList := by
  obtain ⟨⟨first, more, whole, letter, others⟩, noKeyword⟩ := isName
  rw [← Heading.ofWord?_eq_none_iff] at noKeyword
  have spells := Spells.word letter others
  rwa [← whole, String.ofList_toList, Token.Kind.ofWord, noKeyword] at spells

theorem spells_digits {text : String} (isNumber : IsNumber text) : Spells .digits text.toList := by
  obtain ⟨some', digits⟩ := isNumber
  cases whole : text.toList with
  | nil => exact absurd (String.toList_eq_nil_iff.mp whole) some'
  | cons first more =>
      rw [whole] at digits
      exact .digits (digits first List.mem_cons_self)
        fun c member => digits c (List.mem_cons_of_mem _ member)

theorem Spelled.isName {lexemes : List Lexeme} (spelled : Spelled lexemes) {text : String}
    (member : name text ∈ lexemes) : IsName text :=
  (spelled _ member).isName

theorem Spelled.of_cons {lexeme : Lexeme} {lexemes : List Lexeme}
    (spelled : Spelled (lexeme :: lexemes)) : Spelled lexemes :=
  fun _ member => spelled _ (List.mem_cons_of_mem _ member)

theorem Spelled.of_append {front rest : List Lexeme} (spelled : Spelled (front ++ rest)) :
    Spelled front ∧ Spelled rest :=
  ⟨fun _ member => spelled _ (List.mem_append_left _ member),
    fun _ member => spelled _ (List.mem_append_right _ member)⟩

end Lexeme

open Lexeme (Spelled)

section Written

variable {next : Option Token.Kind} {lexemes : List Lexeme}

theorem PortWritten.wellFormed {port : Port} (written : PortWritten next lexemes port)
    (spelled : Spelled lexemes) : port.WellFormed := by
  cases written with
  | bare alone => exact ⟨spelled.isName List.mem_cons_self, rfl⟩
  | sized pin => exact ⟨spelled.isName List.mem_cons_self, rfl⟩

theorem PartWritten.wellFormed {part : Part} (written : PartWritten lexemes part)
    (spelled : Spelled lexemes) : part.WellFormed := by
  cases written with
  | intro => exact ⟨spelled.isName (by simp), spelled.isName (by simp)⟩

theorem EndpointWritten.wellFormed {endpoint : Endpoint}
    (written : EndpointWritten next lexemes endpoint) (spelled : Spelled lexemes) :
    endpoint.WellFormed := by
  cases written with
  | bare noSelector noPins => exact ⟨spelled.isName (by simp), by simp⟩
  | pins written => exact ⟨spelled.isName (by simp), by simp⟩
  | selector noPins =>
      refine ⟨spelled.isName (by simp), fun selector same => ?_⟩
      rw [← Option.mem_some.mp same]
      exact spelled.isName (by simp)
  | both written =>
      refine ⟨spelled.isName (by simp), fun selector same => ?_⟩
      rw [← Option.mem_some.mp same]
      exact spelled.isName (by simp)

theorem WireWritten.wellFormed {wire : Wire} (written : WireWritten next lexemes wire)
    (spelled : Spelled lexemes) : wire.WellFormed := by
  cases written with
  | constant right =>
      have number := (spelled _ List.mem_cons_self).isNumber
      exact ⟨.inr ⟨number, rfl, rfl⟩, right.wellFormed spelled.of_cons.of_cons⟩
  | driven left right =>
      obtain ⟨before, behind⟩ := spelled.of_append
      exact ⟨.inl (left.wellFormed before), right.wellFormed behind.of_cons⟩

theorem BodyWritten.forall_mem {α : Type} {phrase : Phrase α} {values : List α} {good : α -> Prop}
    (entries : ∀ next lexemes value, phrase.written next lexemes value -> Spelled lexemes ->
      good value)
    (written : BodyWritten phrase lexemes values) (spelled : Spelled lexemes) :
    ∀ value ∈ values, good value := by
  induction written with
  | ended => simp
  | passed noSemicolon noEntry further ih => exact ih spelled.of_cons
  | entry one further ih =>
      obtain ⟨before, behind⟩ := spelled.of_append
      exact List.forall_mem_cons.mpr ⟨entries _ _ _ one before, ih behind⟩

theorem SegmentsWritten.wellFormed {values : List Wire} (written : SegmentsWritten lexemes values)
    (spelled : Spelled lexemes) : ∀ wire ∈ values, wire.WellFormed := by
  have entries : ∀ next lexemes wire, WireWritten next lexemes wire -> Spelled lexemes ->
      wire.WellFormed := fun _ _ _ => WireWritten.wellFormed
  induction written with
  | one written => exact written.forall_mem entries spelled
  | more written opens further ih =>
      obtain ⟨before, behind⟩ := spelled.of_append
      exact List.forall_mem_append.mpr ⟨written.forall_mem entries before, ih behind⟩

theorem StatementWritten.entries {α : Type} {heading : Heading}
    {entries : List Lexeme -> List α -> Prop} {values : List α}
    (written : StatementWritten heading entries lexemes values) (spelled : Spelled lexemes) :
    exists body, entries body values ∧ Spelled body := by
  cases written with
  | intro written => exact ⟨_, written, spelled.of_cons.of_cons⟩

theorem ProgramWritten.wellFormed {program : Program} (written : ProgramWritten lexemes program)
    (spelled : Spelled lexemes) : program.WellFormed := by
  cases written with
  | intro inputsWritten outputsWritten partsWritten wiresWritten stops =>
      obtain ⟨spelled, -⟩ := spelled.of_append
      obtain ⟨spelled, wires⟩ := spelled.of_append
      obtain ⟨spelled, parts⟩ := spelled.of_append
      obtain ⟨inputs, outputs⟩ := spelled.of_append
      obtain ⟨_, inputBody, inputs⟩ := inputsWritten.entries inputs
      obtain ⟨_, outputBody, outputs⟩ := outputsWritten.entries outputs
      obtain ⟨_, partBody, parts⟩ := partsWritten.entries parts
      obtain ⟨_, segments, wires⟩ := wiresWritten.entries wires
      exact
        { inputs := inputBody.forall_mem (fun _ _ _ => PortWritten.wellFormed) inputs
          outputs := outputBody.forall_mem (fun _ _ _ => PortWritten.wellFormed) outputs
          parts := partBody.forall_mem (fun _ _ _ => PartWritten.wellFormed) parts
          wires := segments.wellFormed wires }

end Written

end Netlist
