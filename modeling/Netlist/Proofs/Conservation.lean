import Netlist.Proofs.Language.Entries
import Netlist.Proofs.RoundTrip.Canonical

set_option autoImplicit false

namespace Netlist

open Lexeme (Spelled texts)

section Names

def Part.names (part : Part) : List String :=
  [part.id, part.module]

def Endpoint.names (endpoint : Endpoint) : List String :=
  endpoint.name :: endpoint.selector.toList

def Wire.sourceNames (wire : Wire) : List String :=
  if wire.isConstant then wire.source.selector.toList else wire.source.names

def Wire.names (wire : Wire) : List String :=
  wire.sourceNames ++ wire.target.names

def Program.names (program : Program) : List String :=
  program.inputs.map Port.id ++ program.outputs.map Port.id ++ program.parts.flatMap Part.names ++
    program.wires.flatMap Wire.names

end Names

inductive PinRange.Numbered : PinRange -> List String -> Prop where
  | unspecified : Numbered { first := 0, last := 0 } []
  | single {text : String} {pin : UInt32} (written : PinWritten text pin) :
      Numbered { first := pin, last := pin } [text]
  | range {low high : String} {first last : UInt32} (left : PinWritten low first)
      (right : PinWritten high last) : Numbered { first, last } [low, high]

inductive Wire.Told (wire : Wire) : List Lexeme -> Prop where
  | intro {before behind : List Lexeme} (sourceNames : texts .name before = wire.sourceNames)
      (constant : wire.isConstant -> texts .digits before = [wire.source.name])
      (sourcePins : ¬ wire.isConstant -> wire.source.pins.Numbered (texts .digits before))
      (targetNames : texts .name behind = wire.target.names)
      (targetPins : wire.target.pins.Numbered (texts .digits behind)) :
      Told wire (before ++ .mark .arrow :: behind)

section Elements

variable {next : Option Token.Kind} {lexemes : List Lexeme}

theorem PortWritten.names {port : Port} (written : PortWritten next lexemes port) :
    texts .name lexemes = [port.id] := by
  cases written with
  | bare alone => rfl
  | sized pin => rfl

theorem PartWritten.names {part : Part} (written : PartWritten lexemes part) :
    texts .name lexemes = part.names := by
  cases written with
  | intro => rfl

theorem PinsWritten.noNames {pins : PinRange} (written : PinsWritten lexemes pins) :
    texts .name lexemes = [] := by
  cases written with
  | single written => rfl
  | range left right => rfl

theorem PinsWritten.numbered {pins : PinRange} (written : PinsWritten lexemes pins) :
    pins.Numbered (texts .digits lexemes) := by
  cases written with
  | single written => exact .single written
  | range left right => exact .range left right

theorem EndpointWritten.names {endpoint : Endpoint}
    (written : EndpointWritten next lexemes endpoint) :
    texts .name lexemes = endpoint.names := by
  cases written with
  | bare noSelector noPins => rfl
  | pins written => exact congrArg (_ :: ·) written.noNames
  | selector noPins => rfl
  | both written => exact congrArg (_ :: _ :: ·) written.noNames

theorem EndpointWritten.numbered {endpoint : Endpoint}
    (written : EndpointWritten next lexemes endpoint) :
    endpoint.pins.Numbered (texts .digits lexemes) := by
  cases written with
  | bare noSelector noPins => exact .unspecified
  | pins written => exact written.numbered
  | selector noPins => exact .unspecified
  | both written => exact written.numbered

theorem WireWritten.told {wire : Wire} (written : WireWritten next lexemes wire)
    (spelled : Spelled lexemes) : wire.Told lexemes := by
  cases written with
  | @constant text behind target right =>
      have constant : Wire.isConstant { source := { name := text }, target } :=
        Wire.isConstant_of_isNumber (spelled _ List.mem_cons_self).isNumber
      change Wire.Told _ ([.digits text] ++ .mark .arrow :: behind)
      exact .intro (if_pos constant).symm (fun _ => rfl) (fun name => absurd constant name)
        right.names right.numbered
  | @driven before behind source target left right =>
      have isName := (left.wellFormed spelled.of_append.1).1
      have driven : ¬ Wire.isConstant { source, target } := Wire.not_isConstant_of_isName isName
      refine .intro ?_ (fun constant => absurd constant driven) (fun _ => left.numbered)
        right.names right.numbered
      exact left.names.trans (if_neg driven).symm

end Elements

section Lists

variable {lexemes : List Lexeme}

theorem flatMap_eq_of_forall₂ {α β γ : Type} {related : α -> β -> Prop} {left : List α}
    {right : List β} {f : α -> List γ} {g : β -> List γ} (pairs : List.Forall₂ related left right)
    (same : ∀ a b, related a b -> f a = g b) : left.flatMap f = right.flatMap g := by
  induction pairs with
  | nil => rfl
  | cons pair pairs ih => rw [List.flatMap_cons, List.flatMap_cons, same _ _ pair, ih]

theorem BodyWritten.names {α : Type} {phrase : Phrase α} (regular : phrase.Regular)
    (opensName : phrase.opens .name) {names : α -> List String}
    (entries : ∀ next lexemes value, phrase.written next lexemes value ->
      texts .name lexemes = names value)
    {values : List α} (written : BodyWritten phrase lexemes values) :
    texts .name lexemes = values.flatMap names := by
  obtain ⟨groups, scattered, writes⟩ := written.scattered regular
  rw [scattered.texts_eq opensName]
  exact flatMap_eq_of_forall₂ writes fun group value ⟨next, one⟩ => entries next group value one

theorem StatementWritten.texts_eq {α : Type} {heading : Heading} {kind : Token.Kind}
    {entries : List Lexeme -> List α -> Prop} {values : List α}
    (noKeyword : Token.Kind.keyword heading ≠ kind) (noColon : Token.Kind.colon ≠ kind)
    (written : StatementWritten heading entries lexemes values) :
    exists body, entries body values ∧ texts kind lexemes = texts kind body := by
  cases written with
  | intro written =>
      exact ⟨_, written, by
        rw [Lexeme.texts_cons_of_ne noKeyword, Lexeme.texts_cons_of_ne noColon]⟩

theorem StatementWritten.names {α : Type} {heading : Heading} {phrase : Phrase α}
    (regular : phrase.Regular) (opensName : phrase.opens .name) {names : α -> List String}
    (entries : ∀ next lexemes value, phrase.written next lexemes value ->
      texts .name lexemes = names value)
    {values : List α} (written : StatementWritten heading (BodyWritten phrase) lexemes values) :
    texts .name lexemes = values.flatMap names := by
  have noKeyword : Token.Kind.keyword heading ≠ .name := by simp
  obtain ⟨body, inside, same⟩ := written.texts_eq noKeyword (by simp)
  rw [same, inside.names regular opensName entries]

end Lists

theorem Wire.Told.names {wire : Wire} {lexemes : List Lexeme} (told : wire.Told lexemes) :
    texts .name lexemes = wire.names := by
  cases told with
  | intro sourceNames constant sourcePins targetNames targetPins =>
      rw [Lexeme.texts_append, Lexeme.texts_cons_of_ne (by simp [Lexeme.mark]), sourceNames,
        targetNames]
      rfl

namespace Program.Lies

variable {program : Program} {front wires rest : List Lexeme} {groups : List (List Lexeme)}
  (lies : program.Lies front wires rest groups)

include lies

theorem told (spelled : Spelled wires) : List.Forall₂ Wire.Told program.wires groups :=
  lies.entries spelled fun _ _ _ => WireWritten.told

theorem texts_wires {kind : Token.Kind} (opens : Phrase.wires.opens kind) :
    texts kind wires = groups.flatMap (texts kind) := by
  obtain ⟨body, rfl, -, scattered⟩ := lies.list
  have heading : Token.Kind.keyword .wires ≠ kind := by
    rintro rfl
    simp [Phrase.wires] at opens
  have colon : Token.Kind.colon ≠ kind := by
    rintro rfl
    simp [Phrase.wires] at opens
  rw [Lexeme.texts_cons_of_ne heading, Lexeme.texts_cons_of_ne colon, scattered.texts_eq opens]

theorem names (spelled : Spelled wires) : texts .name (front ++ wires) = program.names := by
  obtain ⟨inputs, outputs, parts, rfl, inputsWritten, outputsWritten, partsWritten⟩ := lies.before
  have wireNames : texts .name wires = program.wires.flatMap Wire.names := by
    rw [lies.texts_wires rfl]
    exact (flatMap_eq_of_forall₂ (lies.told spelled) fun _ _ told => told.names.symm).symm
  have ports (next : Option Token.Kind) (lexemes : List Lexeme) (port : Port)
      (written : PortWritten next lexemes port) : texts .name lexemes = [port.id] := written.names
  have parts (next : Option Token.Kind) (lexemes : List Lexeme) (part : Part)
      (written : PartWritten lexemes part) : texts .name lexemes = part.names := written.names
  rw [Lexeme.texts_append, Lexeme.texts_append, Lexeme.texts_append, wireNames,
    inputsWritten.names Phrase.regular_ports rfl ports,
    outputsWritten.names Phrase.regular_ports rfl ports,
    partsWritten.names Phrase.regular_parts rfl parts,
    Program.names, List.map_eq_flatMap, List.map_eq_flatMap]

end Program.Lies

/-- The tokens of a program up to the semicolon behind its wires hold its names and no others, and
from the heading of the wires on the numbers of the wires and no others, all of them in order. -/
theorem parse_conserves {text : String} {program : Program}
    (parsed : Program.parse text = .ok program) :
    exists front wires rest groups,
      (Token.significant text).map Token.lexeme = front ++ wires ++ rest ∧
      program.Lies front wires rest groups ∧
      wires.getLast? = some (.mark .semicolon) ∧
      (∀ lexeme ∈ rest.head?, lexeme.kind ≠ .name ∧ lexeme.kind ≠ .digits) ∧
      texts .name (front ++ wires) = program.names ∧
      texts .digits wires = groups.flatMap (texts .digits) ∧
      List.Forall₂ Wire.Told program.wires groups := by
  obtain ⟨front, wires, rest, groups, whole, spelled, lies⟩ := exists_lies_of_parse parsed
  exact ⟨front, wires, rest, groups, whole, lies, lies.getLast?_wires, lies.head?_rest,
    lies.names spelled, lies.texts_wires rfl, lies.told spelled⟩

theorem parse_conserves_skipped :
    let text := "Inputs:a,,4 b;Outputs:;Parts:;Wires:;7->a[03],b.x[2:1]->a;;"
    let constant : Wire :=
      { source := { name := "7" }, target := { name := "a", pins := { first := 3, last := 3 } } }
    let driven : Wire :=
      { source := { name := "b", selector := some "x", pins := { first := 2, last := 1 } }
        target := { name := "a" } }
    let program : Program :=
      { inputs := ["a", "b"].map fun id => { id, pins := { first := 1, last := 1 } }
        wires := [constant, driven] }
    Program.parse text = .ok program ∧
      exists front wires rest groups,
        (Token.significant text).map Token.lexeme = front ++ wires ++ rest ∧
        program.Lies front wires rest groups ∧
        wires.getLast? = some (.mark .semicolon) ∧
        (∀ lexeme ∈ rest.head?, lexeme.kind ≠ .name ∧ lexeme.kind ≠ .digits) ∧
        texts .name (front ++ wires) = ["a", "b", "a", "b", "x", "a"] ∧
        texts .digits wires = groups.flatMap (texts .digits) ∧
        List.Forall₂ Wire.Told [constant, driven] groups := by
  intro text constant driven program
  have parsed : Program.parse text = .ok program := by decide +kernel
  have names : program.names = ["a", "b", "a", "b", "x", "a"] := by decide +kernel
  exact ⟨parsed, names ▸ parse_conserves parsed⟩

end Netlist
