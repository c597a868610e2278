import Mathlib.Tactic.TFAE
import Netlist.Proofs.Language.Program
import Netlist.Proofs.RoundTrip.Canonical

set_option autoImplicit false

namespace Netlist

namespace Lexeme

def isSignificant (lexeme : Lexeme) : Bool :=
  lexeme.kind.isSignificant

theorem map_significant (text : String) :
    (Token.significant text).map Token.lexeme = (ofText text.toList).filter isSignificant := by
  have filtered : (Token.significant text).map Token.lexeme =
      ((Token.scan text).map Token.lexeme).filter isSignificant := by
    rw [List.filter_map]
    rfl
  rw [filtered, Token.lexemes_scan, List.filter_append]
  exact List.append_nil _

end Lexeme

open Lexeme (isSignificant)

theorem Port.written {port : Port} (wellFormed : port.WellFormed) {next : Option Token.Kind}
    (alone : next ≠ some .leftBracket) :
    PortWritten next (port.lexemes.filter isSignificant) port := by
  obtain ⟨id, first, last⟩ := port
  obtain rfl : first = 1 := wellFormed.2
  unfold lexemes
  split_ifs with bare
  · obtain rfl : last = 1 := congrArg PinRange.last bare
    exact .bare alone
  · exact .sized (pinWritten_decimal last)

theorem Part.written (part : Part) : PartWritten (part.lexemes.filter isSignificant) part :=
  .intro

theorem PinRange.written {range : PinRange} (chosen : ¬ range.isUnspecified) :
    PinsWritten range.lexemes range := by
  obtain ⟨first, last⟩ := range
  unfold lexemes
  rw [if_neg chosen]
  split_ifs with same
  · obtain rfl : first = last := same
    exact .single (pinWritten_decimal first)
  · exact .range (pinWritten_decimal first) (pinWritten_decimal last)

theorem PinRange.filter_lexemes (range : PinRange) :
    range.lexemes.filter isSignificant = range.lexemes := by
  unfold lexemes
  split_ifs <;> rfl

theorem Endpoint.filter_clauses (endpoint : Endpoint) :
    endpoint.clauses.filter isSignificant = endpoint.clauses := by
  unfold clauses
  cases endpoint.selector with
  | none => exact endpoint.pins.filter_lexemes
  | some selector =>
      have rest := endpoint.pins.filter_lexemes
      simp only [List.filter_cons, rest]
      rfl

theorem Endpoint.written (endpoint : Endpoint) {next : Option Token.Kind}
    (noSelector : next ≠ some .dot) (noPins : next ≠ some .leftBracket) :
    EndpointWritten next (.name endpoint.name :: endpoint.clauses) endpoint := by
  obtain ⟨name, selector, pins⟩ := endpoint
  by_cases chosen : pins.isUnspecified
  · obtain rfl : pins = .unspecified := by simpa [PinRange.isUnspecified] using chosen
    cases selector with
    | none => exact .bare noSelector noPins
    | some selector => exact .selector noPins
  · cases selector with
    | none => exact .pins (PinRange.written chosen)
    | some selector => exact .both (PinRange.written chosen)

theorem Wire.filter_behind (target : Endpoint) :
    (.blank :: .mark .arrow :: .blank :: .name target.name :: target.clauses).filter isSignificant =
      .mark .arrow :: .name target.name :: target.clauses := by
  have rest := target.filter_clauses
  simp only [List.filter_cons, rest]
  rfl

theorem Wire.written {wire : Wire} (wellFormed : wire.WellFormed) {next : Option Token.Kind}
    (noSelector : next ≠ some .dot) (noPins : next ≠ some .leftBracket) :
    WireWritten next (wire.lexemes.filter isSignificant) wire := by
  have right := wire.target.written noSelector noPins
  rw [lexemes, List.filter_append, filter_behind]
  rcases wellFormed.1 with ⟨isName, -⟩ | ⟨isNumber, noChoice, unspecified⟩
  · have left : EndpointWritten (some .arrow) (.name wire.source.name :: wire.source.clauses)
        wire.source := wire.source.written (by simp) (by simp)
    rw [if_neg (not_isConstant_of_isName isName), List.filter_cons_of_pos rfl,
      Endpoint.filter_clauses]
    exact .driven left right
  -- a constant is printed without clauses, and has none
  · have constant : wire = { source := { name := wire.source.name }, target := wire.target } := by
      obtain ⟨⟨name, selector, pins⟩, target⟩ := wire
      obtain rfl : selector = none := noChoice
      obtain rfl : pins = .unspecified := unspecified
      rfl
    rw [if_pos (isConstant_of_isNumber isNumber), constant]
    exact .constant right

section Listing

variable {α : Type} {phrase : Phrase α} {lexemes : α -> List Lexeme} {values : List α}
  (comma : ¬ phrase.opens .comma)
  (written : ∀ value ∈ values, ∀ next, next = some .comma ∨ next = some .semicolon ->
    phrase.written next ((lexemes value).filter isSignificant) value)

include comma written

theorem Statement.written_remaining :
    BodyWritten phrase ((remaining (values.map lexemes)).filter isSignificant) values ∧
      (Lexeme.front ((remaining (values.map lexemes)).filter isSignificant) = some .comma ∨
        Lexeme.front ((remaining (values.map lexemes)).filter isSignificant) = some .semicolon) := by
  -- the comma is passed over as any other lexeme that opens no entry
  induction values with
  | nil => exact ⟨.ended, .inr rfl⟩
  | cons value values ih =>
      obtain ⟨further, next⟩ := ih fun value member => written value (List.mem_cons_of_mem _ member)
      rw [List.map_cons, remaining, List.filter_append, List.filter_cons_of_pos rfl,
        List.filter_cons_of_neg (by decide)]
      refine ⟨.passed (by simp [Lexeme.mark]) comma (.entry ?_ further), .inl rfl⟩
      exact written value List.mem_cons_self _ next

theorem Statement.written_listing :
    BodyWritten phrase ((listing (values.map lexemes)).filter isSignificant) values := by
  cases values with
  | nil => exact .ended
  | cons value values =>
      obtain ⟨further, next⟩ := written_remaining comma
        fun value member => written value (List.mem_cons_of_mem _ member)
      rw [List.map_cons, listing, List.filter_append, List.filter_cons_of_neg (by decide)]
      exact .entry (written value List.mem_cons_self _ next) further

end Listing

theorem Statement.written_lexemes {α : Type} {entries : List Lexeme -> List α -> Prop}
    {values : List α} (statement : Statement)
    (written : entries ((listing statement.entries).filter isSignificant) values) :
    StatementWritten statement.heading entries (statement.lexemes.filter isSignificant) values := by
  rw [lexemes, List.filter_cons_of_pos rfl, List.filter_cons_of_pos rfl]
  exact .intro written

theorem ne_of_eq_comma_or_semicolon {next : Option Token.Kind}
    (ends : next = some .comma ∨ next = some .semicolon) :
    next ≠ some .dot ∧ next ≠ some .leftBracket := by
  rcases ends with rfl | rfl <;> simp

namespace Statement

theorem written_ports {ports : List Port} (wellFormed : ∀ port ∈ ports, port.WellFormed) :
    BodyWritten Phrase.ports ((listing (ports.map Port.lexemes)).filter isSignificant) ports :=
  written_listing (by simp [Phrase.ports]) fun port member _ ends =>
    Port.written (wellFormed port member) (ne_of_eq_comma_or_semicolon ends).2

theorem written_inputs {ports : List Port} (wellFormed : (inputs ports).WellFormed) :
    StatementWritten .inputs (BodyWritten Phrase.ports)
      ((inputs ports).lexemes.filter isSignificant) ports :=
  (inputs ports).written_lexemes (written_ports wellFormed)

theorem written_outputs {ports : List Port} (wellFormed : (outputs ports).WellFormed) :
    StatementWritten .outputs (BodyWritten Phrase.ports)
      ((outputs ports).lexemes.filter isSignificant) ports :=
  (outputs ports).written_lexemes (written_ports wellFormed)

theorem written_parts (entries : List Part) :
    StatementWritten .parts (BodyWritten Phrase.parts)
      ((parts entries).lexemes.filter isSignificant) entries := by
  apply (parts entries).written_lexemes
  exact written_listing (by simp [Phrase.parts]) fun part _ _ _ => part.written

theorem written_wires {entries : List Wire} (wellFormed : (wires entries).WellFormed) :
    StatementWritten .wires SegmentsWritten ((wires entries).lexemes.filter isSignificant)
      entries := by
  apply (wires entries).written_lexemes (SegmentsWritten.one _)
  refine written_listing (by simp [Phrase.wires]) fun wire member next ends => ?_
  obtain ⟨noSelector, noPins⟩ := ne_of_eq_comma_or_semicolon ends
  exact Wire.written (wellFormed wire member) noSelector noPins

end Statement

theorem Program.filter_lexemes (program : Program) :
    program.lexemes.filter isSignificant =
      (Statement.inputs program.inputs).lexemes.filter isSignificant ++
        (Statement.outputs program.outputs).lexemes.filter isSignificant ++
        (Statement.parts program.parts).lexemes.filter isSignificant ++
        (Statement.wires program.wires).lexemes.filter isSignificant := by
  simp [lexemes, statements, List.filter_append]

theorem Program.written {program : Program} (wellFormed : program.WellFormed) :
    ProgramWritten (program.lexemes.filter isSignificant) program := by
  have noWire : ¬ (Lexeme.front []).any Phrase.wires.opens := by simp [Lexeme.front]
  have whole := ProgramWritten.intro (Statement.written_inputs wellFormed.inputs)
    (Statement.written_outputs wellFormed.outputs) (Statement.written_parts program.parts)
    (Statement.written_wires wellFormed.wires) noWire
  rwa [List.append_nil, ← filter_lexemes] at whole

/-- Parsing and printing undo each other on well-formed programs, and no text stands for any other
program. -/
theorem parse_render_tfae (program : Program) :
    List.TFAE [exists text, Program.parse text = .ok program,
      Program.parse program.render = .ok program, program.WellFormed] := by
  tfae_have 1 → 3 := by
    rintro ⟨text, parsed⟩
    -- what was parsed was written, and nothing else than a well-formed program is
    rw [parse_eq_ok_iff_plain, Plain.reads_program (Tape.spelled_ofText text)] at parsed
    exact parsed.wellFormed ((Tape.spelled_ofText text).rest 0)
  tfae_have 3 → 2 := by
    intro wellFormed
    -- the text is cut into just the lexemes it was put together from
    have written := Program.written wellFormed
    have lexemes : (Tape.ofText program.render).rest 0 = program.lexemes.filter isSignificant := by
      rw [← Lexeme.ofText_spelling (Program.settled_lexemes wellFormed), Program.spelling_lexemes,
        ← Lexeme.map_significant]
      rfl
    rw [parse_eq_ok_iff_plain, Plain.reads_program (Tape.spelled_ofText _), lexemes]
    exact written
  tfae_have 2 → 1 := fun parsed => ⟨program.render, parsed⟩
  tfae_finish

end Netlist
