import Netlist.Proofs.Language.Entries
import Netlist.Program.Render

set_option autoImplicit false

namespace Netlist

open Lexeme (Spelled texts)

namespace Lexeme

def Bracketed (lexemes : List Lexeme) : Prop :=
  ∃ lexeme ∈ lexemes, lexeme.kind = .leftBracket

def Selects (lexemes : List Lexeme) : Prop :=
  Bracketed lexemes ∧ ∃ number ∈ texts .digits lexemes,
    Nat.ofDigitChars 10 number.toList 0 ≠ 0

def unbracketed (lexemes : List Lexeme) : List Lexeme :=
  lexemes.takeWhile fun lexeme => lexeme.kind ≠ .leftBracket

end Lexeme

open Lexeme (Bracketed Selects unbracketed)

def Endpoint.bare (endpoint : Endpoint) : Endpoint :=
  { endpoint with pins := .unspecified }

structure Endpoint.Shows (endpoint : Endpoint) (lexemes : List Lexeme) : Prop where
  unspecified : endpoint.pins.isUnspecified ↔ ¬ Selects lexemes
  printed : '[' ∈ endpoint.render.toList ↔ Selects lexemes
  bare : endpoint.bare = endpoint ↔ ¬ Selects lexemes

inductive Wire.Shows (wire : Wire) : List Lexeme -> Prop where
  | intro {before behind : List Lexeme} (source : wire.source.Shows before)
      (target : wire.target.Shows behind)
      (bareSource : Phrase.wires.Writes (unbracketed before ++ .mark .arrow :: behind)
        { wire with source := wire.source.bare })
      (bareTarget : Phrase.wires.Writes (before ++ .mark .arrow :: unbracketed behind)
        { wire with target := wire.target.bare }) :
      Shows wire (before ++ .mark .arrow :: behind)

section Printed

theorem PinRange.bracket_mem_render_iff (range : PinRange) :
    '[' ∈ range.render.toList ↔ ¬ range.isUnspecified := by
  unfold render
  split_ifs with unspecified same
  · simp [unspecified]
  · simp [unspecified]
  · simp [unspecified]

theorem bracket_not_mem_of_alphanum {text : String} (word : ∀ c ∈ text.toList, c.isAlphanum) :
    '[' ∉ text.toList := by
  intro member
  have alphanum := word _ member
  revert alphanum
  decide

theorem IsNumber.alphanum {text : String} (isNumber : IsNumber text) :
    ∀ c ∈ text.toList, c.isAlphanum := by
  intro c member
  simp [Char.isAlphanum, isNumber.2 c member]

theorem Endpoint.bracket_mem_render_iff {endpoint : Endpoint}
    (name : ∀ c ∈ endpoint.name.toList, c.isAlphanum)
    (selector : ∀ selector ∈ endpoint.selector, IsName selector) :
    '[' ∈ endpoint.render.toList ↔ ¬ endpoint.pins.isUnspecified := by
  have noName := bracket_not_mem_of_alphanum name
  have pins := endpoint.pins.bracket_mem_render_iff
  unfold render
  -- a bracket is no letter, so only the pins may bring one
  cases chosen : endpoint.selector with
  | none => simp [noName, pins]
  | some text =>
      have noSelector := bracket_not_mem_of_alphanum (selector text chosen).alphanum
      simp [noName, noSelector, pins]

end Printed

theorem Endpoint.bare_eq_self_iff (endpoint : Endpoint) :
    endpoint.bare = endpoint ↔ endpoint.pins.isUnspecified := by
  obtain ⟨name, selector, pins⟩ := endpoint
  simp [bare, PinRange.isUnspecified, eq_comm]

section Written

variable {next : Option Token.Kind} {lexemes : List Lexeme}

theorem PinWritten.eq_zero_iff {text : String} {pin : UInt32} (written : PinWritten text pin) :
    pin = 0 ↔ Nat.ofDigitChars 10 text.toList 0 = 0 := by
  rw [written, ← UInt32.toNat_inj]
  rfl

theorem PinsWritten.selects_iff {pins : PinRange} (written : PinsWritten lexemes pins)
    (front : List Lexeme) (noNumbers : texts .digits front = []) :
    Selects (front ++ lexemes) ↔ ¬ pins.isUnspecified := by
  have bracketed : Bracketed (front ++ lexemes) := by
    obtain ⟨tail, rfl⟩ := written.eq_cons
    exact ⟨.mark .leftBracket, by simp, rfl⟩
  rw [Selects, Lexeme.texts_append, noNumbers, List.nil_append]
  cases written with
  | @single text pin written =>
      have inside : texts .digits [.mark .leftBracket, .digits text, .mark .rightBracket] =
          [text] := rfl
      simp [inside, bracketed, PinRange.isUnspecified, PinRange.unspecified, written.eq_zero_iff]
  | @range low high first last left right =>
      have inside : texts .digits [.mark .leftBracket, .digits low, .mark .colon, .digits high,
          .mark .rightBracket] = [low, high] := rfl
      simp [inside, bracketed, PinRange.isUnspecified, PinRange.unspecified, left.eq_zero_iff,
        right.eq_zero_iff]
      tauto

theorem EndpointWritten.selects_iff {endpoint : Endpoint}
    (written : EndpointWritten next lexemes endpoint) :
    Selects lexemes ↔ ¬ endpoint.pins.isUnspecified := by
  cases written with
  | bare noSelector noPins =>
      simp [Selects, Bracketed, Lexeme.name, PinRange.isUnspecified, PinRange.unspecified]
  | @pins name _ _ written => exact written.selects_iff [.name name] rfl
  | selector noPins =>
      simp [Selects, Bracketed, Lexeme.name, Lexeme.mark, PinRange.isUnspecified,
        PinRange.unspecified]
  | @both name selector _ _ written =>
      exact written.selects_iff [.name name, .mark .dot, .name selector] rfl

theorem EndpointWritten.unbracketed {endpoint : Endpoint}
    (written : EndpointWritten next lexemes endpoint) {other : Option Token.Kind}
    (noSelector : other ≠ some .dot) (noPins : other ≠ some .leftBracket) :
    EndpointWritten other (unbracketed lexemes) endpoint.bare := by
  cases written with
  | bare _ _ => exact .bare noSelector noPins
  | pins written =>
      obtain ⟨tail, rfl⟩ := written.eq_cons
      exact .bare noSelector noPins
  | selector _ => exact .selector noPins
  | both written =>
      obtain ⟨tail, rfl⟩ := written.eq_cons
      exact .selector noPins

theorem Endpoint.shows_of_iff {endpoint : Endpoint}
    (selects : Selects lexemes ↔ ¬ endpoint.pins.isUnspecified)
    (name : ∀ c ∈ endpoint.name.toList, c.isAlphanum)
    (selector : ∀ selector ∈ endpoint.selector, IsName selector) : endpoint.Shows lexemes := by
  have printed := bracket_mem_render_iff name selector
  have bare := endpoint.bare_eq_self_iff
  exact
    { unspecified := by rw [selects, not_not]
      printed := by rw [printed, selects]
      bare := by rw [bare, selects, not_not] }

theorem EndpointWritten.shows {endpoint : Endpoint}
    (written : EndpointWritten next lexemes endpoint) (spelled : Spelled lexemes) :
    endpoint.Shows lexemes := by
  obtain ⟨isName, selector⟩ := written.wellFormed spelled
  exact Endpoint.shows_of_iff written.selects_iff isName.alphanum selector

theorem WireWritten.shows {wire : Wire} (written : WireWritten next lexemes wire)
    (spelled : Spelled lexemes) : wire.Shows lexemes := by
  -- a semicolon behind the wire lets its target go without a bracket
  have noSelector : some Token.Kind.semicolon ≠ some .dot := by simp
  have noPins : some Token.Kind.semicolon ≠ some .leftBracket := by simp
  cases written with
  | @constant text behind target right =>
      have number := (spelled _ List.mem_cons_self).isNumber
      have source : Endpoint.Shows { name := text } [.digits text] := by
        refine Endpoint.shows_of_iff ?_ number.alphanum (by simp)
        simp [Selects, Bracketed, Lexeme.digits, PinRange.isUnspecified, PinRange.unspecified]
      change Wire.Shows _ ([.digits text] ++ .mark .arrow :: behind)
      exact .intro source (right.shows spelled.of_cons.of_cons)
        ⟨next, .constant right⟩ ⟨_, .constant (right.unbracketed noSelector noPins)⟩
  | driven left right =>
      obtain ⟨before, behind⟩ := spelled.of_append
      exact .intro (left.shows before) (right.shows behind.of_cons)
        ⟨next, .driven (left.unbracketed (by simp) (by simp)) right⟩
        ⟨_, .driven left (right.unbracketed noSelector noPins)⟩

end Written

/-- The pins of an endpoint are unspecified just if no bracket selects any. -/
theorem parse_selects {text : String} {program : Program}
    (parsed : Program.parse text = .ok program) :
    exists front wires rest groups,
      (Token.significant text).map Token.lexeme = front ++ wires ++ rest ∧
      program.Lies front wires rest groups ∧
      List.Forall₂ Wire.Shows program.wires groups := by
  obtain ⟨front, wires, rest, groups, whole, spelled, lies⟩ := exists_lies_of_parse parsed
  exact ⟨front, wires, rest, groups, whole, lies,
    lies.entries spelled fun _ _ _ => WireWritten.shows⟩

theorem parse_selects_zero :
    exists program, Program.parse "Inputs:;Outputs:;Parts:;Wires:a.x[00:0]->b[0:2];" =
        .ok program ∧
      exists front wires rest groups,
        (Token.significant "Inputs:;Outputs:;Parts:;Wires:a.x[00:0]->b[0:2];").map Token.lexeme =
          front ++ wires ++ rest ∧
        program.Lies front wires rest groups ∧
        List.Forall₂ Wire.Shows program.wires groups := by
  have parsed : Program.parse "Inputs:;Outputs:;Parts:;Wires:a.x[00:0]->b[0:2];" =
      .ok { wires :=
        [{ source := { name := "a", selector := some "x" }
           target := { name := "b", pins := { first := 0, last := 2 } } }] } := by
    decide +kernel
  exact ⟨_, parsed, parse_selects parsed⟩

/-- Pin zero is taken for no choice: the bracket is there, and leaves no trace in the program. -/
theorem parse_bracketed_zero :
    exists wire : Wire,
      Program.parse "Inputs:;Outputs:;Parts:;Wires:A[0]->B;" = .ok { wires := [wire] } ∧
      (∃ token ∈ Token.significant "Inputs:;Outputs:;Parts:;Wires:A[0]->B;",
        token.kind = .leftBracket) ∧
      wire.source.pins.isUnspecified ∧ wire.render = "A -> B" ∧
      Program.parse "Inputs:;Outputs:;Parts:;Wires:A->B;" = .ok { wires := [wire] } := by
  refine ⟨{ source := { name := "A" }, target := { name := "B" } }, ?_, ?_, rfl, rfl, ?_⟩
  · decide +kernel
  · decide +kernel
  · decide +kernel

end Netlist
