import Mathlib.Data.List.Forall2
import Netlist.Proofs.Language.Cut

set_option autoImplicit false

namespace Netlist

namespace Lexeme

def texts (kind : Token.Kind) (lexemes : List Lexeme) : List String :=
  (lexemes.filter fun lexeme => lexeme.kind = kind).map Lexeme.text

theorem texts_append (kind : Token.Kind) (front rest : List Lexeme) :
    texts kind (front ++ rest) = texts kind front ++ texts kind rest := by
  rw [texts, List.filter_append, List.map_append]
  rfl

theorem texts_cons_of_ne {kind : Token.Kind} {lexeme : Lexeme} (other : lexeme.kind ≠ kind)
    (rest : List Lexeme) : texts kind (lexeme :: rest) = texts kind rest := by
  rw [texts, List.filter_cons_of_neg (by simpa using other)]
  rfl

end Lexeme

open Lexeme (texts)

/-- Groups of lexemes in their order, and between them lexemes that are passed over. -/
inductive Scattered (opens : Token.Kind -> Bool) : List (List Lexeme) -> List Lexeme -> Prop where
  | nil : Scattered opens [] []
  | passed {lexeme : Lexeme} {groups : List (List Lexeme)} {rest : List Lexeme}
      (noEntry : ¬ opens lexeme.kind) (further : Scattered opens groups rest) :
      Scattered opens groups (lexeme :: rest)
  | group {group : List Lexeme} {groups : List (List Lexeme)} {rest : List Lexeme}
      (further : Scattered opens groups rest) : Scattered opens (group :: groups) (group ++ rest)

namespace Scattered

variable {opens : Token.Kind -> Bool} {groups others : List (List Lexeme)}
  {lexemes rest : List Lexeme}

theorem append (first : Scattered opens groups lexemes) (second : Scattered opens others rest) :
    Scattered opens (groups ++ others) (lexemes ++ rest) := by
  induction first with
  | nil => exact second
  | passed noEntry further ih => exact .passed noEntry ih
  | @group group groups rest further ih =>
      rw [List.append_assoc]
      exact .group ih

theorem spelled (scattered : Scattered opens groups lexemes) (spelled : Lexeme.Spelled lexemes) :
    ∀ group ∈ groups, Lexeme.Spelled group := by
  induction scattered with
  | nil => simp
  | passed noEntry further ih => exact ih spelled.of_cons
  | group further ih =>
      obtain ⟨here, behind⟩ := spelled.of_append
      exact List.forall_mem_cons.mpr ⟨here, ih behind⟩

theorem texts_eq {kind : Token.Kind} (opening : opens kind) (scattered : Scattered opens groups lexemes) :
    texts kind lexemes = groups.flatMap (texts kind) := by
  induction scattered with
  | nil => rfl
  | passed noEntry further ih =>
      rw [Lexeme.texts_cons_of_ne fun same => noEntry (same ▸ opening), ih]
  | group further ih => rw [Lexeme.texts_append, ih, List.flatMap_cons]

end Scattered

def Phrase.Writes {α : Type} (phrase : Phrase α) (lexemes : List Lexeme) (value : α) : Prop :=
  exists next, phrase.written next lexemes value

theorem BodyWritten.scattered {α : Type} {phrase : Phrase α} (regular : phrase.Regular)
    {lexemes : List Lexeme} {values : List α} (written : BodyWritten phrase lexemes values) :
    exists groups, Scattered phrase.opens groups lexemes ∧
      List.Forall₂ phrase.Writes groups values := by
  -- along the way it is written, where each entry is a group
  induction written with
  | ended => exact ⟨[], .passed regular.semicolon .nil, .nil⟩
  | passed noSemicolon noEntry further ih =>
      obtain ⟨groups, scattered, writes⟩ := ih
      exact ⟨groups, .passed noEntry scattered, writes⟩
  | entry one further ih =>
      obtain ⟨groups, scattered, writes⟩ := ih
      exact ⟨_ :: groups, .group scattered, .cons ⟨_, one⟩ writes⟩

theorem SegmentsWritten.scattered {lexemes : List Lexeme} {values : List Wire}
    (written : SegmentsWritten lexemes values) :
    exists groups, Scattered Phrase.wires.opens groups lexemes ∧
      List.Forall₂ Phrase.wires.Writes groups values := by
  induction written with
  | one written => exact written.scattered Phrase.regular_wires
  | more written opens further ih =>
      obtain ⟨front, first, writes⟩ := written.scattered Phrase.regular_wires
      obtain ⟨back, second, others⟩ := ih
      exact ⟨front ++ back, first.append second, List.rel_append writes others⟩

/-- How a program lies in lexemes: in front the statements that come before the wires, then those,
each of them a group of its own, and a rest that begins with no wire. -/
structure Program.Lies (program : Program) (front wires rest : List Lexeme)
    (groups : List (List Lexeme)) : Prop where
  before : exists inputs outputs parts, front = inputs ++ outputs ++ parts ∧
    StatementWritten .inputs (BodyWritten Phrase.ports) inputs program.inputs ∧
    StatementWritten .outputs (BodyWritten Phrase.ports) outputs program.outputs ∧
    StatementWritten .parts (BodyWritten Phrase.parts) parts program.parts
  list : exists body, wires = .mark (.keyword .wires) :: .mark .colon :: body ∧
    SegmentsWritten body program.wires ∧ Scattered Phrase.wires.opens groups body
  writes : List.Forall₂ Phrase.wires.Writes groups program.wires
  stops : ¬ (Lexeme.front rest).any Phrase.wires.opens

namespace Program.Lies

variable {program : Program} {front wires rest : List Lexeme} {groups : List (List Lexeme)}

theorem getLast?_wires (lies : program.Lies front wires rest groups) :
    wires.getLast? = some (.mark .semicolon) := by
  obtain ⟨body, rfl, segments, -⟩ := lies.list
  obtain ⟨init, rfl⟩ := segments.eq_append
  rw [← List.cons_append, ← List.cons_append, List.getLast?_concat]

theorem head?_rest (lies : program.Lies front wires rest groups) :
    ∀ lexeme ∈ rest.head?, lexeme.kind ≠ .name ∧ lexeme.kind ≠ .digits := by
  intro lexeme found
  have stops := lies.stops
  rw [Lexeme.front, Option.mem_def.mp found] at stops
  simpa [Phrase.wires] using stops

theorem entries (lies : program.Lies front wires rest groups) (spelled : Lexeme.Spelled wires)
    {related : Wire -> List Lexeme -> Prop}
    (entry : ∀ next group wire, WireWritten next group wire -> Lexeme.Spelled group ->
      related wire group) : List.Forall₂ related program.wires groups := by
  obtain ⟨body, rfl, -, scattered⟩ := lies.list
  have writes := lies.writes
  have all := scattered.spelled spelled.of_cons.of_cons
  generalize program.wires = wires at writes
  clear lies scattered spelled
  induction writes with
  | nil => exact .nil
  | cons one writes ih =>
      obtain ⟨here, others⟩ := List.forall_mem_cons.mp all
      obtain ⟨next, written⟩ := one
      exact .cons (entry next _ _ written here) (ih others)

end Program.Lies

theorem ProgramWritten.exists_lies {lexemes : List Lexeme} {program : Program}
    (written : ProgramWritten lexemes program) :
    exists front wires rest groups, lexemes = front ++ wires ++ rest ∧
      program.Lies front wires rest groups := by
  cases written with
  | intro inputsWritten outputsWritten partsWritten wiresWritten stops =>
      cases wiresWritten with
      | intro segments =>
          obtain ⟨groups, scattered, writes⟩ := segments.scattered
          exact ⟨_, _, _, groups, rfl,
            { before := ⟨_, _, _, rfl, inputsWritten, outputsWritten, partsWritten⟩
              list := ⟨_, rfl, segments, scattered⟩
              writes
              stops }⟩

theorem exists_lies_of_parse {text : String} {program : Program}
    (parsed : Program.parse text = .ok program) :
    exists front wires rest groups,
      (Token.significant text).map Token.lexeme = front ++ wires ++ rest ∧
        Lexeme.Spelled wires ∧ program.Lies front wires rest groups := by
  rw [parse_eq_ok_iff_meantOf, ← Token.lexemes_significant] at parsed
  obtain ⟨front, wires, rest, groups, whole, lies⟩ := parsed.exists_lies
  have spelled : Lexeme.Spelled (front ++ wires ++ rest) := by
    rw [← whole, Token.lexemes_significant]
    exact fun lexeme member => (Lexeme.meant_meantOf _ lexeme member).1
  exact ⟨front, wires, rest, groups, whole, spelled.of_append.1.of_append.2, lies⟩

end Netlist
