import Netlist.Proofs.Language.Cut
import Netlist.Proofs.Lexing.Prefix
import Netlist.Proofs.RoundTrip.Followed

set_option autoImplicit false

namespace Netlist

open Lexeme (Spells spelling)

namespace Lexeme

def semicolons (lexemes : List Lexeme) : Nat :=
  lexemes.countP fun lexeme => lexeme.kind = .semicolon

theorem semicolons_append (front rest : List Lexeme) :
    semicolons (front ++ rest) = semicolons front + semicolons rest :=
  List.countP_append

theorem Spells.count_semicolon {kind : Token.Kind} {word : List Char} (spells : Spells kind word)
    (noComment : kind ≠ .comment) : word.count ';' = if kind = .semicolon then 1 else 0 := by
  have none' {accept : Char -> Bool} (refused : accept ';' = false) {word : List Char}
      (all : ∀ c ∈ word, accept c) : word.count ';' = 0 := by
    rw [List.count_eq_zero]
    intro member
    simp [all _ member] at refused
  cases spells with
  | blank blank blanks => exact none' rfl (List.forall_mem_cons.mpr ⟨blank, blanks⟩)
  | newline feed feeds => exact none' rfl (List.forall_mem_cons.mpr ⟨feed, feeds⟩)
  | digits digit digits => exact none' rfl (List.forall_mem_cons.mpr ⟨digit, digits⟩)
  | @word first word letter more =>
      have noMark : Token.Kind.ofWord (String.ofList (first :: word)) ≠ .semicolon := by
        unfold Token.Kind.ofWord
        split <;> simp
      have alphanum : first.isAlphanum := by simp [Char.isAlphanum, letter]
      rw [if_neg noMark]
      exact none' rfl (List.forall_mem_cons.mpr ⟨alphanum, more⟩)
  | arrow => rfl
  | dash => rfl
  | comment line => exact absurd rfl noComment
  | slash => rfl
  | @lone c lone =>
      unfold Lexer.delimiter?
      split <;> simp_all

theorem Settled.spelled {lexemes : List Lexeme} (settled : Settled lexemes) : Spelled lexemes := by
  rw [← ofText_spelling settled]
  exact fun lexeme => spells_of_mem_ofText

theorem count_spelling {lexemes : List Lexeme} (spelled : Spelled lexemes)
    (noComment : ∀ lexeme ∈ lexemes, lexeme.kind ≠ .comment) :
    (spelling lexemes).count ';' = semicolons lexemes := by
  induction lexemes with
  | nil => rfl
  | cons lexeme lexemes ih =>
      obtain ⟨spells, others⟩ := List.forall_mem_cons.mp spelled
      obtain ⟨here, later⟩ := List.forall_mem_cons.mp noComment
      rw [spelling_cons, List.count_append, spells.count_semicolon here, ih others later,
        semicolons, semicolons, List.countP_cons, Nat.add_comm]
      simp only [decide_eq_true_eq]

end Lexeme

section Canonical

def Lexeme.Inner (lexeme : Lexeme) : Prop :=
  lexeme.kind ≠ .semicolon ∧ lexeme.kind ≠ .comment

theorem PinRange.inner_lexemes (range : PinRange) : ∀ lexeme ∈ range.lexemes, lexeme.Inner := by
  unfold lexemes
  split_ifs <;> simp [Lexeme.Inner, Lexeme.mark, Lexeme.digits]

theorem Endpoint.inner_clauses (endpoint : Endpoint) :
    ∀ lexeme ∈ endpoint.clauses, lexeme.Inner := by
  unfold clauses
  cases endpoint.selector with
  | none => exact endpoint.pins.inner_lexemes
  | some selector =>
      have rest := endpoint.pins.inner_lexemes
      simpa [Lexeme.Inner, Lexeme.mark, Lexeme.name] using rest

theorem Port.inner_lexemes (port : Port) : ∀ lexeme ∈ port.lexemes, lexeme.Inner := by
  unfold lexemes
  split_ifs <;> simp [Lexeme.Inner, Lexeme.mark, Lexeme.name, Lexeme.digits]

theorem Part.inner_lexemes (part : Part) : ∀ lexeme ∈ part.lexemes, lexeme.Inner := by
  simp [lexemes, Lexeme.Inner, Lexeme.name, Lexeme.blank]

theorem Wire.inner_lexemes (wire : Wire) : ∀ lexeme ∈ wire.lexemes, lexeme.Inner := by
  have source := wire.source.inner_clauses
  have target := wire.target.inner_clauses
  have first : ({ kind := if wire.isConstant then .digits else .name, text := wire.source.name } :
      Lexeme).Inner := by
    simp only [Lexeme.Inner]
    split_ifs <;> simp
  refine List.forall_mem_append.mpr ⟨List.forall_mem_cons.mpr ⟨first, source⟩, ?_⟩
  simpa [Lexeme.Inner, Lexeme.mark, Lexeme.name, Lexeme.blank] using target

namespace Statement

theorem inner_entries (statement : Statement) :
    ∀ group ∈ statement.entries, ∀ lexeme ∈ group, lexeme.Inner := by
  intro group member
  cases statement with
  | inputs ports =>
      obtain ⟨port, -, rfl⟩ := List.mem_map.mp member
      exact port.inner_lexemes
  | outputs ports =>
      obtain ⟨port, -, rfl⟩ := List.mem_map.mp member
      exact port.inner_lexemes
  | parts parts =>
      obtain ⟨part, -, rfl⟩ := List.mem_map.mp member
      exact part.inner_lexemes
  | wires wires =>
      obtain ⟨wire, -, rfl⟩ := List.mem_map.mp member
      exact wire.inner_lexemes

structure Closed (lexemes : List Lexeme) : Prop where
  semicolons : Lexeme.semicolons lexemes = 1
  noComment : ∀ lexeme ∈ lexemes, lexeme.kind ≠ .comment

theorem Closed.append {front rest : List Lexeme} (closed : Closed rest)
    (inner : ∀ lexeme ∈ front, lexeme.Inner) : Closed (front ++ rest) := by
  refine ⟨?_, List.forall_mem_append.mpr ⟨fun lexeme member => (inner lexeme member).2,
    closed.noComment⟩⟩
  have none' : Lexeme.semicolons front = 0 :=
    List.countP_eq_zero.mpr fun lexeme member => by simpa using (inner lexeme member).1
  rw [Lexeme.semicolons_append, none', closed.semicolons]

theorem closed_remaining {groups : List (List Lexeme)}
    (inner : ∀ group ∈ groups, ∀ lexeme ∈ group, lexeme.Inner) : Closed (remaining groups) := by
  induction groups with
  | nil => exact ⟨rfl, by simp [remaining, Lexeme.mark, Lexeme.newline]⟩
  | cons group groups ih =>
      obtain ⟨here, others⟩ := List.forall_mem_cons.mp inner
      refine Closed.append (ih others) ?_
      simpa [Lexeme.Inner, Lexeme.mark, Lexeme.blank] using here

theorem closed_listing {groups : List (List Lexeme)}
    (inner : ∀ group ∈ groups, ∀ lexeme ∈ group, lexeme.Inner) : Closed (listing groups) := by
  cases groups with
  | nil => exact closed_remaining inner
  | cons group groups =>
      obtain ⟨here, others⟩ := List.forall_mem_cons.mp inner
      refine Closed.append (closed_remaining others) ?_
      simpa [Lexeme.Inner, Lexeme.blank] using here

theorem closed_lexemes (statement : Statement) : Closed statement.lexemes := by
  have heading : ∀ lexeme ∈ [Lexeme.mark (.keyword statement.heading), .mark .colon],
      lexeme.Inner := by simp [Lexeme.Inner, Lexeme.mark]
  exact (closed_listing statement.inner_entries).append heading

end Statement

theorem Program.semicolons_lexemes (program : Program) :
    Lexeme.semicolons program.lexemes = 4 := by
  simp only [lexemes, statements, List.flatMap_cons, List.flatMap_nil, Lexeme.semicolons_append,
    (Statement.closed_lexemes _).semicolons]
  rfl

theorem Program.noComment_lexemes (program : Program) :
    ∀ lexeme ∈ program.lexemes, lexeme.kind ≠ .comment := by
  intro lexeme member
  obtain ⟨statement, -, found⟩ := List.mem_flatMap.mp member
  exact statement.closed_lexemes.noComment lexeme found

end Canonical

section Written

theorem Lexeme.one_le_semicolons {lexemes : List Lexeme}
    (ends : exists init, lexemes = init ++ [.mark .semicolon]) : 1 ≤ semicolons lexemes := by
  obtain ⟨init, rfl⟩ := ends
  rw [semicolons_append]
  exact Nat.le_add_left 1 _

theorem ProgramWritten.four_le_semicolons {lexemes : List Lexeme} {program : Program}
    (written : ProgramWritten lexemes program) : 4 ≤ Lexeme.semicolons lexemes := by
  cases written with
  | intro inputs outputs parts wires stops =>
      have first := Lexeme.one_le_semicolons (inputs.eq_append fun _ _ => BodyWritten.eq_append)
      have second := Lexeme.one_le_semicolons (outputs.eq_append fun _ _ => BodyWritten.eq_append)
      have third := Lexeme.one_le_semicolons (parts.eq_append fun _ _ => BodyWritten.eq_append)
      have fourth := Lexeme.one_le_semicolons (wires.eq_append fun _ _ => SegmentsWritten.eq_append)
      simp only [Lexeme.semicolons_append]
      omega

end Written

namespace Program

variable {program : Program} {cut : String}

theorem shortens_of_isPrefix {text : String} {shorter : Program}
    (isPrefix : cut.toList.IsPrefix text.toList) (parsed : Program.parse text = .ok program)
    (again : Program.parse cut = .ok shorter) : shorter.Shortens program := by
  rw [parse_eq_ok_iff_meantOf] at parsed again
  obtain ⟨front, tail, short, ⟨back, long⟩, noSemicolon⟩ := Lexeme.meantOf_of_isPrefix isPrefix
  have spelled : Lexeme.Spelled (Lexeme.meantOf text.toList) :=
    fun lexeme member => (Lexeme.meant_meantOf _ lexeme member).1
  rw [short] at again
  rw [← long] at parsed spelled
  exact again.shortens noSemicolon parsed spelled

theorem not_mem_of_parse_front {shorter : Program} {rest : List Char}
    (wellFormed : program.WellFormed) (whole : program.render.toList = cut.toList ++ rest)
    (parsed : Program.parse cut = .ok shorter) : ';' ∉ rest := by
  rw [← spelling_lexemes] at whole
  have settled := settled_lexemes wellFormed
  obtain ⟨front, tail, found, ⟨back, inside⟩, noSemicolon⟩ :=
    Lexeme.ofText_of_isPrefix settled ⟨rest, whole.symm⟩
  have spelled : Lexeme.Spelled back := fun lexeme member =>
    settled.spelled lexeme (inside ▸ List.mem_append_right front member)
  have noComment : ∀ lexeme ∈ back, lexeme.kind ≠ .comment := fun lexeme member =>
    program.noComment_lexemes lexeme (inside ▸ List.mem_append_right front member)
  -- the front has four semicolons already
  have four : 4 ≤ Lexeme.semicolons front := by
    rw [parse_eq_ok_iff_meantOf] at parsed
    have none' : Lexeme.semicolons tail = 0 :=
      List.countP_eq_zero.mpr fun lexeme member => by simpa using noSemicolon lexeme member
    calc
      4 ≤ Lexeme.semicolons (Lexeme.meantOf cut.toList) := parsed.four_le_semicolons
      _ ≤ Lexeme.semicolons (front ++ tail) := found ▸ List.filter_sublist.countP_le
      _ = Lexeme.semicolons front := by rw [Lexeme.semicolons_append, none']; rfl
  have all := program.semicolons_lexemes
  rw [← inside, Lexeme.semicolons_append] at all
  have behind : Lexeme.spelling back = Lexeme.spelling tail ++ rest := by
    rw [← Lexeme.spelling_ofText cut.toList, found, ← inside, Lexeme.spelling_append,
      Lexeme.spelling_append, List.append_assoc, List.append_cancel_left_eq] at whole
    exact whole
  have none' : (Lexeme.spelling back).count ';' = 0 := by
    rw [Lexeme.count_spelling spelled noComment]
    omega
  rw [List.count_eq_zero, behind] at none'
  exact fun member => none' (List.mem_append_right _ member)

end Program

/-- A text that is cut off loses nothing but wires, or is no program. Canonical text is none up to
its last semicolon. -/
theorem parse_of_isPrefix :
    (∀ text cut : String, cut.toList.IsPrefix text.toList -> ∀ program shorter,
      Program.parse text = .ok program -> Program.parse cut = .ok shorter ->
        shorter.Shortens program) ∧
    ∀ text program, Program.parse text = .ok program ->
      ∀ cut rest : String, program.render = cut ++ rest -> ';' ∈ rest.toList ->
        exists failure, Program.parse cut = .error failure := by
  constructor
  · intro text cut isPrefix program shorter parsed again
    exact Program.shortens_of_isPrefix isPrefix parsed again
  · intro text program parsed cut rest whole semicolon
    cases again : Program.parse cut with
    | error failure => exact ⟨failure, rfl⟩
    | ok shorter =>
        have whole := congrArg String.toList whole
        rw [String.toList_append] at whole
        have wellFormed := Program.wellFormed_of_parse parsed
        exact absurd semicolon (Program.not_mem_of_parse_front wellFormed whole again)

theorem parse_of_isPrefix_lastWire :
    (exists program, Program.parse "Inputs:;Outputs:;Parts:;Wires:;a->b;" = .ok program ∧
      Program.parse "Inputs:;Outputs:;Parts:;Wires:;" = .ok {} ∧ Program.Shortens {} program) ∧
    exists failure,
      Program.parse "Inputs:;\nOutputs:;\nParts:;\nWires: a -> b" = .error failure := by
  have nothing (heading : Heading) {α : Type} (phrase : Phrase α) :
      StatementWritten heading (BodyWritten phrase)
        [.mark (.keyword heading), .mark .colon, .mark .semicolon] [] := .intro .ended
  have wire : WireWritten (some .semicolon) ([.name "a"] ++ .mark .arrow :: [.name "b"])
      { source := { name := "a" }, target := { name := "b" } } :=
    .driven (.bare (by simp) (by simp)) (.bare (by simp) (by simp))
  have body : BodyWritten Phrase.wires
      ([.name "a", .mark .arrow, .name "b"] ++ [.mark .semicolon])
      [{ source := { name := "a" }, target := { name := "b" } }] :=
    @BodyWritten.entry _ Phrase.wires _ _ _ _ wire .ended
  have noWire : ¬ (Lexeme.front []).any Phrase.wires.opens := by simp [Lexeme.front]
  have short : Program.parse "Inputs:;Outputs:;Parts:;Wires:;" = .ok {} := by
    refine parse_eq_ok_of_written ?_ (.intro (nothing .inputs Phrase.ports)
      (nothing .outputs Phrase.ports) (nothing .parts Phrase.parts) (.intro (.one .ended)) noWire)
    simp [Lexeme.meantOf, Lexeme.ofText, Lexeme.cut, Lexer.isBlank, Lexer.isLineFeed,
      Lexer.delimiter?, Token.Kind.ofWord, Heading.ofWord?, Heading.all, Heading.word]
    decide
  have long : Program.parse "Inputs:;Outputs:;Parts:;Wires:;a->b;" =
      .ok { wires := [{ source := { name := "a" }, target := { name := "b" } }] } := by
    refine parse_eq_ok_of_written ?_ (.intro (nothing .inputs Phrase.ports)
      (nothing .outputs Phrase.ports) (nothing .parts Phrase.parts)
      (.intro (.more .ended rfl (.one body))) noWire)
    simp [Lexeme.meantOf, Lexeme.ofText, Lexeme.cut, Lexeme.cutDash, Lexer.isBlank,
      Lexer.isLineFeed, Lexer.delimiter?, Token.Kind.ofWord, Heading.ofWord?, Heading.all,
      Heading.word]
    decide
  refine ⟨⟨_, long, short, ?_⟩, ?_⟩
  · exact parse_of_isPrefix.1 _ _ ⟨"a->b;".toList, by decide⟩ _ _ long short
  · exact parse_of_isPrefix.2 _ _ long _ ";\n" (by decide +kernel) (by decide)

end Netlist
