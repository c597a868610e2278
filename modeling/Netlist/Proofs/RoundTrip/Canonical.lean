import Netlist.Program.Render
import Netlist.Proofs.Lexing.Text
import Netlist.Proofs.RoundTrip.WellFormed

set_option autoImplicit false

namespace Netlist

namespace Lexeme

def blank : Lexeme :=
  { kind := .blank, text := " " }

def newline : Lexeme :=
  { kind := .newline, text := "\n" }

end Lexeme

open Lexeme (spelling Settled)

def Port.lexemes (port : Port) : List Lexeme :=
  if port.pins = .ofWidth 1 then [.name port.id]
  else [.name port.id, .mark .leftBracket, .digits (decimal port.width), .mark .rightBracket]

def Part.lexemes (part : Part) : List Lexeme :=
  [.name part.id, .blank, .name part.module]

def PinRange.lexemes (range : PinRange) : List Lexeme :=
  if range.isUnspecified then []
  else if range.first = range.last then
    [.mark .leftBracket, .digits (decimal range.first), .mark .rightBracket]
  else
    [.mark .leftBracket, .digits (decimal range.first), .mark .colon, .digits (decimal range.last),
      .mark .rightBracket]

def Endpoint.clauses (endpoint : Endpoint) : List Lexeme :=
  match endpoint.selector with
  | none => endpoint.pins.lexemes
  | some selector => .mark .dot :: .name selector :: endpoint.pins.lexemes

def Wire.lexemes (wire : Wire) : List Lexeme :=
  { kind := if wire.isConstant then .digits else .name, text := wire.source.name } ::
    wire.source.clauses ++ .blank :: .mark .arrow :: .blank :: .name wire.target.name ::
    wire.target.clauses

namespace Statement

def entries : Statement -> List (List Lexeme)
  | .inputs entries => entries.map Port.lexemes
  | .outputs entries => entries.map Port.lexemes
  | .parts entries => entries.map Part.lexemes
  | .wires entries => entries.map Wire.lexemes

def remaining : List (List Lexeme) -> List Lexeme
  | [] => [.mark .semicolon, .newline]
  | entry :: entries => .mark .comma :: .blank :: entry ++ remaining entries

def listing : List (List Lexeme) -> List Lexeme
  | [] => [.mark .semicolon, .newline]
  | entry :: entries => .blank :: entry ++ remaining entries

def lexemes (statement : Statement) : List Lexeme :=
  .mark (.keyword statement.heading) :: .mark .colon :: listing statement.entries

end Statement

def Program.lexemes (program : Program) : List Lexeme :=
  program.statements.flatMap Statement.lexemes

section Spelling

theorem Port.spelling_lexemes (port : Port) : spelling port.lexemes = port.render.toList := by
  unfold lexemes render
  split_ifs <;> simp [Lexeme.spelling_cons, Lexeme.spelling_nil, Lexeme.name, Lexeme.mark,
    Lexeme.digits, Token.Kind.sign]

theorem Part.spelling_lexemes (part : Part) : spelling part.lexemes = part.render.toList := by
  simp [lexemes, render, Lexeme.spelling_cons, Lexeme.spelling_nil, Lexeme.name, Lexeme.blank]

theorem PinRange.spelling_lexemes (range : PinRange) :
    spelling range.lexemes = range.render.toList := by
  unfold lexemes render
  split_ifs <;> simp [Lexeme.spelling_cons, Lexeme.spelling_nil, Lexeme.mark, Lexeme.digits,
    Token.Kind.sign]

theorem Endpoint.spelling_clauses (endpoint : Endpoint) :
    endpoint.name.toList ++ spelling endpoint.clauses = endpoint.render.toList := by
  unfold clauses render
  cases endpoint.selector with
  | none => simp [PinRange.spelling_lexemes]
  | some selector =>
      simp [Lexeme.spelling_cons, Lexeme.mark, Lexeme.name, Token.Kind.sign,
        PinRange.spelling_lexemes]

theorem Wire.spelling_lexemes (wire : Wire) : spelling wire.lexemes = wire.render.toList := by
  simp [lexemes, render, Lexeme.spelling_cons, Lexeme.spelling_append, Lexeme.mark, Lexeme.name,
    Lexeme.blank, Token.Kind.sign, ← Endpoint.spelling_clauses]

namespace Statement

theorem map_spelling_entries (statement : Statement) :
    statement.entries.map spelling = statement.texts.map String.toList := by
  cases statement <;> simp [entries, texts, Port.spelling_lexemes, Part.spelling_lexemes,
    Wire.spelling_lexemes, Function.comp_def]

theorem spelling_remaining {groups : List (List Lexeme)} {texts : List String}
    (same : groups.map spelling = texts.map String.toList) :
    spelling (remaining groups) = (texts.flatMap fun text => (", " ++ text).toList) ++ [';', '\n'] := by
  -- group by group, each with the text it spells
  induction groups generalizing texts with
  | nil =>
      obtain rfl : texts = [] := List.map_eq_nil_iff.mp same.symm
      rfl
  | cons group groups ih =>
      obtain ⟨text, rest, rfl, head, tail⟩ := List.map_eq_cons_iff.mp same.symm
      rw [remaining, Lexeme.spelling_append, ih tail.symm]
      simp [Lexeme.spelling_cons, Lexeme.mark, Lexeme.blank, Token.Kind.sign, head]

theorem spelling_listing {groups : List (List Lexeme)} {texts : List String}
    (same : groups.map spelling = texts.map String.toList) :
    spelling (listing groups) = (listed texts ++ ";\n").toList := by
  cases groups with
  | nil =>
      obtain rfl : texts = [] := List.map_eq_nil_iff.mp same.symm
      rfl
  | cons group groups =>
      obtain ⟨text, rest, rfl, head, tail⟩ := List.map_eq_cons_iff.mp same.symm
      rw [listing, Lexeme.spelling_append, spelling_remaining tail.symm]
      simp [listed, Lexeme.spelling_cons, Lexeme.blank, head, List.flatMap_map]

theorem spelling_lexemes (statement : Statement) :
    spelling statement.lexemes = (statement.render ++ "\n").toList := by
  rw [lexemes, Lexeme.spelling_cons, Lexeme.spelling_cons,
    spelling_listing statement.map_spelling_entries, render, Heading.word_eq_sign]
  simp [Lexeme.mark, Token.Kind.sign]

end Statement

theorem Program.spelling_lexemes (program : Program) :
    spelling program.lexemes = program.render.toList := by
  rw [lexemes, render, String.toList_join, List.flatMap_map, spelling, List.flatMap_assoc]
  simp only [← Statement.spelling_lexemes]
  rfl

end Spelling

section Settled

namespace Lexeme

def Apart (lexemes : List Lexeme) : Prop :=
  ∀ c ∈ (spelling lexemes).head?, c.isAlphanum = false

theorem apart_mark {kind : Token.Kind} (mark : kind.isMark)
    (noKeyword : ∀ heading, kind ≠ .keyword heading) (rest : List Lexeme) :
    Apart (.mark kind :: rest) := by
  rw [Apart, spelling_cons]
  cases kind <;> simp [Token.Kind.isMark] at mark
  case keyword heading => exact absurd rfl (noKeyword heading)
  all_goals simp [Lexeme.mark, Token.Kind.sign]

theorem apart_blank (rest : List Lexeme) : Apart (.blank :: rest) := by
  simp [Apart, spelling_cons, blank]

variable {rest : List Lexeme}

theorem settled_name {text : String} (isName : IsName text) (apart : Apart rest)
    (settled : Settled rest) : Settled (.name text :: rest) :=
  .cons (spells_name isName) (fun c found => apart c found) settled

theorem settled_digits {text : String} (isNumber : IsNumber text) (apart : Apart rest)
    (settled : Settled rest) : Settled (.digits text :: rest) := by
  refine .cons (spells_digits isNumber) (fun c found => ?_) settled
  have noWord := apart c found
  rw [Char.isAlphanum, Bool.or_eq_false_iff] at noWord
  exact noWord.2

theorem settled_mark {kind : Token.Kind} (mark : kind.isMark)
    (noKeyword : ∀ heading, kind ≠ .keyword heading) (settled : Settled rest) :
    Settled (.mark kind :: rest) := by
  refine .cons (spells_sign mark) (fun c found => ?_) settled
  cases kind <;> simp [Token.Kind.isMark] at mark
  case keyword heading => exact absurd rfl (noKeyword heading)
  all_goals rfl

theorem settled_keyword (heading : Heading) (apart : Apart rest) (settled : Settled rest) :
    Settled (.mark (.keyword heading) :: rest) :=
  .cons (spells_sign rfl) (fun c found => apart c found) settled

theorem settled_blank (noBlank : ∀ c ∈ (spelling rest).head?, Lexer.isBlank c = false)
    (settled : Settled rest) : Settled (.blank :: rest) :=
  .cons (.blank rfl (by simp)) noBlank settled

theorem settled_newline (noFeed : ∀ c ∈ (spelling rest).head?, Lexer.isLineFeed c = false)
    (settled : Settled rest) : Settled (.newline :: rest) :=
  .cons (.newline rfl (by simp)) noFeed settled

end Lexeme

open Lexeme (Apart)

theorem isNumber_decimal (pin : UInt32) : IsNumber (decimal pin) := by
  have digits : (decimal pin).toList = Nat.toDigits 10 pin.toNat := Nat.toList_repr
  constructor
  · intro empty
    rw [empty] at digits
    exact Nat.toDigits_ne_nil digits.symm
  · intro c member
    rw [digits] at member
    exact Nat.isDigit_of_mem_toDigits (by decide) (by decide) member

theorem pinWritten_decimal (pin : UInt32) : PinWritten (decimal pin) pin := by
  have digits : (decimal pin).toList = Nat.toDigits 10 pin.toNat := Nat.toList_repr
  rw [PinWritten, digits, Nat.ofDigitChars_ten_toDigits]

structure Lexeme.Stable (lexemes : List Lexeme) : Prop where
  solid : ∀ rest, ∀ c ∈ (spelling (lexemes ++ rest)).head?, Lexer.isBlank c = false
  settled : ∀ rest, Apart rest -> Settled rest -> Settled (lexemes ++ rest)

theorem Lexeme.solid_of_cons {lexeme : Lexeme} {first : Char} {more : List Char}
    (whole : lexeme.text.toList = first :: more) (alphanum : first.isAlphanum)
    (rest : List Lexeme) : ∀ c ∈ (spelling (lexeme :: rest)).head?, Lexer.isBlank c = false := by
  intro c found
  rw [spelling_cons, whole, List.cons_append, List.head?_cons, Option.mem_some_iff] at found
  rw [← found]
  exact Bool.eq_false_iff.mpr (not_layout_of_isAlphanum alphanum).1

theorem IsName.solid {text : String} (isName : IsName text) (rest : List Lexeme) :
    ∀ c ∈ (spelling (.name text :: rest)).head?, Lexer.isBlank c = false := by
  obtain ⟨⟨first, more, whole, letter, -⟩, -⟩ := isName
  exact Lexeme.solid_of_cons whole (by simp [Char.isAlphanum, letter]) rest

theorem IsNumber.eq_cons {text : String} (isNumber : IsNumber text) :
    exists first more, text.toList = first :: more ∧ first.isDigit := by
  obtain ⟨some', digits⟩ := isNumber
  cases whole : text.toList with
  | nil => exact absurd (String.toList_eq_nil_iff.mp whole) some'
  | cons first more => exact ⟨first, more, rfl, digits first (by simp [whole])⟩

theorem IsNumber.solid {text : String} (isNumber : IsNumber text) (rest : List Lexeme) :
    ∀ c ∈ (spelling (.digits text :: rest)).head?, Lexer.isBlank c = false := by
  obtain ⟨first, more, whole, digit⟩ := isNumber.eq_cons
  exact Lexeme.solid_of_cons whole (by simp [Char.isAlphanum, digit]) rest

theorem Port.stable_lexemes {port : Port} (wellFormed : port.WellFormed) :
    Lexeme.Stable port.lexemes := by
  obtain ⟨isName, -⟩ := wellFormed
  unfold lexemes
  split_ifs
  · exact ⟨isName.solid, fun rest => Lexeme.settled_name isName⟩
  · refine ⟨fun rest => isName.solid _, fun rest apart settled => ?_⟩
    apply Lexeme.settled_name isName (Lexeme.apart_mark rfl (by simp) _)
    apply Lexeme.settled_mark rfl (by simp)
    apply Lexeme.settled_digits (isNumber_decimal _) (Lexeme.apart_mark rfl (by simp) _)
    exact Lexeme.settled_mark rfl (by simp) settled

theorem Part.stable_lexemes {part : Part} (wellFormed : part.WellFormed) :
    Lexeme.Stable part.lexemes := by
  obtain ⟨id, module⟩ := wellFormed
  refine ⟨fun rest => id.solid _, fun rest apart settled => ?_⟩
  apply Lexeme.settled_name id (Lexeme.apart_blank _)
  exact Lexeme.settled_blank (module.solid rest) (Lexeme.settled_name module apart settled)

theorem PinRange.settled_lexemes (range : PinRange) {rest : List Lexeme} (settled : Settled rest) :
    Settled (range.lexemes ++ rest) := by
  unfold lexemes
  split_ifs
  · exact settled
  · apply Lexeme.settled_mark rfl (by simp)
    apply Lexeme.settled_digits (isNumber_decimal _) (Lexeme.apart_mark rfl (by simp) _)
    exact Lexeme.settled_mark rfl (by simp) settled
  · apply Lexeme.settled_mark rfl (by simp)
    apply Lexeme.settled_digits (isNumber_decimal _) (Lexeme.apart_mark rfl (by simp) _)
    apply Lexeme.settled_mark rfl (by simp)
    apply Lexeme.settled_digits (isNumber_decimal _) (Lexeme.apart_mark rfl (by simp) _)
    exact Lexeme.settled_mark rfl (by simp) settled

section Endpoint

variable {rest : List Lexeme} (apart : Apart rest)

include apart

theorem PinRange.apart_lexemes (range : PinRange) : Apart (range.lexemes ++ rest) := by
  unfold lexemes
  split_ifs
  · exact apart
  · exact Lexeme.apart_mark rfl (by simp) _
  · exact Lexeme.apart_mark rfl (by simp) _

theorem Endpoint.apart_clauses (endpoint : Endpoint) : Apart (endpoint.clauses ++ rest) := by
  unfold clauses
  cases endpoint.selector with
  | none => exact endpoint.pins.apart_lexemes apart
  | some selector => exact Lexeme.apart_mark rfl (by simp) _

theorem Endpoint.settled_clauses {endpoint : Endpoint}
    (isName : ∀ selector ∈ endpoint.selector, IsName selector) (settled : Settled rest) :
    Settled (endpoint.clauses ++ rest) := by
  unfold clauses
  cases found : endpoint.selector with
  | none => exact endpoint.pins.settled_lexemes settled
  | some selector =>
      apply Lexeme.settled_mark rfl (by simp)
      exact Lexeme.settled_name (isName selector found) (endpoint.pins.apart_lexemes apart)
        (endpoint.pins.settled_lexemes settled)

end Endpoint

theorem Wire.isConstant_of_isNumber {wire : Wire} (isNumber : IsNumber wire.source.name) :
    wire.isConstant := by
  obtain ⟨first, more, whole, digit⟩ := isNumber.eq_cons
  simp [isConstant, whole, digit]

theorem Wire.not_isConstant_of_isName {wire : Wire} (isName : IsName wire.source.name) :
    ¬ wire.isConstant := by
  obtain ⟨⟨first, more, whole, letter, -⟩, -⟩ := isName
  simpa [isConstant, whole] using Lexeme.not_isDigit_of_isAlpha letter

theorem Wire.settled_behind {wire : Wire} (target : wire.target.WellFormed) {rest : List Lexeme}
    (apart : Apart rest) (settled : Settled rest) :
    Settled (.blank :: .mark .arrow :: .blank :: .name wire.target.name :: wire.target.clauses ++
      rest) := by
  obtain ⟨isName, selector⟩ := target
  rw [List.cons_append, List.cons_append]
  refine Lexeme.settled_blank (fun c found => ?_) (Lexeme.settled_mark rfl (by simp) ?_)
  · rw [Lexeme.spelling_cons] at found
    obtain rfl : '-' = c := by simpa [Lexeme.mark, Token.Kind.sign] using found
    rfl
  · apply Lexeme.settled_blank (isName.solid _)
    exact Lexeme.settled_name isName (wire.target.apart_clauses apart)
      (Endpoint.settled_clauses apart selector settled)

theorem Wire.stable_lexemes {wire : Wire} (wellFormed : wire.WellFormed) :
    Lexeme.Stable wire.lexemes := by
  obtain ⟨source, target⟩ := wellFormed
  -- a blank stands behind the source, whichever it is
  have apart := fun rest => Lexeme.apart_blank
    (.mark .arrow :: .blank :: .name wire.target.name :: wire.target.clauses ++ rest)
  unfold lexemes
  rcases source with ⟨isName, selector⟩ | ⟨isNumber, noSelector, noPins⟩
  · rw [if_neg (not_isConstant_of_isName isName)]
    refine ⟨fun rest => isName.solid _, fun rest outside settled => ?_⟩
    rw [List.append_assoc, List.cons_append]
    exact Lexeme.settled_name isName (wire.source.apart_clauses (apart rest))
      (Endpoint.settled_clauses (apart rest) selector (settled_behind target outside settled))
  · have noClauses : wire.source.clauses = [] := by
      rw [Endpoint.clauses, noSelector, noPins]
      rfl
    rw [if_pos (isConstant_of_isNumber isNumber), noClauses]
    refine ⟨fun rest => isNumber.solid _, fun rest outside settled => ?_⟩
    exact Lexeme.settled_digits isNumber (apart rest) (settled_behind target outside settled)

namespace Statement

theorem settled_remaining {groups : List (List Lexeme)}
    (stable : ∀ group ∈ groups, Lexeme.Stable group) {rest : List Lexeme}
    (noFeed : ∀ c ∈ (spelling rest).head?, Lexer.isLineFeed c = false) (settled : Settled rest) :
    Settled (remaining groups ++ rest) ∧ Apart (remaining groups ++ rest) := by
  -- each group has a comma or the semicolon behind it, so none runs into the next
  induction groups with
  | nil =>
      refine ⟨?_, Lexeme.apart_mark rfl (by simp) _⟩
      exact Lexeme.settled_mark rfl (by simp) (Lexeme.settled_newline noFeed settled)
  | cons group groups ih =>
      obtain ⟨solid, stands⟩ := stable group List.mem_cons_self
      obtain ⟨further, apart⟩ := ih fun group member => stable group (List.mem_cons_of_mem _ member)
      refine ⟨?_, Lexeme.apart_mark rfl (by simp) _⟩
      rw [remaining, List.append_assoc]
      refine Lexeme.settled_mark rfl (by simp) (Lexeme.settled_blank (solid _) ?_)
      exact stands _ apart further

theorem settled_listing {groups : List (List Lexeme)}
    (stable : ∀ group ∈ groups, Lexeme.Stable group) {rest : List Lexeme}
    (noFeed : ∀ c ∈ (spelling rest).head?, Lexer.isLineFeed c = false) (settled : Settled rest) :
    Settled (listing groups ++ rest) := by
  cases groups with
  | nil => exact Lexeme.settled_mark rfl (by simp) (Lexeme.settled_newline noFeed settled)
  | cons group groups =>
      obtain ⟨solid, stands⟩ := stable group List.mem_cons_self
      obtain ⟨further, apart⟩ := settled_remaining
        (fun group member => stable group (List.mem_cons_of_mem _ member)) noFeed settled
      rw [listing, List.append_assoc]
      exact Lexeme.settled_blank (solid _) (stands _ apart further)

theorem noFeed_lexemes (statement : Statement) (rest : List Lexeme) :
    ∀ c ∈ (spelling (statement.lexemes ++ rest)).head?, Lexer.isLineFeed c = false := by
  intro c found
  rw [lexemes, List.cons_append, Lexeme.spelling_cons] at found
  cases statement <;>
    simp [Lexeme.mark, Token.Kind.sign, Statement.heading] at found <;>
    rw [← found] <;> rfl

theorem settled_lexemes {statement : Statement}
    (stable : ∀ group ∈ statement.entries, Lexeme.Stable group) {rest : List Lexeme}
    (noFeed : ∀ c ∈ (spelling rest).head?, Lexer.isLineFeed c = false) (settled : Settled rest) :
    Settled (statement.lexemes ++ rest) := by
  apply Lexeme.settled_keyword _ (Lexeme.apart_mark rfl (by simp) _)
  exact Lexeme.settled_mark rfl (by simp) (settled_listing stable noFeed settled)

theorem WellFormed.stable {statement : Statement} (wellFormed : statement.WellFormed) :
    ∀ group ∈ statement.entries, Lexeme.Stable group := by
  intro group present
  cases statement <;> obtain ⟨entry, found, rfl⟩ := List.mem_map.mp present
  case inputs => exact Port.stable_lexemes (wellFormed entry found)
  case outputs => exact Port.stable_lexemes (wellFormed entry found)
  case parts => exact Part.stable_lexemes (wellFormed entry found)
  case wires => exact Wire.stable_lexemes (wellFormed entry found)

theorem settled_all {statements : List Statement}
    (wellFormed : ∀ statement ∈ statements, statement.WellFormed) :
    Settled (statements.flatMap lexemes) := by
  induction statements with
  | nil => exact .nil
  | cons statement statements ih =>
      obtain ⟨here, others⟩ := List.forall_mem_cons.mp wellFormed
      rw [List.flatMap_cons]
      apply settled_lexemes here.stable _ (ih others)
      -- the next statement opens with its heading, so the end of this line is a lexeme of its own
      cases statements with
      | nil => simp [Lexeme.spelling_nil]
      | cons next more => exact noFeed_lexemes next _

end Statement

theorem Program.settled_lexemes {program : Program} (wellFormed : program.WellFormed) :
    Settled program.lexemes :=
  Statement.settled_all wellFormed.statements

end Settled

end Netlist
