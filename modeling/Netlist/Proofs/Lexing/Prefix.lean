import Netlist.Proofs.Lexing.Meant

set_option autoImplicit false

namespace Netlist.Lexeme

open Lexer (isBlank isLineFeed)

theorem Spells.of_isPrefix {kind : Token.Kind} {word more : List Char}
    (spells : Spells kind (word ++ more)) (some' : word ≠ []) (cut : more ≠ []) :
    exists shorter, Spells shorter word ∧ shorter ≠ .semicolon := by
  cases word with
  | nil => exact absurd rfl some'
  | cons first word =>
      rw [List.cons_append] at spells
      have left {accept : Char -> Bool} (all : ∀ c ∈ word ++ more, accept c) :
          ∀ c ∈ word, accept c := fun c member => all c (List.mem_append_left _ member)
      generalize whole : word ++ more = tail at spells
      cases spells with
      | blank blank blanks => exact ⟨_, .blank blank (left (whole ▸ blanks)), by simp⟩
      | newline feed feeds => exact ⟨_, .newline feed (left (whole ▸ feeds)), by simp⟩
      | digits digit digits => exact ⟨_, .digits digit (left (whole ▸ digits)), by simp⟩
      | word letter letters =>
          refine ⟨_, .word letter (left (whole ▸ letters)), ?_⟩
          unfold Token.Kind.ofWord
          split <;> simp
      | arrow =>
          -- only the dash is left
          obtain ⟨rfl, -⟩ : word = [] ∧ more = ['>'] := by
            simpa [List.append_eq_singleton_iff, cut] using whole
          exact ⟨_, .dash, by simp⟩
      | comment line =>
          cases word with
          | nil => exact ⟨_, .slash, by simp⟩
          | cons second word =>
              obtain ⟨rfl, rfl⟩ := List.cons.inj whole
              have short : ∀ c ∈ word, !isLineFeed c :=
                fun c member => line c (List.mem_append_left _ member)
              exact ⟨_, .comment short, by simp⟩
      | dash => exact absurd (List.append_eq_nil_iff.mp whole).2 cut
      | slash => exact absurd (List.append_eq_nil_iff.mp whole).2 cut
      | lone lone => exact absurd (List.append_eq_nil_iff.mp whole).2 cut

theorem ofText_of_isPrefix {lexemes : List Lexeme} (settled : Settled lexemes) {cut : List Char}
    (shorter : cut.IsPrefix (spelling lexemes)) :
    exists front tail, ofText cut = front ++ tail ∧ front.IsPrefix lexemes ∧
      ∀ lexeme ∈ tail, lexeme.kind ≠ .semicolon := by
  -- along the lexemes, of which the first one is there as a whole or is what is cut
  induction settled generalizing cut with
  | nil =>
      obtain rfl : cut = [] := List.prefix_nil.mp shorter
      exact ⟨[], [], by rw [ofText]; rfl, List.prefix_rfl, by simp⟩
  | @cons lexeme rest spells stops settled ih =>
      have shorter : cut.IsPrefix (lexeme.text.toList ++ spelling rest) := shorter
      by_cases whole : lexeme.text.toList.IsPrefix cut
      · obtain ⟨more, rfl⟩ := whole
        rw [List.prefix_append_right_inj] at shorter
        obtain ⟨front, tail, found, inside, noSemicolon⟩ := ih shorter
        refine ⟨lexeme :: front, tail, ?_, List.cons_prefix_cons.mpr ⟨rfl, inside⟩, noSemicolon⟩
        obtain ⟨behind, same⟩ := shorter
        rw [ofText_append spells fun c first => stops c ?_, found, List.cons_append]
        rw [← same, List.head?_append, Option.mem_def.mp first]
        rfl
      · obtain ⟨more, same⟩ :=
          (List.prefix_or_prefix_of_prefix shorter (List.prefix_append _ _)).resolve_right whole
        by_cases empty : cut = []
        · exact ⟨[], [], by rw [empty, ofText]; rfl, List.nil_prefix, by simp⟩
        · have isCut : more ≠ [] := by
            rintro rfl
            exact whole ⟨[], by rw [← same, List.append_nil, List.append_nil]⟩
          rw [← same] at spells
          obtain ⟨kind, left, noSemicolon⟩ := spells.of_isPrefix empty isCut
          have found := @ofText_append ⟨kind, String.ofList cut⟩ [] (by simpa using left) (by simp)
          refine ⟨[], [⟨kind, String.ofList cut⟩], ?_, List.nil_prefix, by simpa using noSemicolon⟩
          simpa [ofText] using found

theorem meantOf_of_isPrefix {text cut : List Char} (shorter : cut.IsPrefix text) :
    exists front tail, meantOf cut = front ++ tail ∧ front.IsPrefix (meantOf text) ∧
      ∀ lexeme ∈ tail, lexeme.kind ≠ .semicolon := by
  have settled := settled_ofText text
  rw [← spelling_ofText text] at shorter
  obtain ⟨front, tail, found, inside, noSemicolon⟩ := ofText_of_isPrefix settled shorter
  rw [meantOf, found, List.filter_append]
  exact ⟨_, _, rfl, inside.filter _, fun lexeme member =>
    noSemicolon lexeme (List.mem_filter.mp member).1⟩

end Netlist.Lexeme
