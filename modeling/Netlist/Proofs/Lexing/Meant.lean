import Netlist.Proofs.Lexing.Text

set_option autoImplicit false

namespace Netlist

namespace Lexeme

open Lexer (isBlank isLineFeed)

def meantOf (text : List Char) : List Lexeme :=
  (ofText text).filter fun lexeme => !lexeme.kind.isLayout

def Meant (lexemes : List Lexeme) : Prop :=
  ∀ lexeme ∈ lexemes, Spells lexeme.kind lexeme.text.toList ∧ ¬ lexeme.kind.isLayout

theorem meant_append {front rest : List Lexeme} :
    Meant (front ++ rest) ↔ Meant front ∧ Meant rest :=
  List.forall_mem_append

theorem meant_meantOf (text : List Char) : Meant (meantOf text) := by
  intro lexeme member
  obtain ⟨found, noLayout⟩ := List.mem_filter.mp member
  exact ⟨spells_of_mem_ofText found, by simpa using noLayout⟩

theorem meantOf_append {lexeme : Lexeme} {text : List Char}
    (spells : Spells lexeme.kind lexeme.text.toList)
    (stops : ∀ c ∈ text.head?, continues lexeme.kind lexeme.text.toList c = false) :
    meantOf (lexeme.text.toList ++ text) =
      [lexeme].filter (fun lexeme => !lexeme.kind.isLayout) ++ meantOf text := by
  rw [meantOf, ofText_append spells stops, ← List.singleton_append, List.filter_append]
  rfl

theorem meantOf_cut {first : Char} {text : List Char} (layout : (cut first text).1.isLayout) :
    meantOf (first :: text) = meantOf (cut first text).2.2 := by
  rw [meantOf, ofText, List.filter_cons_of_neg (by simpa using layout)]
  rfl

theorem cut_of_isBlank {c : Char} (blank : isBlank c) (text : List Char) :
    cut c text = (.blank, c :: text.takeWhile isBlank, text.dropWhile isBlank) := by
  rw [cut, if_pos blank]

theorem cut_lineFeed (text : List Char) :
    cut '\n' text = (.newline, '\n' :: text.takeWhile isLineFeed, text.dropWhile isLineFeed) := rfl

theorem meantOf_blank {c : Char} (blank : isBlank c) (text : List Char) :
    meantOf (c :: text) = meantOf text := by
  have run (c : Char) (blank : isBlank c) (text : List Char) :
      meantOf (c :: text) = meantOf (text.dropWhile isBlank) := by
    have whole := cut_of_isBlank blank text
    rw [meantOf_cut (by rw [whole]; rfl), whole]
  rw [run c blank]
  cases text with
  | nil => rfl
  | cons d rest =>
      by_cases other : isBlank d
      · rw [List.dropWhile_cons_of_pos other, run d other]
      · rw [List.dropWhile_cons_of_neg other]

theorem meantOf_lineFeed (text : List Char) : meantOf ('\n' :: text) = meantOf text := by
  have run (text : List Char) : meantOf ('\n' :: text) = meantOf (text.dropWhile isLineFeed) := by
    rw [meantOf_cut (by rw [cut_lineFeed]; rfl), cut_lineFeed]
  rw [run]
  cases text with
  | nil => rfl
  | cons d rest =>
      by_cases feed : d = '\n'
      · subst feed
        rw [run]
        rfl
      · rw [List.dropWhile_cons_of_neg (by simpa [isLineFeed] using feed)]

theorem meantOf_comment (text : List Char) :
    meantOf ('/' :: '/' :: text) = meantOf (text.dropWhile fun c => !isLineFeed c) :=
  meantOf_cut rfl

/-- Layout, with a line feed behind every comment. -/
inductive Skipped : List Char -> Prop where
  | nil : Skipped []
  | blank {c : Char} {text : List Char} (blank : isBlank c) (further : Skipped text) :
      Skipped (c :: text)
  | lineFeed {text : List Char} (further : Skipped text) : Skipped ('\n' :: text)
  | comment {line text : List Char} (noFeed : ∀ c ∈ line, !isLineFeed c)
      (further : Skipped ('\n' :: text)) : Skipped ('/' :: '/' :: line ++ '\n' :: text)

theorem dropWhile_line {line : List Char} (noFeed : ∀ c ∈ line, !isLineFeed c) (text : List Char) :
    (line ++ '\n' :: text).dropWhile (fun c => !isLineFeed c) = '\n' :: text := by
  rw [List.dropWhile_append_of_pos noFeed]
  exact List.dropWhile_cons_of_neg (by decide)

theorem meantOf_of_skipped {layout : List Char} (skipped : Skipped layout) (text : List Char) :
    meantOf (layout ++ text) = meantOf text := by
  induction skipped with
  | nil => rfl
  | blank blank further ih => exact (meantOf_blank blank _).trans ih
  | lineFeed further ih => exact (meantOf_lineFeed _).trans ih
  | @comment line rest noFeed further ih =>
      rw [← ih, List.append_assoc]
      exact (meantOf_comment _).trans (congrArg meantOf (dropWhile_line noFeed (rest ++ text)))

theorem continues_layout {kind : Token.Kind} {word : List Char} {c : Char}
    (noLayout : ¬ kind.isLayout) (layout : isBlank c ∨ isLineFeed c) :
    continues kind word c = false := by
  have noWord : c.isAlphanum = false := by
    cases alphanum : c.isAlphanum with
    | false => rfl
    | true => exact (layout.elim (not_layout_of_isAlphanum alphanum).1
        (not_layout_of_isAlphanum alphanum).2).elim
  have noDigit : c.isDigit = false := (Bool.or_eq_false_iff.mp noWord).2
  have noArrow : c ≠ '>' := by rintro rfl; revert layout; decide
  have noSlash : c ≠ '/' := by rintro rfl; revert layout; decide
  cases kind <;> simp_all [continues, Token.Kind.isLayout]

def spaced (lexemes : List Lexeme) : List Char :=
  lexemes.flatMap fun lexeme => lexeme.text.toList ++ [' ']

theorem meantOf_spaced {lexemes : List Lexeme} (meant : Meant lexemes) :
    meantOf (spaced lexemes) = lexemes := by
  induction lexemes with
  | nil => simp [spaced, meantOf, ofText]
  | cons lexeme rest ih =>
      obtain ⟨⟨spells, noLayout⟩, others⟩ := List.forall_mem_cons.mp meant
      have space : isBlank ' ' := by decide
      rw [spaced, List.flatMap_cons, ← spaced, List.append_assoc,
        meantOf_append spells (by simpa using continues_layout noLayout (.inl space)),
        List.filter_cons_of_pos (by simpa using noLayout), List.singleton_append,
        meantOf_blank space, ih others]
      rfl

end Lexeme

theorem Token.significant_eq_filter {text : String} {tokens : List Token} {finish : Position}
    (whole : ({ source := Feed.ofText text } : Lexer Feed).tokens = tokens ++ [Token.ending finish])
    (lexemes : tokens.map Token.lexeme = Lexeme.ofText text.toList) :
    Token.significant text = tokens.filter fun token => !token.kind.isLayout := by
  have counts : tokens.filter Token.isSignificant =
      tokens.filter fun token => !token.kind.isLayout := by
    refine List.filter_congr fun token member => ?_
    have found : token.lexeme ∈ Lexeme.ofText text.toList := lexemes ▸ List.mem_map_of_mem member
    have noEnd : token.kind ≠ .endOfInput := (Lexeme.spells_of_mem_ofText found).ne_endOfInput
    simp [Token.isSignificant, Token.Kind.isSignificant_eq, noEnd]
  rw [Token.significant, Lexer.scan_eq_tokens, whole, List.filter_append, counts]
  exact List.append_nil _

theorem Token.lexemes_significant (text : String) :
    (Token.significant text).map Token.lexeme = Lexeme.meantOf text.toList := by
  obtain ⟨tokens, whole, lexemes⟩ := Lexer.tokens_eq_append (Lexer.faces_ofText text)
  rw [Token.significant_eq_filter whole lexemes, Lexeme.meantOf, ← lexemes, List.filter_map]
  rfl

end Netlist
