import Mathlib.Data.List.Chain
import Netlist.Proofs.RoundTrip.WellFormed
import Netlist.Proofs.Lexing.Text

set_option autoImplicit false

namespace Netlist

namespace Token.Kind

def startsOther (c : Char) : Bool :=
  c = ' ' || c = '\t' || c = '\n' || c.isDigit || c.isAlpha || c ∈ ['.', ',', ';', ':', '[', ']'] ||
    c = '-' || c = '/'

def Admits (text : String) : Kind -> Prop
  | .endOfInput => False
  | .invalid => text = "-" ∨ text = "/" ∨ exists c, text = String.singleton c ∧ !startsOther c
  | .blank => text ≠ "" ∧ ∀ c ∈ text.toList, c = ' ' ∨ c = '\t'
  | .newline => text ≠ "" ∧ ∀ c ∈ text.toList, c = '\n'
  | .digits => IsNumber text
  | .name => IsName text
  | .keyword heading => text = heading.word
  | .dot => text = "."
  | .comma => text = ","
  | .semicolon => text = ";"
  | .colon => text = ":"
  | .leftBracket => text = "["
  | .rightBracket => text = "]"
  | .arrow => text = "->"
  | .comment => exists line, text = "//" ++ line ∧ ∀ c ∈ line.toList, c ≠ '\n'

end Token.Kind

namespace Lexeme

theorem not_startsOther_iff (c : Char) :
    !Token.Kind.startsOther c ↔ isLone c ∧ Lexer.delimiter? c = none := by
  unfold Lexer.delimiter?
  split <;> simp_all [isLone, Token.Kind.startsOther, Lexer.isBlank, Lexer.isLineFeed]

theorem admits_of_isLone {c : Char} (lone : isLone c) :
    ((Lexer.delimiter? c).getD .invalid).Admits (String.singleton c) := by
  cases found : Lexer.delimiter? c with
  | none => exact .inr (.inr ⟨c, rfl, (not_startsOther_iff c).mpr ⟨lone, found⟩⟩)
  | some kind =>
      unfold Lexer.delimiter? at found
      split at found <;> cases found <;> rfl

theorem Spells.admits {kind : Token.Kind} {text : String} (spells : Spells kind text.toList) :
    kind.Admits text := by
  generalize whole : text.toList = word at spells
  obtain rfl : text = String.ofList word := by rw [← whole, String.ofList_toList]
  cases spells with
  | @blank first word blank blanks =>
      have all : ∀ c ∈ first :: word, Lexer.isBlank c := List.forall_mem_cons.mpr ⟨blank, blanks⟩
      exact ⟨by simp, by simpa [Lexer.isBlank] using all⟩
  | @newline first word feed feeds =>
      have all : ∀ c ∈ first :: word, Lexer.isLineFeed c := List.forall_mem_cons.mpr ⟨feed, feeds⟩
      exact ⟨by simp, by simpa [Lexer.isLineFeed] using all⟩
  | @digits first word digit digits =>
      have all : ∀ c ∈ first :: word, c.isDigit := List.forall_mem_cons.mpr ⟨digit, digits⟩
      exact ⟨by simp, by simpa using all⟩
  | @word first word letter more =>
      unfold Token.Kind.ofWord
      -- a word is a heading, or none of them
      cases found : Heading.ofWord? (String.ofList (first :: word)) with
      | none =>
          exact ⟨⟨first, word, String.toList_ofList, letter, more⟩,
            (Heading.ofWord?_eq_none_iff _).mp found⟩
      | some heading =>
          have same := List.find?_some found
          exact (of_decide_eq_true same).symm
  | arrow => rfl
  | dash => exact .inl rfl
  | @comment word line =>
      exact ⟨String.ofList word, by simp [String.ext_iff], by simpa [Lexer.isLineFeed] using line⟩
  | slash => exact .inr (.inl rfl)
  | lone lone => exact admits_of_isLone lone

theorem eq_sign_of_admits {kind : Token.Kind} {text : String} (mark : kind.isMark)
    (admits : kind.Admits text) : text = kind.sign := by
  cases kind with
  | keyword heading => exact admits.trans heading.word_eq_sign
  | _ => simp_all [Token.Kind.isMark, Token.Kind.Admits, Token.Kind.sign]

theorem spells_of_admits {kind : Token.Kind} {text : String} (admits : kind.Admits text) :
    Spells kind text.toList := by
  cases kind with
  | endOfInput => exact admits.elim
  | invalid =>
      rcases admits with rfl | rfl | ⟨c, rfl, alone⟩
      · exact .dash
      · exact .slash
      · obtain ⟨lone, none'⟩ := (not_startsOther_iff c).mp alone
        simpa [none'] using Spells.lone lone
  | blank =>
      obtain ⟨some', blanks⟩ := admits
      cases whole : text.toList with
      | nil => exact absurd (String.toList_eq_nil_iff.mp whole) some'
      | cons first word =>
          simp only [whole, List.forall_mem_cons] at blanks
          exact .blank (by simp [Lexer.isBlank, blanks.1]) (by simpa [Lexer.isBlank] using blanks.2)
  | newline =>
      obtain ⟨some', feeds⟩ := admits
      cases whole : text.toList with
      | nil => exact absurd (String.toList_eq_nil_iff.mp whole) some'
      | cons first word =>
          simp only [whole, List.forall_mem_cons] at feeds
          exact .newline (by simp [Lexer.isLineFeed, feeds.1])
            (by simpa [Lexer.isLineFeed] using feeds.2)
  | comment =>
      obtain ⟨line, rfl, noFeed⟩ := admits
      rw [String.toList_append]
      exact .comment (by simpa [Lexer.isLineFeed] using noFeed)
  | digits => exact spells_digits admits
  | name => exact spells_name admits
  | _ =>
      have same := eq_sign_of_admits rfl admits
      exact same ▸ spells_sign rfl

end Lexeme

/-- Lexemes that are `text` cut into pieces, each as long as it can be. -/
structure Tokenizes (text : String) (lexemes : List Lexeme) : Prop where
  spelling : Lexeme.spelling lexemes = text.toList
  admits : ∀ lexeme ∈ lexemes, lexeme.kind.Admits lexeme.text
  longest : lexemes.IsChain fun lexeme next =>
    ∀ c ∈ next.text.toList.head?, Lexeme.continues lexeme.kind lexeme.text.toList c = false

theorem Lexeme.settled_iff (lexemes : List Lexeme) :
    Settled lexemes ↔ (∀ lexeme ∈ lexemes, lexeme.kind.Admits lexeme.text) ∧
      lexemes.IsChain fun lexeme next =>
        ∀ c ∈ next.text.toList.head?, continues lexeme.kind lexeme.text.toList c = false := by
  induction lexemes with
  | nil => simp [Settled.nil]
  | cons lexeme rest ih =>
      constructor
      · intro settled
        cases settled with
        | cons spells stops settled =>
            obtain ⟨admits, longest⟩ := ih.mp settled
            refine ⟨List.forall_mem_cons.mpr ⟨spells.admits, admits⟩, ?_⟩
            cases settled with
            | nil => exact .singleton lexeme
            | @cons next rest spells _ _ =>
                rw [head?_spelling_cons spells] at stops
                exact .cons_cons stops longest
      · intro cut
        obtain ⟨admits, longest⟩ := cut
        obtain ⟨first, others⟩ := List.forall_mem_cons.mp admits
        refine .cons (spells_of_admits first) ?_ (ih.mpr ⟨others, longest.tail⟩)
        cases longest with
        | singleton => simp [spelling]
        | @cons_cons _ next rest stops longest =>
            rw [head?_spelling_cons (spells_of_admits (others next List.mem_cons_self))]
            exact stops

theorem tokenizes_iff (text : String) (lexemes : List Lexeme) :
    Tokenizes text lexemes ↔ lexemes = Lexeme.ofText text.toList := by
  constructor
  · intro cut
    have settled := (Lexeme.settled_iff lexemes).mpr ⟨cut.admits, cut.longest⟩
    rw [← cut.spelling, Lexeme.ofText_spelling settled]
  · rintro rfl
    obtain ⟨admits, longest⟩ := (Lexeme.settled_iff _).mp (Lexeme.settled_ofText text.toList)
    exact ⟨Lexeme.spelling_ofText _, admits, longest⟩

/-- The tokens of a text are its one and only cut into longest lexemes, and one end of input. -/
theorem scan_unique_tokenization (text : String) :
    exists tokens finish, Token.scan text = tokens ++ [Token.ending finish] ∧
      (∀ token ∈ tokens, token.kind ≠ .endOfInput) ∧
      ∀ lexemes, Tokenizes text lexemes ↔ lexemes = tokens.map Token.lexeme := by
  obtain ⟨tokens, scanned, lexemes⟩ := Lexer.tokens_eq_append (Lexer.faces_ofText text)
  refine ⟨tokens, _, (Lexer.scan_eq_tokens text).trans scanned, fun token member => ?_, ?_⟩
  · have found : token.lexeme ∈ Lexeme.ofText text.toList :=
      lexemes ▸ List.mem_map_of_mem member
    exact (Lexeme.spells_of_mem_ofText found).ne_endOfInput
  · simpa [lexemes] using tokenizes_iff text

end Netlist
