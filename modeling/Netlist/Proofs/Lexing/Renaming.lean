import Mathlib.Data.List.Forall2
import Netlist.Proofs.Lexing.Place
import Netlist.Proofs.RoundTrip.WellFormed

set_option autoImplicit false

namespace Netlist

/-- Takes names to names, and need not keep them apart. -/
structure Renaming where
  apply : String -> String
  isName : ∀ {text}, IsName text -> IsName (apply text)

namespace Renaming

def replacing (old new : String) (isName : IsName new) : Renaming where
  apply text := if text = old then new else text
  isName := by
    intro text named
    split
    · exact isName
    · exact named

def word (names : Renaming) (kind : Token.Kind) (text : String) : String :=
  if kind = .name then names.apply text else text

def text (names : Renaming) (text : String) : String :=
  String.join ((Token.scan text).map fun token => names.word token.kind token.text)

def lexeme (names : Renaming) (lexeme : Lexeme) : Lexeme :=
  { lexeme with text := names.word lexeme.kind lexeme.text }

open Lexeme (Spells Settled continues spelling ofText)

variable (names : Renaming)

theorem word_of_ne {kind : Token.Kind} (other : kind ≠ .name) (text : String) :
    names.word kind text = text :=
  if_neg other

theorem spells {kind : Token.Kind} {text : String} (spells : Spells kind text.toList) :
    Spells kind (names.word kind text).toList := by
  by_cases name : kind = .name
  · subst name
    exact Lexeme.spells_name (names.isName spells.isName)
  · rwa [names.word_of_ne name]

theorem continues_word (kind : Token.Kind) (text : String) (c : Char) :
    continues kind (names.word kind text).toList c = continues kind text.toList c := by
  by_cases name : kind = .name
  · subst name
    rfl
  · rw [names.word_of_ne name]

theorem continues_of_isAlpha {c : Char} (letter : c.isAlpha) (kind : Token.Kind)
    (word : List Char) : continues kind word c = continues kind word 'a' := by
  have alphanum : c.isAlphanum := by simp [Char.isAlphanum, letter]
  have noDigit := Lexeme.not_isDigit_of_isAlpha letter
  have noLayout := Lexeme.not_layout_of_isAlphanum alphanum
  have noArrow : c ≠ '>' := by rintro rfl; revert letter; decide
  have noSlash : c ≠ '/' := by rintro rfl; revert letter; decide
  cases kind <;>
    simp_all [continues, Lexer.isBlank, Lexer.isLineFeed]

theorem continues_name {text : String} (isName : IsName text) {kind : Token.Kind}
    {word : List Char} :
    (∀ c ∈ text.toList.head?, continues kind word c = false) ↔
      continues kind word 'a' = false := by
  obtain ⟨⟨first, rest, whole, letter, -⟩, -⟩ := isName
  simp [whole, continues_of_isAlpha letter]

theorem head?_spelling {lexemes : List Lexeme} (settled : Settled lexemes) {kind : Token.Kind}
    {word : List Char} (stops : ∀ c ∈ (spelling lexemes).head?, continues kind word c = false) :
    ∀ c ∈ (spelling (lexemes.map names.lexeme)).head?, continues kind word c = false := by
  cases settled with
  | nil => exact stops
  | @cons next rest spells _ _ =>
      rw [Lexeme.head?_spelling_cons spells] at stops
      rw [List.map_cons, Lexeme.head?_spelling_cons (names.spells spells)]
      obtain ⟨nextKind, text⟩ := next
      by_cases name : nextKind = .name
      · subst name
        have isName := spells.isName
        exact (continues_name (names.isName isName)).mpr ((continues_name isName).mp stops)
      · rw [lexeme, names.word_of_ne name]
        exact stops

theorem settled {lexemes : List Lexeme} (settled : Settled lexemes) :
    Settled (lexemes.map names.lexeme) := by
  induction settled with
  | nil => exact .nil
  | @cons lexeme rest spells stops settled ih =>
      refine .cons (names.spells spells) (names.head?_spelling settled fun c found => ?_) ih
      exact (names.continues_word ..).trans (stops c found)

theorem toList_text (text : String) :
    (names.text text).toList = spelling ((ofText text.toList).map names.lexeme) := by
  have words : ((Token.scan text).map Token.lexeme).map names.lexeme =
      (ofText text.toList).map names.lexeme ++ [{ kind := .endOfInput, text := "" }] := by
    rw [Token.lexemes_scan, List.map_append]
    rfl
  have spelled : (names.text text).toList =
      spelling (((Token.scan text).map Token.lexeme).map names.lexeme) := by
    rw [Renaming.text, String.toList_join, List.flatMap_map, spelling, List.flatMap_map,
      List.flatMap_map]
    rfl
  rw [spelled, words, Lexeme.spelling_append]
  exact List.append_nil _

theorem ofText_text (text : String) :
    ofText (names.text text).toList = (ofText text.toList).map names.lexeme := by
  rw [toList_text, Lexeme.ofText_spelling (names.settled (Lexeme.settled_ofText text.toList))]

theorem lexemes_scan (text : String) :
    (Token.scan (names.text text)).map Token.lexeme =
      ((Token.scan text).map Token.lexeme).map names.lexeme := by
  rw [Token.lexemes_scan, Token.lexemes_scan, ofText_text, List.map_append]
  rfl

theorem not_lineFeed_of_isName {text : String} (isName : IsName text) :
    text.toList.count '\n' = 0 := by
  rw [List.count_eq_zero]
  intro member
  exact (Lexeme.not_layout_of_isAlphanum (isName.alphanum _ member)).2 (by decide)

theorem count_spelling {lexemes : List Lexeme}
    (isName : ∀ lexeme ∈ lexemes, lexeme.kind = .name -> IsName lexeme.text) :
    (spelling (lexemes.map names.lexeme)).count '\n' = (spelling lexemes).count '\n' := by
  induction lexemes with
  | nil => rfl
  | cons lexeme rest ih =>
      obtain ⟨here, others⟩ := List.forall_mem_cons.mp isName
      rw [List.map_cons, Lexeme.spelling_cons, Lexeme.spelling_cons, List.count_append,
        List.count_append, ih others]
      obtain ⟨kind, text⟩ := lexeme
      by_cases name : kind = .name
      · have named := here name
        rw [Renaming.lexeme, word, if_pos name, not_lineFeed_of_isName named,
          not_lineFeed_of_isName (names.isName named)]
      · rw [Renaming.lexeme, names.word_of_ne name]

structure Renames (token other : Token) : Prop where
  lexeme : other.lexeme = names.lexeme token.lexeme
  line : other.position.line = token.position.line

theorem Renames.kind {token other : Token} (renames : names.Renames token other) :
    other.kind = token.kind :=
  congrArg Lexeme.kind renames.lexeme

theorem Renames.text {token other : Token} (renames : names.Renames token other) :
    other.text = names.word token.kind token.text :=
  congrArg Lexeme.text renames.lexeme

theorem Renames.position {token other : Token} (renames : names.Renames token other) :
    other.position = { token.position with column := other.position.column } :=
  congrArg (fun line => ({ line, column := other.position.column } : Position)) renames.line

end Renaming

theorem Token.isName_of_mem_scan {text : String} {token : Token} (member : token ∈ scan text)
    (name : token.kind = .name) : IsName token.text := by
  have found : token.lexeme ∈ (scan text).map lexeme := List.mem_map_of_mem member
  rw [lexemes_scan, List.mem_append, List.mem_singleton] at found
  rcases found with inside | ended
  · have spells := Lexeme.spells_of_mem_ofText inside
    rw [show token.lexeme.kind = .name from name] at spells
    exact spells.isName
  · exact absurd (name.symm.trans (congrArg Lexeme.kind ended)) (by simp)

namespace Renaming

variable (names : Renaming)

theorem forall₂_scan (text : String) :
    List.Forall₂ names.Renames (Token.scan text) (Token.scan (names.text text)) := by
  have lexemes := names.lexemes_scan text
  have length : (Token.scan text).length = (Token.scan (names.text text)).length := by
    simpa using (congrArg List.length lexemes).symm
  refine List.forall₂_iff_get.mpr ⟨length, fun place inside insideToo => ?_⟩
  have front : ((Token.scan (names.text text)).take place).map Token.lexeme =
      (((Token.scan text).take place).map Token.lexeme).map names.lexeme := by
    rw [List.map_take, lexemes, List.map_take, List.map_take]
  constructor
  · have here := congrArg (fun lexemes => lexemes[place]?) lexemes
    simpa [insideToo, inside] using here
  · -- a token stands behind as many line feeds as there are in front of it
    have split (tokens : List Token) (inside : place < tokens.length) :
        tokens = tokens.take place ++ tokens[place] :: tokens.drop (place + 1) := by
      rw [← List.drop_eq_getElem_cons inside, List.take_append_drop]
    rw [List.get_eq_getElem, List.get_eq_getElem, position_of_scan (split _ insideToo),
      position_of_scan (split _ inside), front, Position.behind, Position.behind]
    simp only
    rw [names.count_spelling]
    intro lexeme member name
    obtain ⟨token, found, rfl⟩ := List.mem_map.mp member
    exact Token.isName_of_mem_scan (List.mem_of_mem_take found) name

end Renaming

end Netlist
