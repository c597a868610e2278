import Netlist.Proofs.Diagnosis.Statement
import Netlist.Proofs.Language.Program
import Netlist.Proofs.Lexing.Place

set_option autoImplicit false

namespace Netlist

namespace Token

def counted (tokens : List Token) : List Lexeme :=
  (tokens.filter isSignificant).map lexeme

theorem counted_append (front back : List Token) :
    counted (front ++ back) = counted front ++ counted back := by
  simp [counted]

theorem counted_of_isSignificant {token : Token} (counts : token.isSignificant) :
    counted [token] = [token.lexeme] := by
  rw [counted, List.filter_cons_of_pos counts]
  rfl

theorem counted_scan (text : String) : counted (scan text) = Lexeme.meantOf text.toList :=
  lexemes_significant text

/-- `token` is no layout and stands behind the tokens in `front`. The end of input stands where the
text ends. -/
structure Stands (text : String) (front : List Token) (token : Token) : Prop where
  scanned : exists back, scan text = front ++ token :: back
  noLayout : token.kind ∉ [.blank, .newline, .comment]
  spelled : (Lexeme.spelling (front.map lexeme) ++ token.text.toList).IsPrefix text.toList
  position : token.position = Position.behind (Lexeme.spelling (front.map lexeme))
  ended : token.kind = .endOfInput ->
    token.text = "" ∧ Lexeme.spelling (front.map lexeme) = text.toList

theorem spelling_scan (text : String) :
    Lexeme.spelling ((scan text).map lexeme) = text.toList := by
  rw [lexemes_scan, Lexeme.spelling_append, Lexeme.spelling_ofText]
  exact List.append_nil _

theorem stands_of_scan {text : String} {front back : List Token} {token : Token}
    (scanned : scan text = front ++ token :: back)
    (noLayout : token.kind ∉ [.blank, .newline, .comment])
    (ended : token.kind = .endOfInput ->
      token.text = "" ∧ Lexeme.spelling (front.map lexeme) = text.toList) :
    Stands text front token := by
  refine ⟨⟨back, scanned⟩, noLayout, ⟨Lexeme.spelling (back.map lexeme), ?_⟩,
    position_of_scan scanned, ended⟩
  simp [← spelling_scan text, scanned, Lexeme.spelling_append, Lexeme.spelling_cons, lexeme]

theorem stands_of_le {text : String} {place : Nat} (inside : place ≤ (significant text).length) :
    exists front, Stands text front ((Tape.ofText text).get place) ∧
      counted front = (counted (scan text)).take place := by
  rcases Nat.lt_or_eq_of_le inside with further | rfl
  · have here : (Tape.ofText text).get place = (significant text)[place] := by
      rw [Tape.get, Tape.ofText, List.getElem?_eq_getElem further]
      rfl
    have split := List.take_append_drop place (significant text)
    rw [List.drop_eq_getElem_cons further] at split
    obtain ⟨front, back, scanned, counts, before, -⟩ := exists_of_filter split.symm
    rw [here]
    obtain ⟨noLayout, goesOn⟩ := isSignificant_iff.mp counts
    refine ⟨front, stands_of_scan scanned (Kind.not_isLayout_iff.mp noLayout)
      (fun ended => absurd ended goesOn), ?_⟩
    rw [counted, counted, before, List.map_take]
    rfl
  · obtain ⟨tokens, whole, lexemes⟩ := Lexer.tokens_eq_append (Lexer.faces_ofText text)
    rw [← Lexer.scan_eq_tokens] at whole
    have here : (Tape.ofText text).get (significant text).length = ending _ :=
      Tape.get_of_length_le (Nat.le_refl _)
    rw [here]
    refine ⟨tokens, stands_of_scan whole (by simp [ending])
      (fun _ => ⟨rfl, by rw [lexemes, Lexeme.spelling_ofText]⟩), ?_⟩
    rw [List.take_of_length_le (by simp [counted, significant]), counted, counted, whole,
      List.filter_append, List.filter_cons_of_neg (by simp [isSignificant_iff, ending]),
      List.filter_nil, List.append_nil]

end Token

def Begins (text : String) (lexemes : List Lexeme) : Prop :=
  lexemes.IsPrefix (Token.counted (Token.scan text))

def Viable (lexemes : List Lexeme) : Prop :=
  exists text program, Begins text lexemes ∧ Program.parse text = .ok program

theorem Token.Stands.begins {text : String} {front : List Token} {token : Token}
    (stands : Stands text front token) : Begins text (counted (front ++ [token])) := by
  obtain ⟨back, scanned⟩ := stands.scanned
  refine ⟨counted back, ?_⟩
  rw [← counted_append, List.append_assoc, List.singleton_append, scanned]

theorem Token.Stands.counts {text : String} {front : List Token} {token : Token}
    (stands : Stands text front token) (goesOn : token.kind ≠ .endOfInput) : token.isSignificant :=
  isSignificant_iff.mpr ⟨Kind.not_isLayout_iff.mpr stands.noLayout, goesOn⟩

theorem Token.Stands.counted_next {text : String} {front : List Token} {token : Token}
    (stands : Stands text front token) (goesOn : token.kind ≠ .endOfInput) :
    counted (front ++ [token]) = counted front ++ [token.lexeme] := by
  rw [counted_append, counted_of_isSignificant (stands.counts goesOn)]

theorem Token.Stands.eq_take {text : String} {front : List Token} {token : Token}
    (stands : Stands text front token) :
    front.length < (scan text).length ∧ front = (scan text).take front.length ∧
      (scan text)[front.length]? = some token := by
  obtain ⟨back, scanned⟩ := stands.scanned
  simp [scanned]

theorem Tape.shows_of_begins {text : String} {lexemes : List Lexeme}
    (begins : Begins text lexemes) : (ofText text).Shows 0 lexemes :=
  begins

theorem viable_of_mends {text : String} {passed : List Lexeme} (begins : Begins text passed)
    (mends : Plain.Mends (· = .endOfInput) (Tape.ofText text) 0 passed.length fun other =>
      Plain.program other 0) :
    Viable passed := by
  obtain ⟨ending, program, meantEnding, mends⟩ := mends
  have meant : Lexeme.Meant (passed ++ ending) := by
    refine Lexeme.meant_append.mpr ⟨fun lexeme member => ?_, meantEnding⟩
    have found := begins.subset member
    rw [Token.counted_scan] at found
    exact Lexeme.meant_meantOf _ lexeme found
  have whole := Token.counted_scan (String.ofList (Lexeme.spaced (passed ++ ending)))
  rw [String.toList_ofList, Lexeme.meantOf_spaced meant] at whole
  generalize String.ofList (Lexeme.spaced (passed ++ ending)) = other at whole
  -- the tape of the mended text has what was passed, the ending, and then nothing more
  have start : (Tape.ofText other).Shows 0 passed := ⟨ending, whole.symm⟩
  have behind : (Tape.ofText other).Shows passed.length ending := by
    have shown : (Tape.ofText other).Shows 0 (passed ++ ending) := ⟨[], by simp [← whole]; rfl⟩
    simpa using (Tape.shows_append.mp shown).2
  have ended : ((Tape.ofText other).get (passed.length + ending.length)).kind = .endOfInput := by
    have count : (Tape.ofText other).tokens.length = passed.length + ending.length := by
      rw [← List.length_append, ← whole, Token.counted, List.length_map]
      rfl
    rw [Tape.get_of_length_le (Nat.le_of_eq count)]
    rfl
  have alike := (Tape.shows_of_begins begins).alike start
  rw [Nat.zero_add] at alike
  obtain ⟨-, success⟩ := mends (Tape.ofText other) alike behind ended
  exact ⟨other, program, start, (parse_eq_ok_iff_plain other program).mpr ⟨_, success⟩⟩

/-- Every failure tells of a token of the text. What stands in front of it begins some program, and
with the token itself no text is a program, but fails in the same way. -/
theorem parse_error_culprit {text : String} {failure : Failure}
    (failed : Program.parse text = .error failure) :
    exists diagnostic front culprit, failure = .grammar diagnostic ∧ diagnostic.Blames culprit ∧
      culprit.Stands text front ∧ Viable (Token.counted front) ∧
      (culprit.kind ≠ .endOfInput -> ∀ other, Begins other (Token.counted (front ++ [culprit])) ->
        exists position, Program.parse other = .error (.grammar (diagnostic.moved position))) := by
  rw [parse_eq_plain] at failed
  have ends := Plain.ends_program (Tape.ofText text) 0
  have rests := Plain.steady_program (Tape.ofText text) 0
  generalize Plain.program (Tape.ofText text) 0 = outcome at failed ends rests
  cases rests with
  | ok forward inside again => simp [Except.mapError] at failed
  | @error diagnostic culprit forward inside again mends =>
      obtain ⟨place, -, same, blames⟩ := ends
      obtain rfl : culprit = place := Nat.succ.inj same
      have inside : culprit ≤ (Token.significant text).length := by simpa [Tape.ofText] using inside
      obtain ⟨front, stands, passed⟩ := Token.stands_of_le inside
      have begins : Begins text (Token.counted front) := passed ▸ List.take_prefix _ _
      have length : (Token.counted front).length = culprit := by
        rw [passed]
        exact List.length_take_of_le (by simpa [Token.counted, Token.significant] using inside)
      refine ⟨diagnostic, front, _, (Except.error.inj failed).symm, blames, stands,
        viable_of_mends begins (length.symm ▸ mends), fun goesOn other beginsToo => ?_⟩
      have next := stands.counted_next goesOn
      have alike := (Tape.shows_of_begins stands.begins).alike (Tape.shows_of_begins beginsToo)
      rw [next, List.length_append, length, List.length_singleton, Nat.zero_add] at alike
      refine ⟨((Tape.ofText other).get culprit).position, ?_⟩
      rw [parse_eq_plain, again (Tape.ofText other) alike]
      rfl

theorem parse_error_culprit_width :
    let text := "Inputs:\n a[b];"
    let diagnostic : Diagnostic := .unexpected "b" "digit" { line := 2, column := 4 }
    let passed : List Lexeme :=
      [.mark (.keyword .inputs), .mark .colon, .name "a", .mark .leftBracket]
    Program.parse text = .error (.grammar diagnostic) ∧
      exists front culprit, diagnostic.Blames culprit ∧ culprit.Stands text front ∧
        culprit.kind = .name ∧ Token.counted front = passed ∧ Viable passed ∧
        ∀ other, Begins other (Token.counted (front ++ [culprit])) ->
          exists position, Program.parse other = .error (.grammar (diagnostic.moved position)) := by
  intro text diagnostic passed
  have failed : Program.parse text = .error (.grammar diagnostic) := by decide +kernel
  obtain ⟨_, front, culprit, ⟨⟩, blames, stands, viable, again⟩ := parse_error_culprit failed
  -- only one token of the text reads like that
  have alone : ∀ place < (Token.scan text).length,
      (Token.scan text)[place]?.map Token.text = some "b" -> place = 6 := by decide +kernel
  obtain ⟨inside, front_eq, here⟩ := stands.eq_take
  have found : culprit.text = "b" := by
    obtain pin | ⟨expected, unexpected⟩ := blames
    · nomatch pin
    · exact (Diagnostic.unexpected.inj unexpected).1.symm
  have place : front.length = 6 := alone _ inside (by rw [here, Option.map_some, found])
  rw [place] at front_eq here
  have counted : Token.counted front = passed := by
    rw [front_eq]
    decide +kernel
  have name : culprit.kind = .name := by
    have kind : (Token.scan text)[6]?.map Token.kind = some .name := by decide +kernel
    rw [here] at kind
    exact Option.some.inj kind
  exact ⟨failed, front, culprit, blames, stands, name, counted, counted ▸ viable,
    again (by simp [name])⟩

end Netlist
