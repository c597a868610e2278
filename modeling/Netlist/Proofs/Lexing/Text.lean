import Netlist.Proofs.Lexing.Lexeme
import Netlist.Proofs.Lexing.Significant

set_option autoImplicit false

namespace Netlist

def Token.ending (position : Position) : Token :=
  { kind := .endOfInput, text := "", position }

namespace Lexeme

def spelling (lexemes : List Lexeme) : List Char :=
  lexemes.flatMap fun lexeme => lexeme.text.toList

theorem spelling_nil : spelling [] = [] := rfl

theorem spelling_cons (lexeme : Lexeme) (lexemes : List Lexeme) :
    spelling (lexeme :: lexemes) = lexeme.text.toList ++ spelling lexemes := rfl

theorem spelling_append (lexemes rest : List Lexeme) :
    spelling (lexemes ++ rest) = spelling lexemes ++ spelling rest :=
  List.flatMap_append

def ofText : List Char -> List Lexeme
  | [] => []
  | first :: text =>
      { kind := (cut first text).1, text := String.ofList (cut first text).2.1 } ::
        ofText (cut first text).2.2
termination_by text => text.length
decreasing_by exact Nat.lt_succ_of_le (length_cut_le first text)

theorem spells_of_mem_ofText {text : List Char} {lexeme : Lexeme} (member : lexeme ∈ ofText text) :
    Spells lexeme.kind lexeme.text.toList := by
  fun_induction ofText text with
  | case1 => simp at member
  | case2 first text ih =>
      cases member with
      | head => simpa using spells_cut first text
      | tail _ member => exact ih member

/-- Every lexeme is complete where the next one begins. -/
inductive Settled : List Lexeme -> Prop where
  | nil : Settled []
  | cons {lexeme : Lexeme} {rest : List Lexeme} (spells : Spells lexeme.kind lexeme.text.toList)
      (stops : ∀ c ∈ (spelling rest).head?, continues lexeme.kind lexeme.text.toList c = false)
      (settled : Settled rest) : Settled (lexeme :: rest)

theorem settled_cons_iff {lexeme : Lexeme} {rest : List Lexeme} :
    Settled (lexeme :: rest) ↔ Spells lexeme.kind lexeme.text.toList ∧
      (∀ c ∈ (spelling rest).head?, continues lexeme.kind lexeme.text.toList c = false) ∧
      Settled rest := by
  constructor
  · intro settled
    cases settled with
    | cons spells stops settled => exact ⟨spells, stops, settled⟩
  · intro parts
    exact .cons parts.1 parts.2.1 parts.2.2

theorem ofText_append {lexeme : Lexeme} {text : List Char}
    (spells : Spells lexeme.kind lexeme.text.toList)
    (stops : ∀ c ∈ text.head?, continues lexeme.kind lexeme.text.toList c = false) :
    ofText (lexeme.text.toList ++ text) = lexeme :: ofText text := by
  cases word : lexeme.text.toList with
  | nil => exact absurd word spells.ne_nil
  | cons first tail =>
      rw [word] at spells stops
      have sameText : String.ofList (first :: tail) = lexeme.text := by
        rw [← word, String.ofList_toList]
      rw [List.cons_append, ofText, cut_of_spells spells stops, sameText]

theorem ofText_spelling {lexemes : List Lexeme} (settled : Settled lexemes) :
    ofText (spelling lexemes) = lexemes := by
  -- the lexeme in front is cut off first, since what follows does not make it longer
  induction settled with
  | nil => rw [spelling_nil, ofText]
  | cons spells stops settled ih => rw [spelling_cons, ofText_append spells stops, ih]

theorem head?_append_of_spells {lexeme : Lexeme}
    (spells : Spells lexeme.kind lexeme.text.toList) (text : List Char) :
    (lexeme.text.toList ++ text).head? = lexeme.text.toList.head? := by
  rw [List.head?_append]
  cases whole : lexeme.text.toList with
  | nil => exact absurd whole spells.ne_nil
  | cons first word => rfl

theorem head?_spelling_cons {lexeme : Lexeme} (spells : Spells lexeme.kind lexeme.text.toList)
    (rest : List Lexeme) : (spelling (lexeme :: rest)).head? = lexeme.text.toList.head? :=
  head?_append_of_spells spells (spelling rest)

theorem spelling_ofText (text : List Char) : spelling (ofText text) = text := by
  fun_induction ofText text with
  | case1 => rfl
  | case2 first text ih =>
      rw [spelling_cons, ih, String.toList_ofList, cut_append]

theorem settled_ofText (text : List Char) : Settled (ofText text) := by
  fun_induction ofText text with
  | case1 => exact .nil
  | case2 first text ih =>
      refine .cons (by simpa using spells_cut first text) ?_ ih
      simpa [spelling_ofText] using stops_cut first text

end Lexeme

namespace Lexer

open Lexeme (cut cutDash cutSlash)

/-- `text` is still to be read, and its end stands at `finish`. -/
structure Faces (lexer : Lexer Feed) (text : List Char) (finish : Position) : Prop where
  upcoming : lexer.held.toList.map some ++ lexer.source.events = text.map some
  finish : text.foldl Position.after lexer.position = finish

variable {lexer : Lexer Feed} {text : List Char} {finish : Position}

theorem faces_ofText (text : String) :
    Faces { source := Feed.ofText text } text.toList (text.toList.foldl Position.after {}) :=
  ⟨rfl, rfl⟩

theorem read_of_faces_nil (faces : lexer.Faces [] finish) : lexer.read = (none, lexer) := by
  obtain ⟨⟨events⟩, held, position, previous, journal⟩ := lexer
  obtain ⟨upcoming, -⟩ := faces
  cases held with
  | some c => simp at upcoming
  | none =>
      have noneLeft : events = [] := by simpa using upcoming
      subst noneLeft
      rfl

theorem read_of_faces_cons {c : Char} (faces : lexer.Faces (c :: text) finish) :
    exists after, lexer.read = (some c, after) ∧ after.Faces text finish ∧
      (after.giveBack c).Faces (c :: text) finish := by
  obtain ⟨⟨events⟩, held, position, previous, journal⟩ := lexer
  obtain ⟨upcoming, ending⟩ := faces
  cases held with
  | some d =>
      simp only [Option.toList_some, List.map_cons, List.map_nil, List.cons_append, List.nil_append,
        List.cons.injEq, Option.some.injEq] at upcoming
      -- the held character is the next one of the text
      obtain ⟨rfl, rest⟩ := upcoming
      refine ⟨_, rfl, ⟨rest, ending⟩, ?_⟩
      exact ⟨by simpa [giveBack, advance] using rest, ending⟩
  | none =>
      have rest : events = some c :: text.map some := by simpa using upcoming
      subst rest
      exact ⟨_, rfl, ⟨rfl, ending⟩, ⟨rfl, ending⟩⟩

theorem extend_of_faces (accept : Char -> Bool) (word : String)
    (faces : lexer.Faces text finish) :
    exists after,
      extend accept word lexer = (String.ofList (word.toList ++ text.takeWhile accept), after) ∧
        after.Faces (text.dropWhile accept) finish := by
  -- on the text, since it says how often the lexer is read
  induction text generalizing lexer word with
  | nil => exact ⟨lexer, by simp [extend_of_none accept word (read_of_faces_nil faces)], faces⟩
  | cons c rest ih =>
      obtain ⟨after, step, further, returned⟩ := read_of_faces_cons faces
      rw [extend_of_some accept word step]
      by_cases accepted : accept c
      · obtain ⟨last, extended, furthest⟩ := ih (word.push c) further
        refine ⟨last, ?_, by simpa [accepted] using furthest⟩
        rw [if_pos accepted, extended]
        simp [accepted]
      · refine ⟨after.giveBack c, ?_, by simpa [accepted] using returned⟩
        rw [if_neg accepted]
        simp [accepted]

theorem arrow_of_faces (faces : lexer.Faces text finish) :
    exists after,
      lexer.arrow = ((cutDash text).1, String.ofList (cutDash text).2.1, after) ∧
        after.Faces (cutDash text).2.2 finish := by
  cases text with
  | nil =>
      refine ⟨lexer, ?_, faces⟩
      simp [arrow, accept, read_of_faces_nil faces, cutDash]
  | cons c rest =>
      obtain ⟨after, step, further, returned⟩ := read_of_faces_cons faces
      -- the second character is read either way, and given back if it makes no arrow
      by_cases arrowed : c = '>'
      · subst arrowed
        exact ⟨after, by simp [arrow, accept, step, cutDash], further⟩
      · refine ⟨after.giveBack c, ?_, by simpa [Lexeme.cutDash_cons arrowed] using returned⟩
        simp [arrow, accept, step, arrowed, Lexeme.cutDash_cons arrowed]

theorem comment_of_faces (faces : lexer.Faces text finish) :
    exists after,
      lexer.comment = ((cutSlash text).1, String.ofList (cutSlash text).2.1, after) ∧
        after.Faces (cutSlash text).2.2 finish := by
  cases text with
  | nil =>
      refine ⟨lexer, ?_, faces⟩
      simp [comment, accept, read_of_faces_nil faces, cutSlash]
  | cons c rest =>
      obtain ⟨after, step, further, returned⟩ := read_of_faces_cons faces
      by_cases commented : c = '/'
      · subst commented
        obtain ⟨last, extended, furthest⟩ := extend_of_faces (fun c => !isLineFeed c) "//" further
        exact ⟨last, by simp [comment, accept, step, extended, cutSlash], furthest⟩
      · refine ⟨after.giveBack c, ?_, by simpa [Lexeme.cutSlash_cons commented] using returned⟩
        simp [comment, accept, step, commented, Lexeme.cutSlash_cons commented]

theorem lexeme_of_faces (first : Char) (faces : lexer.Faces text finish) :
    exists after,
      lexer.lexeme first = ((cut first text).1, String.ofList (cut first text).2.1, after) ∧
        after.Faces (cut first text).2.2 finish := by
  have run (accept : Char -> Bool) :
      exists after,
        extend accept (String.singleton first) lexer =
            (String.ofList (first :: text.takeWhile accept), after) ∧
          after.Faces (text.dropWhile accept) finish := by
    simpa using extend_of_faces accept (String.singleton first) faces
  unfold lexeme cut
  split_ifs
  · obtain ⟨after, extended, further⟩ := run isBlank
    exact ⟨after, by simp only [extended], further⟩
  · obtain ⟨after, extended, further⟩ := run isLineFeed
    exact ⟨after, by simp only [extended], further⟩
  · obtain ⟨after, extended, further⟩ := run Char.isDigit
    exact ⟨after, by simp only [extended], further⟩
  · obtain ⟨after, extended, further⟩ := run Char.isAlphanum
    exact ⟨after, by simp only [extended], further⟩
  · exact arrow_of_faces faces
  · exact comment_of_faces faces
  · exact ⟨lexer, by simp, faces⟩

theorem next_of_faces_nil (faces : lexer.Faces [] finish) :
    lexer.next = (Token.ending finish, lexer) := by
  simp [next, read_of_faces_nil faces, Token.ending, ← faces.finish]

theorem next_of_faces_cons {first : Char} (faces : lexer.Faces (first :: text) finish) :
    exists after,
      lexer.next =
          ({ kind := (cut first text).1, text := String.ofList (cut first text).2.1,
             position := lexer.position }, after) ∧
        after.Faces (cut first text).2.2 finish := by
  obtain ⟨middle, step, further, -⟩ := read_of_faces_cons faces
  obtain ⟨after, cut, furthest⟩ := lexeme_of_faces first further
  exact ⟨after, by simp [next, step, cut], furthest⟩

theorem tokens_eq_append (faces : lexer.Faces text finish) :
    exists tokens, lexer.tokens = tokens ++ [Token.ending finish] ∧
      tokens.map Token.lexeme = Lexeme.ofText text := by
  fun_induction Lexeme.ofText text generalizing lexer with
  | case1 => exact ⟨[], tokens_of_end (next_of_faces_nil faces) rfl, rfl⟩
  | case2 first text ih =>
      obtain ⟨after, step, further⟩ := next_of_faces_cons faces
      obtain ⟨tokens, rest, lexemes⟩ := ih further
      have goesOn := (Lexeme.spells_cut first text).ne_endOfInput
      refine ⟨_ :: tokens, (tokens_of_goesOn step goesOn).trans (congrArg _ rest), ?_⟩
      rw [List.map_cons, lexemes]
      rfl

theorem tokens_eq_lexemes (faces : lexer.Faces text finish) :
    lexer.tokens.map Token.lexeme = Lexeme.ofText text ++ [(Token.ending finish).lexeme] := by
  obtain ⟨tokens, whole, lexemes⟩ := tokens_eq_append faces
  simp [whole, lexemes]

theorem nextMeant_of_faces_nil (faces : lexer.Faces [] finish) :
    lexer.nextMeant = (Token.ending finish, lexer) :=
  nextMeant_of_meant (next_of_faces_nil faces) (by simp [Token.ending, Token.Kind.isLayout])

theorem nextMeant_of_faces (faces : lexer.Faces text finish) :
    exists rest, lexer.nextMeant.2.Faces rest finish ∧
      (lexer.nextMeant.1.kind = .endOfInput ->
        rest = [] ∧ lexer.nextMeant.1 = Token.ending finish) := by
  -- layout is cut off the text token by token; the end of the text is no layout
  fun_induction nextMeant lexer generalizing text with
  | case1 lexer token rest step layout ih =>
      cases text with
      | nil =>
          rw [next_of_faces_nil faces] at step
          rw [← (Prod.mk.inj step).1] at layout
          simp [Token.ending, Token.Kind.isLayout] at layout
      | cons first text =>
          obtain ⟨after, cut, further⟩ := next_of_faces_cons faces
          rw [step] at cut
          rw [← (Prod.mk.inj cut).2] at further
          exact ih further
  | case2 lexer token rest step meant =>
      cases text with
      | nil =>
          rw [next_of_faces_nil faces] at step
          obtain ⟨rfl, rfl⟩ := Prod.mk.inj step
          exact ⟨[], faces, fun _ => ⟨rfl, rfl⟩⟩
      | cons first text =>
          obtain ⟨after, found, further⟩ := next_of_faces_cons faces
          rw [step] at found
          obtain ⟨rfl, rfl⟩ := Prod.mk.inj found
          exact ⟨_, further, fun ended =>
            absurd ended (Lexeme.spells_cut first text).ne_endOfInput⟩

theorem token_of_faces_nil (faces : lexer.Faces [] finish) (number : Nat) :
    lexer.token number = Token.ending finish := by
  induction number with
  | zero => rw [token, after, nextMeant_of_faces_nil faces]
  | succ number ih => rw [token_succ, nextMeant_of_faces_nil faces, ih]

theorem token_eq_significant (faces : lexer.Faces text finish) (number : Nat) :
    lexer.token number = lexer.significant[number]?.getD (Token.ending finish) := by
  -- behind the end the same token comes again, so both cases ask whether it was met
  induction number generalizing lexer text with
  | zero =>
      obtain ⟨rest, further, atEnd⟩ := nextMeant_of_faces faces
      by_cases ended : lexer.nextMeant.1.kind = .endOfInput
      · rw [significant_of_end ended]
        exact (atEnd ended).2
      · rw [significant_cons ended]
        rfl
  | succ number ih =>
      obtain ⟨rest, further, atEnd⟩ := nextMeant_of_faces faces
      rw [token_succ]
      by_cases ended : lexer.nextMeant.1.kind = .endOfInput
      · rw [(atEnd ended).1] at further
        rw [significant_of_end ended, token_of_faces_nil further]
        rfl
      · rw [significant_cons ended, ih further]
        rfl

end Lexer

theorem Token.ne_endOfInput_of_mem_significant {text : String} {token : Token}
    (member : token ∈ Token.significant text) : token.kind ≠ .endOfInput := by
  exact (isSignificant_iff.mp (List.mem_filter.mp member).2).2

theorem Token.lexemes_scan (text : String) :
    (Token.scan text).map Token.lexeme =
      Lexeme.ofText text.toList ++ [{ kind := .endOfInput, text := "" }] := by
  rw [Lexer.scan_eq_tokens]
  exact Lexer.tokens_eq_lexemes (Lexer.faces_ofText text)

end Netlist
