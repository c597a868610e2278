import Mathlib.Data.List.Induction
import Netlist.Proofs.Lexing.Text

set_option autoImplicit false

namespace Netlist

def Position.behind (text : List Char) : Position :=
  { line := text.count '\n' + 1
    column := (text.reverse.takeWhile fun c => c ≠ '\n').length + 1 }

theorem Position.foldl_after (text : List Char) :
    text.foldl Position.after {} = Position.behind text := by
  induction text using List.reverseRecOn with
  | nil => rfl
  | append_singleton text c ih =>
      rw [List.foldl_append, ih]
      by_cases feed : c = '\n' <;> simp [Position.after, Position.behind, feed]

theorem Position.foldl_after_cases (text : List Char) (position : Position) :
    position.line < (text.foldl after position).line ∨
      (text.foldl after position).line = position.line ∧
        (text.foldl after position).column = position.column + text.length := by
  induction text generalizing position with
  | nil => exact .inr ⟨rfl, rfl⟩
  | cons c text ih =>
      have further := ih (position.after c)
      rw [List.foldl_cons, List.length_cons]
      by_cases feed : c = '\n'
      · simp only [after, feed, if_true] at further ⊢
        omega
      · simp only [after, feed, if_false] at further ⊢
        omega

theorem Position.foldl_after_ne {text : List Char} (some' : text ≠ []) (position : Position) :
    text.foldl after position ≠ position := by
  have moved := foldl_after_cases text position
  have positive := List.length_pos_iff.mpr some'
  intro same
  rw [same] at moved
  omega

namespace Lexer

variable {σ : Type} [Source σ] {lexer rest : Lexer σ}

theorem position_pull (lexer : Lexer σ) : lexer.pull.2.position = lexer.position := by
  obtain ⟨source, journal, same⟩ := lexer.pull_snd
  rw [same]

theorem position_of_read_none (step : lexer.read = (none, rest)) :
    rest.position = lexer.position := by
  have pulled := lexer.position_pull
  unfold read at step
  split at step
  · simp at step
  · split at step <;> simp_all

theorem position_of_read_some {c : Char} (step : lexer.read = (some c, rest)) :
    rest.position = lexer.position.after c ∧ rest.previous = lexer.position := by
  have pulled := lexer.position_pull
  unfold read at step
  split at step
  · simp only [Prod.mk.injEq, Option.some.injEq] at step
    obtain ⟨rfl, rfl⟩ := step
    exact ⟨rfl, rfl⟩
  · split at step <;> simp only [Prod.mk.injEq, Option.some.injEq, reduceCtorEq, false_and] at step
    obtain ⟨rfl, rfl⟩ := step
    simp_all [advance]

theorem position_extend (accept : Char -> Bool) (text : String) (lexer : Lexer σ) :
    exists more, (extend accept text lexer).1.toList = text.toList ++ more ∧
      (extend accept text lexer).2.position = more.foldl Position.after lexer.position := by
  fun_induction extend accept text lexer with
  | case1 text lexer rest step => exact ⟨[], by simp, position_of_read_none step⟩
  | case2 text lexer c rest step accepted ih =>
      obtain ⟨more, word, position⟩ := ih
      refine ⟨c :: more, by simp [word], ?_⟩
      rw [position, (position_of_read_some step).1, List.foldl_cons]
  -- what was read too far is given back, and the place with it
  | case3 text lexer c rest step refused =>
      exact ⟨[], by simp, (position_of_read_some step).2⟩

theorem position_accept (c : Char) (lexer : Lexer σ) :
    (accept c lexer).2.position =
      if (accept c lexer).1 then lexer.position.after c else lexer.position := by
  unfold accept
  cases step : lexer.read with
  | mk found rest =>
      cases found with
      | none => exact position_of_read_none step
      | some d =>
          obtain ⟨position, previous⟩ := position_of_read_some step
          by_cases wanted : d = c <;> simp [wanted, position, previous, giveBack]

theorem position_lexeme (first : Char) (lexer : Lexer σ) :
    exists more, (lexer.lexeme first).2.1.toList = first :: more ∧
      (lexer.lexeme first).2.2.position = more.foldl Position.after lexer.position := by
  have run (accept : Char -> Bool) (kind : String -> Token.Kind) :
      let word := lexer.extend accept (String.singleton first)
      exists more, (kind word.1, word.1, word.2).2.1.toList = first :: more ∧
        (kind word.1, word.1, word.2).2.2.position = more.foldl Position.after lexer.position := by
    simpa using position_extend accept (String.singleton first) lexer
  have arrow := position_accept '>' lexer
  have slash := position_accept '/' lexer
  simp only [lexeme]
  split_ifs with blank feed digit letter dash slashed
  · exact run isBlank fun _ => .blank
  · exact run isLineFeed fun _ => .newline
  · exact run Char.isDigit fun _ => .digits
  · exact run Char.isAlphanum .ofWord
  · unfold Lexer.arrow
    split <;> rename_i step <;> simp only [step] at arrow
    · exact ⟨['>'], by simp [dash], arrow⟩
    · exact ⟨[], by simp [dash], arrow⟩
  · unfold comment
    split <;> rename_i step <;> simp only [step] at slash
    · rename_i after
      obtain ⟨more, word, position⟩ := position_extend (fun c => !isLineFeed c) "//" after
      refine ⟨'/' :: more, by simp [word, slashed], ?_⟩
      simp only [position, slash, if_true, List.foldl_cons]
    · exact ⟨[], by simp [slashed], slash⟩
  · exact ⟨[], by simp, rfl⟩

theorem position_next (lexer : Lexer σ) :
    lexer.next.1.position = lexer.position ∧
      lexer.next.2.position = lexer.next.1.text.toList.foldl Position.after lexer.position := by
  unfold next
  cases step : lexer.read with
  | mk found rest =>
      cases found with
      | none => exact ⟨rfl, position_of_read_none step⟩
      | some first =>
          obtain ⟨more, word, position⟩ := position_lexeme first rest
          refine ⟨rfl, ?_⟩
          simp only [word, position, (position_of_read_some step).1, List.foldl_cons]

theorem text_next_ne_nil {lexer : Lexer σ} (goesOn : lexer.next.1.kind ≠ .endOfInput) :
    lexer.next.1.text.toList ≠ [] := by
  unfold next at goesOn ⊢
  cases step : lexer.read with
  | mk found rest =>
      rw [step] at goesOn
      cases found with
      | none => exact absurd rfl goesOn
      | some first =>
          obtain ⟨more, word, -⟩ := position_lexeme first rest
          simp only [word]
          exact List.cons_ne_nil first more

def nexts : Nat -> Lexer σ -> List Token × Lexer σ
  | 0, lexer => ([], lexer)
  | count + 1, lexer =>
      let (token, rest) := lexer.next
      let (tokens, last) := nexts count rest
      (token :: tokens, last)

theorem nexts_succ (count : Nat) (lexer : Lexer σ) :
    lexer.nexts (count + 1) =
      (lexer.next.1 :: (lexer.next.2.nexts count).1, (lexer.next.2.nexts count).2) := rfl

theorem position_nexts (count : Nat) (lexer : Lexer σ) :
    (lexer.nexts count).2.position =
      (Lexeme.spelling ((lexer.nexts count).1.map Token.lexeme)).foldl Position.after
        lexer.position := by
  induction count generalizing lexer with
  | zero => rfl
  | succ count ih =>
      rw [nexts_succ, List.map_cons, Lexeme.spelling_cons, List.foldl_append, ih,
        lexer.position_next.2]
      rfl

theorem exists_of_mem_nexts {count : Nat} {lexer : Lexer σ} {token : Token}
    (member : token ∈ (lexer.nexts count).1) :
    exists text : List Char, token.position = text.foldl Position.after lexer.position := by
  induction count generalizing lexer with
  | zero => simp [nexts] at member
  | succ count ih =>
      rw [nexts_succ] at member
      cases member with
      | head => exact ⟨[], lexer.position_next.1⟩
      | tail _ later =>
          obtain ⟨text, position⟩ := ih later
          refine ⟨lexer.next.1.text.toList ++ text, ?_⟩
          rw [position, List.foldl_append, lexer.position_next.2]

theorem nodup_positions_nexts (count : Nat) (lexer : Lexer σ) :
    (((lexer.nexts count).1.filter fun token => token.kind ≠ .endOfInput).map
      Token.position).Nodup := by
  induction count generalizing lexer with
  | zero => exact List.nodup_nil
  | succ count ih =>
      rw [nexts_succ]
      by_cases ended : lexer.next.1.kind = .endOfInput
      · rw [List.filter_cons_of_neg (by simpa using ended)]
        exact ih lexer.next.2
      · rw [List.filter_cons_of_pos (by simpa using ended), List.map_cons, List.nodup_cons]
        refine ⟨fun again => ?_, ih lexer.next.2⟩
        obtain ⟨token, found, same⟩ := List.mem_map.mp again
        obtain ⟨text, position⟩ := exists_of_mem_nexts (List.mem_filter.mp found).1
        obtain ⟨here, moved⟩ := lexer.position_next
        rw [position, moved, here, ← List.foldl_append] at same
        exact Position.foldl_after_ne (by simp [text_next_ne_nil ended]) lexer.position same

theorem nexts_of_faces {lexer : Lexer Feed} {text : List Char} {finish : Position}
    (faces : lexer.Faces text finish) {tokens : List Token}
    (whole : lexer.tokens = tokens ++ [Token.ending finish]) (count : Nat) :
    (lexer.nexts count).1 = (tokens ++ List.replicate count (Token.ending finish)).take count := by
  induction count generalizing lexer text tokens with
  | zero => rfl
  | succ count ih =>
      rw [nexts_succ]
      cases text with
      | nil =>
          have step := next_of_faces_nil faces
          obtain rfl : tokens = [] := by simpa [tokens_of_end step rfl] using whole
          rw [step, ih faces whole]
          rfl
      | cons first text =>
          obtain ⟨after, step, further⟩ := next_of_faces_cons faces
          have goesOn := (Lexeme.spells_cut first text).ne_endOfInput
          rw [tokens_of_goesOn step goesOn] at whole
          cases tokens with
          | nil => simp [Token.ending, goesOn] at whole
          | cons token tokens =>
              rw [List.cons_append, List.cons.injEq] at whole
              obtain ⟨rfl, whole⟩ := whole
              have enough : (tokens ++ List.replicate (count + 1) (Token.ending finish)).take count =
                  (tokens ++ List.replicate count (Token.ending finish)).take count := by
                rw [List.replicate_succ', ← List.append_assoc,
                  List.take_append_of_le_length (by simp)]
              rw [step, ih further whole, List.cons_append, List.take_succ_cons, enough]

theorem nodup_positions_of_faces {lexer : Lexer Feed} {text : List Char} {finish : Position}
    (faces : lexer.Faces text finish) {tokens : List Token}
    (whole : lexer.tokens = tokens ++ [Token.ending finish])
    (lexemes : tokens.map Token.lexeme = Lexeme.ofText text) :
    (tokens.map Token.position).Nodup := by
  -- as many calls as there are tokens bring none but these
  have apart := nodup_positions_nexts tokens.length lexer
  rw [nexts_of_faces faces whole, List.take_left] at apart
  rwa [List.filter_eq_self.mpr fun token member => ?_] at apart
  have found : token.lexeme ∈ Lexeme.ofText text := lexemes ▸ List.mem_map_of_mem member
  exact decide_eq_true (Lexeme.spells_of_mem_ofText found).ne_endOfInput

theorem position_of_tokens {front back : List Token} {token : Token}
    (whole : lexer.tokens = front ++ token :: back) :
    token.position =
      (Lexeme.spelling (front.map Token.lexeme)).foldl Position.after lexer.position := by
  -- the tokens in front are given one by one, and each moves the lexer on
  induction front generalizing lexer with
  | nil =>
      have first : token = lexer.next.1 := by
        cases step : lexer.next with
        | mk found rest =>
            by_cases ended : found.kind = .endOfInput
            · simp_all [tokens_of_end step ended]
            · simp_all [tokens_of_goesOn step ended]
      rw [first, lexer.position_next.1]
      rfl
  | cons first front ih =>
      obtain ⟨position, moved⟩ := lexer.position_next
      cases step : lexer.next with
      | mk found rest =>
          by_cases ended : found.kind = .endOfInput
          · simp [tokens_of_end step ended] at whole
          · rw [tokens_of_goesOn step ended, List.cons_append, List.cons.injEq] at whole
            obtain ⟨rfl, whole⟩ := whole
            rw [step] at moved
            rw [ih whole, moved]
            simp [Lexeme.spelling, Token.lexeme]

end Lexer

theorem position_of_scan {text : String} {front back : List Token} {token : Token}
    (whole : Token.scan text = front ++ token :: back) :
    token.position = Position.behind (Lexeme.spelling (front.map Token.lexeme)) := by
  rw [Lexer.scan_eq_tokens] at whole
  rw [Lexer.position_of_tokens whole, Position.foldl_after]

end Netlist
