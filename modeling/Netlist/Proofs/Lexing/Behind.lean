import Netlist.Proofs.RoundTrip.Followed

set_option autoImplicit false

namespace Netlist

theorem Lexeme.isSignificant_of_spells {lexeme : Lexeme}
    (spells : Spells lexeme.kind lexeme.text.toList) :
    lexeme.isSignificant = !lexeme.kind.isLayout := by
  simp [isSignificant, Token.Kind.isSignificant_eq, spells.ne_endOfInput]

namespace Lexer

open Lexeme (isSignificant spelling Settled)

section Held

variable {σ : Type} [Source σ]

theorem held_read (lexer : Lexer σ) : lexer.read.2.held = none := by
  unfold read
  cases held : lexer.held with
  | some c => rfl
  | none =>
      have same := lexer.pull_size_le.2
      cases step : lexer.pull with
      | mk found rest =>
          rw [step, held] at same
          cases found <;> exact same

theorem lexeme_of_semicolon {first : Char} {lexer : Lexer σ}
    (semicolon : (lexer.lexeme first).1 = .semicolon) : (lexer.lexeme first).2.2 = lexer := by
  unfold lexeme at semicolon ⊢
  simp only at semicolon ⊢
  split_ifs at semicolon ⊢
  · unfold Token.Kind.ofWord at semicolon
    split at semicolon <;> simp at semicolon
  · unfold arrow at semicolon
    split at semicolon <;> simp at semicolon
  · unfold comment at semicolon
    split at semicolon <;> simp at semicolon
  · rfl

theorem held_next_of_semicolon {lexer : Lexer σ} (semicolon : lexer.next.1.kind = .semicolon) :
    lexer.next.2.held = none := by
  have held := lexer.held_read
  unfold next at semicolon ⊢
  cases step : lexer.read with
  | mk found rest =>
      rw [step] at semicolon held
      cases found with
      | none => exact held
      | some first =>
          simp only at semicolon ⊢
          rw [lexeme_of_semicolon semicolon]
          exact held

end Held

variable {lexer : Lexer Feed} {finish : Position}

theorem next_of_settled {lexeme : Lexeme} {text : List Char}
    (faces : lexer.Faces (lexeme.text.toList ++ text) finish)
    (spells : Lexeme.Spells lexeme.kind lexeme.text.toList)
    (stops : ∀ c ∈ text.head?, Lexeme.continues lexeme.kind lexeme.text.toList c = false) :
    lexer.next.1.lexeme = lexeme ∧ lexer.next.2.Faces text finish := by
  cases word : lexeme.text.toList with
  | nil => exact absurd word spells.ne_nil
  | cons first tail =>
      rw [word] at faces spells stops
      rw [List.cons_append] at faces
      obtain ⟨after, step, further⟩ := next_of_faces_cons faces
      rw [Lexeme.cut_of_spells spells stops, ← word, String.ofList_toList] at step
      rw [Lexeme.cut_of_spells spells stops] at further
      rw [step]
      exact ⟨rfl, further⟩

theorem after_succ_of_layout (layout : lexer.next.1.kind.isLayout) (count : Nat) :
    lexer.after (count + 1) = lexer.next.2.after (count + 1) := by
  have brought : lexer.next = (lexer.next.1, lexer.next.2) := rfl
  rw [after, after, nextMeant_of_layout brought layout]

theorem after_succ_of_meant (meant : ¬ lexer.next.1.kind.isLayout) (count : Nat) :
    lexer.after (count + 1) = lexer.next.2.after count := by
  have brought : lexer.next = (lexer.next.1, lexer.next.2) := rfl
  rw [after, nextMeant_of_meant brought meant]

theorem after_of_settled {front : List Lexeme} {lexeme : Lexeme} {text : List Char}
    (noLayout : ¬ lexeme.kind.isLayout) (settled : Settled (front ++ lexeme :: Lexeme.ofText text))
    (faces : lexer.Faces (spelling (front ++ [lexeme]) ++ text) finish) :
    exists before : Lexer Feed,
      lexer.after ((front.filter isSignificant).length + 1) = before.next.2 ∧
        before.next.1.lexeme = lexeme ∧ before.next.2.Faces text finish := by
  induction front generalizing lexer with
  | nil =>
      obtain ⟨spells, stops, -⟩ := Lexeme.settled_cons_iff.mp settled
      rw [Lexeme.spelling_ofText] at stops
      rw [List.nil_append, Lexeme.spelling_cons, Lexeme.spelling_nil, List.append_nil] at faces
      obtain ⟨same, further⟩ := next_of_settled faces spells stops
      rw [← same] at noLayout
      exact ⟨lexer, after_succ_of_meant noLayout 0, same, further⟩
  | cons next front ih =>
      rw [List.cons_append] at settled faces
      obtain ⟨spells, stops, later⟩ := Lexeme.settled_cons_iff.mp settled
      have behind : spelling (front ++ lexeme :: Lexeme.ofText text) =
          spelling (front ++ [lexeme]) ++ text := by
        rw [List.append_cons, Lexeme.spelling_append, Lexeme.spelling_ofText]
      rw [behind] at stops
      rw [Lexeme.spelling_cons, List.append_assoc] at faces
      obtain ⟨same, further⟩ := next_of_settled faces spells stops
      obtain ⟨before, last, given, left⟩ := ih later further
      refine ⟨before, ?_, given, left⟩
      -- a token counts as one step just if it is no layout
      have counts := Lexeme.isSignificant_of_spells spells
      have kind : lexer.next.1.kind = next.kind := congrArg Lexeme.kind same
      by_cases layout : next.kind.isLayout
      · rw [List.filter_cons_of_neg (by simp [counts, layout]),
          after_succ_of_layout (kind ▸ layout)]
        exact last
      · rw [List.filter_cons_of_pos (by simp [counts, layout]), List.length_cons,
          after_succ_of_meant (kind ▸ layout)]
        exact last

theorem after_semicolon {front : List Lexeme} {rest : String}
    (settled : Settled (front ++ [.mark .semicolon] ++ Lexeme.ofText rest.toList))
    (faces : lexer.Faces (spelling (front ++ [.mark .semicolon]) ++ rest.toList) finish) :
    let left := lexer.after ((front.filter isSignificant).length + 1)
    left.source = Feed.ofText rest ∧ left.held = none ∧ left.Faces rest.toList finish := by
  rw [← List.append_cons] at settled
  obtain ⟨before, last, given, left⟩ := after_of_settled (by decide) settled faces
  have held := held_next_of_semicolon (congrArg Lexeme.kind given)
  have upcoming := left.upcoming
  rw [held] at upcoming
  rw [last]
  exact ⟨congrArg Feed.mk upcoming, held, left⟩

theorem nextMeant_splits {text : List Char} (faces : lexer.Faces text finish) :
    exists skipped behind, lexer.tokens.map Token.lexeme =
        skipped ++ lexer.nextMeant.1.lexeme :: behind ∧
      (∀ lexeme ∈ skipped, lexeme.kind.isLayout) ∧
      lexer.nextMeant.2.Faces (spelling behind) finish := by
  fun_induction nextMeant lexer generalizing text with
  | case1 lexer token rest step layout ih =>
      cases text with
      | nil =>
          rw [next_of_faces_nil faces] at step
          rw [← (Prod.mk.inj step).1] at layout
          simp [Token.ending, Token.Kind.isLayout] at layout
      | cons first text =>
          obtain ⟨after, cut, further⟩ := next_of_faces_cons faces
          rw [step] at cut
          rw [← (Prod.mk.inj cut).2] at further
          obtain ⟨skipped, behind, whole, layouts, last⟩ := ih further
          refine ⟨token.lexeme :: skipped, behind, ?_,
            List.forall_mem_cons.mpr ⟨layout, layouts⟩, last⟩
          rw [tokens_of_goesOn step (Token.Kind.ne_endOfInput_of_isLayout layout), List.map_cons,
            whole, List.cons_append]
  | case2 lexer token rest step meant =>
      cases text with
      | nil =>
          rw [next_of_faces_nil faces] at step
          obtain ⟨rfl, rfl⟩ := Prod.mk.inj step
          refine ⟨[], [], ?_, by simp, faces⟩
          rw [tokens_of_end (next_of_faces_nil faces) rfl]
          rfl
      | cons first text =>
          obtain ⟨after, found, further⟩ := next_of_faces_cons faces
          rw [step] at found
          obtain ⟨rfl, rfl⟩ := Prod.mk.inj found
          have goesOn := (Lexeme.spells_cut first text).ne_endOfInput
          refine ⟨[], rest.tokens.map Token.lexeme, ?_, by simp, ?_⟩
          · rw [tokens_of_goesOn step goesOn]
            rfl
          · rw [tokens_eq_lexemes further, Lexeme.spelling_append, Lexeme.spelling_ofText]
            simpa [Lexeme.spelling, Token.ending, Token.lexeme] using further

end Lexer

end Netlist
