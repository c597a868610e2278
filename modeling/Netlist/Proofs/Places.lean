import Netlist.Proofs.Lexing.Recorded

set_option autoImplicit false

namespace Netlist

theorem Lexer.position_next_nexts {σ : Type} [Source σ] (source : σ) (count : Nat) :
    let given := ({ source } : Lexer σ).nexts count
    given.2.next.1.position = Position.behind (Lexeme.spelling (given.1.map Token.lexeme)) := by
  intro given
  rw [given.2.position_next.1, Lexer.position_nexts, Position.foldl_after]

/-- Whatever the source, the next token stands where the tokens given so far end, and no two of them
stand at the same place but for ends of input. Those of a text all stand behind its last character.
An iterator without an end may be pulled from as well, since no more of it matters than was
pulled. -/
theorem nexts_places :
    (∀ {σ : Type} [Source σ] (source : σ) (count : Nat),
      let given := ({ source } : Lexer σ).nexts count
      given.2.next.1.position = Position.behind (Lexeme.spelling (given.1.map Token.lexeme)) ∧
        ((given.1.filter fun token => token.kind ≠ .endOfInput).map Token.position).Nodup) ∧
    (∀ text : String, exists tokens,
      Token.scan text = tokens ++ [Token.ending (Position.behind text.toList)] ∧
        (tokens.map Token.position).Nodup ∧
        ∀ count, (({ source := Feed.ofText text } : Lexer Feed).nexts count).1 =
          (tokens ++ List.replicate count (Token.ending (Position.behind text.toList))).take
            count) ∧
    ∀ {σ : Type} (step : σ -> Option Char × σ) (state : σ) (limit count : Nat),
      let front : Front step := { state, left := limit }
      let given := ({ source := { source := front } } : Lexer (Recorded (Front step))).nexts count
      let pulled := given.2.next.2.source.pulled
      pulled.length ≤ limit ->
        pulled = Front.pulls step pulled.length state ∧
          given.2.next.1.position = Position.behind (Lexeme.spelling (given.1.map Token.lexeme)) ∧
          ((given.1.filter fun token => token.kind ≠ .endOfInput).map Token.position).Nodup := by
  refine ⟨fun source count =>
    ⟨Lexer.position_next_nexts source count, Lexer.nodup_positions_nexts count _⟩,
    fun text => ?_, ?_⟩
  · have faces := Lexer.faces_ofText text
    obtain ⟨tokens, whole, lexemes⟩ := Lexer.tokens_eq_append faces
    rw [Position.foldl_after] at faces whole
    have given := Lexer.nexts_of_faces faces whole
    exact ⟨tokens, (Lexer.scan_eq_tokens text).trans whole,
      Lexer.nodup_positions_of_faces faces whole lexemes, given⟩
  · intro σ step state limit count front given pulled within
    -- the call that gives the next token pulls within the limit too
    have genuine : Front.Genuine state limit given.2.next.2.source :=
      Lexer.keeps_nexts (fun _ => Front.Genuine.pull) (Front.genuine_nexts state limit count) 1
    exact ⟨genuine.pulled_eq within, Lexer.position_next_nexts _ count,
      Lexer.nodup_positions_nexts count _⟩

theorem nexts_places_endless :
    let step (place : Nat) := (some (if place % 3 = 2 then '\n' else 'a'), place + 1)
    let given := ({ source := { source := { state := 0, left := 9 } } } :
      Lexer (Recorded (Front step))).nexts 2
    given.2.next.2.source.pulled.length = 6 ∧
      given.2.next.2.source.pulled = Front.pulls step 6 0 ∧
      given.2.next.1.position = { line := 2, column := 1 } ∧
      ((given.1.filter fun token => token.kind ≠ .endOfInput).map Token.position).Nodup := by
  intro step given
  have length : given.2.next.2.source.pulled.length = 6 := by decide +kernel
  have spelled : Lexeme.spelling (given.1.map Token.lexeme) = ['a', 'a', '\n'] := by decide +kernel
  obtain ⟨own, position, apart⟩ := nexts_places.2.2 step 0 9 2 (length.trans_le (by decide))
  rw [spelled] at position
  exact ⟨length, length ▸ own, position, apart⟩

end Netlist
