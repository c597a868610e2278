import Netlist.Proofs.Lexing.Insertion
import Netlist.Proofs.RoundTrip.Printed

set_option autoImplicit false

namespace Netlist

open Lexeme (isSignificant spelling Settled)

namespace Lexeme

theorem meantOf_eq_filter (text : List Char) : meantOf text = (ofText text).filter isSignificant := by
  have same := map_significant (String.ofList text)
  rwa [Token.lexemes_significant, String.toList_ofList] at same

theorem Settled.behind_semicolon {front back : List Lexeme}
    (settled : Settled (front ++ [.mark .semicolon] ++ back)) (text : List Char) :
    Settled (front ++ [.mark .semicolon] ++ ofText text) := by
  refine settled.replace (settled_ofText text) fun lexeme found c first => ?_
  rw [List.getLast?_concat, Option.mem_some_iff] at found
  -- no character makes a semicolon longer
  rw [← found]
  rfl

theorem meantOf_behind_semicolon {front back : List Lexeme}
    (settled : Settled (front ++ [.mark .semicolon] ++ back)) (text : List Char) :
    meantOf (spelling (front ++ [.mark .semicolon]) ++ text) =
      List.filter isSignificant (front ++ [.mark .semicolon]) ++ meantOf text := by
  have whole := ofText_spelling (settled.behind_semicolon text)
  rw [spelling_append, spelling_ofText] at whole
  rw [meantOf_eq_filter, whole, List.filter_append, ← meantOf_eq_filter]

end Lexeme

namespace Statement

theorem remaining_eq_append (groups : List (List Lexeme)) :
    exists front, remaining groups = front ++ [.mark .semicolon, .newline] := by
  induction groups with
  | nil => exact ⟨[], rfl⟩
  | cons group groups ih =>
      obtain ⟨front, whole⟩ := ih
      exact ⟨.mark .comma :: .blank :: group ++ front, by simp [remaining, whole]⟩

theorem lexemes_eq_append (statement : Statement) :
    exists front, statement.lexemes = front ++ [.mark .semicolon] ++ [.newline] := by
  unfold lexemes
  cases statement.entries with
  | nil => exact ⟨[.mark (.keyword statement.heading), .mark .colon], rfl⟩
  | cons group groups =>
      obtain ⟨front, whole⟩ := remaining_eq_append groups
      refine ⟨.mark (.keyword statement.heading) :: .mark .colon :: .blank :: group ++ front, ?_⟩
      simp [listing, whole]

theorem meantOf_render {statement : Statement} (wellFormed : statement.WellFormed)
    (text : List Char) :
    Lexeme.meantOf (statement.render.toList ++ text) =
      statement.lexemes.filter isSignificant ++ Lexeme.meantOf text := by
  obtain ⟨front, whole⟩ := statement.lexemes_eq_append
  have settled : Settled (statement.lexemes ++ []) :=
    settled_lexemes wellFormed.stable (by simp [Lexeme.spelling_nil]) .nil
  have spelled := statement.spelling_lexemes
  -- the line feed behind the semicolon is not part of the statement
  rw [whole, Lexeme.spelling_append, String.toList_append] at spelled
  rw [List.append_nil, whole] at settled
  have noMeaning : [Lexeme.newline].filter isSignificant = [] := rfl
  rw [← List.append_cancel_right spelled, Lexeme.meantOf_behind_semicolon settled, whole,
    List.filter_append (front ++ _), noMeaning, List.append_nil]

theorem meantOf_lines {statements : List Statement}
    (wellFormed : ∀ statement ∈ statements, statement.WellFormed) (text : List Char) :
    Lexeme.meantOf ((statements.flatMap fun statement => (statement.render ++ "\n").toList) ++ text) =
      (statements.flatMap lexemes).filter isSignificant ++ Lexeme.meantOf text := by
  induction statements with
  | nil => rfl
  | cons statement statements ih =>
      obtain ⟨here, others⟩ := List.forall_mem_cons.mp wellFormed
      have feed : "\n".toList = ['\n'] := rfl
      rw [List.flatMap_cons, List.flatMap_cons, String.toList_append, feed, List.append_assoc,
        List.append_assoc, meantOf_render here, List.singleton_append, Lexeme.meantOf_lineFeed,
        ih others, List.filter_append, List.append_assoc]

end Statement

namespace Program

variable {program : Program}

theorem meantOf_render (wellFormed : program.WellFormed) (text : List Char) :
    Lexeme.meantOf (program.render.toList ++ text) =
      program.lexemes.filter isSignificant ++ Lexeme.meantOf text := by
  rw [render, String.toList_join, List.flatMap_map, Statement.meantOf_lines wellFormed.statements,
    lexemes]

theorem wellFormed_of_parse {text : String} (parsed : Program.parse text = .ok program) :
    program.WellFormed := by
  rw [parse_eq_ok_iff_meantOf] at parsed
  exact parsed.wellFormed fun lexeme member => (Lexeme.meant_meantOf _ lexeme member).1

theorem parse_render (wellFormed : program.WellFormed) :
    Program.parse program.render = .ok program := by
  have whole := meantOf_render wellFormed []
  have nothing : Lexeme.meantOf [] = [] := by simp [Lexeme.meantOf, Lexeme.ofText]
  rw [nothing, List.append_nil, List.append_nil] at whole
  exact parse_eq_ok_of_written whole (written wellFormed)

end Program

end Netlist
