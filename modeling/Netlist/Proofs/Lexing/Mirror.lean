import Mathlib.Tactic.SplitIfs
import Netlist.Lexer

set_option autoImplicit false

/-!
# Lexers over sources that agree

Two sources agree when they bring the same characters and the same ends. Lexers over such sources
bring the same tokens. A fault that ends a source is an end, and all that is left of it is a record
in the journal; so the faults reported so far belong to what is compared, and no other record does.
Main statement: `mirrors_next`.
-/

namespace Netlist

def Record.fault? : Record -> Option Fault
  | .sourceFailed fault => some fault
  | _ => none

def Journal.faults (journal : Journal) : List Fault :=
  journal.latest.filterMap Record.fault?

def Pull.char? : Pull -> Option Char
  | .char c => some c
  | _ => none

abbrev Origin (σ : Type) : Type :=
  σ × List Fault

namespace Origin

variable {σ τ : Type} [Source σ] [Source τ]

def pull (origin : Origin σ) : Option Char × Origin σ :=
  match Source.pull origin.1 with
  | (.char c, source) => (some c, source, origin.2)
  | (.stop, source) => (none, source, origin.2)
  | (.failed fault, source) => (none, source, fault :: origin.2)

/-- Origins related by `same` agree on the next pull, and are still related behind it. -/
def Agree (same : Origin σ -> Origin τ -> Prop) : Prop :=
  forall left right, same left right ->
    left.pull.1 = right.pull.1 ∧ same left.pull.2 right.pull.2

theorem agree_eq : Agree (Eq : Origin σ -> Origin σ -> Prop) := by
  rintro left right rfl
  exact ⟨rfl, rfl⟩

end Origin

namespace Lexer

section State

variable {σ τ : Type}

def origin (lexer : Lexer σ) : Origin σ :=
  (lexer.source, lexer.journal.faults)

structure Mirrors (same : Origin σ -> Origin τ -> Prop) (left : Lexer σ) (right : Lexer τ) :
    Prop where
  origin : same left.origin right.origin
  held : left.held = right.held
  position : left.position = right.position
  previous : left.previous = right.previous

theorem Mirrors.refl (lexer : Lexer σ) : lexer.Mirrors Eq lexer :=
  ⟨rfl, rfl, rfl, rfl⟩

theorem Mirrors.trans {first second third : Lexer σ} (mirrors : first.Mirrors Eq second)
    (further : second.Mirrors Eq third) : first.Mirrors Eq third :=
  ⟨mirrors.origin.trans further.origin, mirrors.held.trans further.held,
    mirrors.position.trans further.position, mirrors.previous.trans further.previous⟩

theorem Mirrors.source {first second : Lexer σ} (mirrors : first.Mirrors Eq second) :
    first.source = second.source :=
  congrArg Prod.fst mirrors.origin

variable {same : Origin σ -> Origin τ -> Prop} {left : Lexer σ} {right : Lexer τ}

theorem Mirrors.advance (mirrors : left.Mirrors same right) (c : Char) :
    (left.advance c).Mirrors same (right.advance c) :=
  ⟨mirrors.origin, mirrors.held, congrArg (·.after c) mirrors.position, mirrors.position⟩

theorem Mirrors.giveBack (mirrors : left.Mirrors same right) (c : Char) :
    (left.giveBack c).Mirrors same (right.giveBack c) :=
  ⟨mirrors.origin, rfl, mirrors.previous, mirrors.previous⟩

end State

section Steps

variable {σ τ : Type} [Source σ] [Source τ]

theorem pull_fst (lexer : Lexer σ) : lexer.pull.1 = lexer.origin.pull.1 := by
  unfold pull Origin.pull origin
  simp only
  rcases Source.pull lexer.source with ⟨c | _ | fault, source⟩ <;> rfl

theorem origin_pull (lexer : Lexer σ) : lexer.pull.2.origin = lexer.origin.pull.2 := by
  unfold pull Origin.pull origin
  simp only
  rcases Source.pull lexer.source with ⟨c | _ | fault, source⟩ <;> rfl

theorem pull_snd (lexer : Lexer σ) :
    exists source journal, lexer.pull.2 = { lexer with source, journal } := by
  unfold pull
  split <;> exact ⟨_, _, rfl⟩

theorem extend_of_none (accept : Char -> Bool) (text : String) {lexer rest : Lexer σ}
    (step : lexer.read = (none, rest)) : extend accept text lexer = (text, rest) := by
  rw [extend]
  split <;> simp_all

theorem extend_of_some (accept : Char -> Bool) (text : String) {lexer rest : Lexer σ} {c : Char}
    (step : lexer.read = (some c, rest)) :
    extend accept text lexer =
      if accept c then extend accept (text.push c) rest else (text, rest.giveBack c) := by
  rw [extend]
  split <;> simp_all

variable {same : Origin σ -> Origin τ -> Prop} (agree : Origin.Agree same) {left : Lexer σ}
  {right : Lexer τ}

include agree

theorem mirrors_pull (mirrors : left.Mirrors same right) :
    exists after, right.pull = (left.pull.1, after) ∧ left.pull.2.Mirrors same after := by
  -- a pull leaves all but the source and the journal alone, so the other three fields carry over
  obtain ⟨sameChar, sameOrigin⟩ := agree _ _ mirrors.origin
  obtain ⟨_, _, leftRest⟩ := left.pull_snd
  obtain ⟨_, _, rightRest⟩ := right.pull_snd
  refine ⟨right.pull.2, Prod.ext ?_ rfl, ?_, ?_, ?_, ?_⟩
  · rw [pull_fst, pull_fst, sameChar]
  · rw [origin_pull, origin_pull]
    exact sameOrigin
  · rw [leftRest, rightRest]
    exact mirrors.held
  · rw [leftRest, rightRest]
    exact mirrors.position
  · rw [leftRest, rightRest]
    exact mirrors.previous

theorem mirrors_read (mirrors : left.Mirrors same right) :
    exists after, right.read = (left.read.1, after) ∧ left.read.2.Mirrors same after := by
  obtain ⟨after, pulled, further⟩ := mirrors_pull agree mirrors
  have sameHeld := mirrors.held
  unfold read
  cases held : left.held with
  | some c =>
      rw [← sameHeld, held]
      have emptied : Mirrors same { left with held := none } { right with held := none } :=
        ⟨mirrors.origin, rfl, mirrors.position, mirrors.previous⟩
      exact ⟨_, rfl, emptied.advance c⟩
  | none =>
      rw [← sameHeld, held, pulled]
      cases step : left.pull with
      | mk found rest =>
          rw [step] at further
          cases found with
          | none => exact ⟨_, rfl, further⟩
          | some c => exact ⟨_, rfl, further.advance c⟩

theorem mirrors_extend (accept : Char -> Bool) (text : String) (mirrors : left.Mirrors same right) :
    exists after, extend accept text right = ((extend accept text left).1, after) ∧
      (extend accept text left).2.Mirrors same after := by
  -- along the left lexer; each step finds the right one a step further
  fun_induction extend accept text left generalizing right with
  | case1 text left rest step =>
      obtain ⟨after, other, further⟩ := mirrors_read agree mirrors
      rw [step] at other further
      exact ⟨after, extend_of_none accept text other, further⟩
  | case2 text left c rest step accepted ih =>
      obtain ⟨after, other, further⟩ := mirrors_read agree mirrors
      rw [step] at other further
      rw [extend_of_some accept text other, if_pos accepted]
      exact ih further
  | case3 text left c rest step refused =>
      obtain ⟨after, other, further⟩ := mirrors_read agree mirrors
      rw [step] at other further
      rw [extend_of_some accept text other, if_neg refused]
      exact ⟨_, rfl, further.giveBack c⟩

theorem mirrors_accept (c : Char) (mirrors : left.Mirrors same right) :
    exists after, accept c right = ((accept c left).1, after) ∧
      (accept c left).2.Mirrors same after := by
  obtain ⟨after, other, further⟩ := mirrors_read agree mirrors
  unfold accept
  rw [other]
  cases step : left.read with
  | mk found rest =>
      rw [step] at further
      cases found with
      | none => exact ⟨_, rfl, further⟩
      | some d =>
          -- an unwanted character is given back on both sides
          by_cases wanted : d = c
          · exact ⟨after, by simp [wanted], by simpa [wanted] using further⟩
          · exact ⟨after.giveBack d, by simp [wanted], by simpa [wanted] using further.giveBack d⟩

theorem mirrors_arrow (mirrors : left.Mirrors same right) :
    exists after, right.arrow = (left.arrow.1, left.arrow.2.1, after) ∧
      left.arrow.2.2.Mirrors same after := by
  obtain ⟨after, other, further⟩ := mirrors_accept agree '>' mirrors
  unfold arrow
  rw [other]
  cases step : left.accept '>' with
  | mk found rest =>
      rw [step] at further
      cases found <;> exact ⟨_, rfl, further⟩

theorem mirrors_comment (mirrors : left.Mirrors same right) :
    exists after, right.comment = (left.comment.1, left.comment.2.1, after) ∧
      left.comment.2.2.Mirrors same after := by
  obtain ⟨after, other, further⟩ := mirrors_accept agree '/' mirrors
  unfold comment
  rw [other]
  cases step : left.accept '/' with
  | mk found rest =>
      rw [step] at further
      cases found with
      | false => exact ⟨_, rfl, further⟩
      | true =>
          obtain ⟨last, extended, furthest⟩ :=
            mirrors_extend agree (fun c => !isLineFeed c) "//" further
          exact ⟨last, by simp only [extended], furthest⟩

theorem mirrors_lexeme (first : Char) (mirrors : left.Mirrors same right) :
    exists after, right.lexeme first = ((left.lexeme first).1, (left.lexeme first).2.1, after) ∧
      (left.lexeme first).2.2.Mirrors same after := by
  -- what the four kinds that are runs of characters have in common
  have run (accept : Char -> Bool) (kind : String -> Token.Kind) :
      let mine := left.extend accept (String.singleton first)
      let other := right.extend accept (String.singleton first)
      exists after, (kind other.1, other.1, other.2) = (kind mine.1, mine.1, after) ∧
        mine.2.Mirrors same after := by
    obtain ⟨after, extended, further⟩ :=
      mirrors_extend agree accept (String.singleton first) mirrors
    exact ⟨after, by simp only [extended], further⟩
  simp only [lexeme]
  split_ifs
  · exact run isBlank fun _ => .blank
  · exact run isLineFeed fun _ => .newline
  · exact run Char.isDigit fun _ => .digits
  · exact run Char.isAlphanum .ofWord
  · exact mirrors_arrow agree mirrors
  · exact mirrors_comment agree mirrors
  · exact ⟨right, rfl, mirrors⟩

theorem mirrors_next (mirrors : left.Mirrors same right) :
    exists after, right.next = (left.next.1, after) ∧ left.next.2.Mirrors same after := by
  obtain ⟨after, other, further⟩ := mirrors_read agree mirrors
  unfold next
  rw [other, mirrors.position]
  cases step : left.read with
  | mk found rest =>
      rw [step] at further
      cases found with
      | none => exact ⟨_, rfl, further⟩
      | some first =>
          obtain ⟨last, cut, furthest⟩ := mirrors_lexeme agree first further
          exact ⟨last, by simp only [cut], furthest⟩

end Steps

end Lexer

end Netlist
