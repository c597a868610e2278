import Netlist.Proofs.Guarded.Outcome
import Netlist.Proofs.Lexing.Mirror

set_option autoImplicit false

namespace Netlist

open Outcome (Meets meets_ok)

variable {σ : Type} [Supply σ]

def Lexer.remaining (lexer : Lexer σ) : Option Nat :=
  (Supply.bound lexer.source).map (· + lexer.held.toList.length)

structure Checked (σ : Type) where
  lexer : Lexer σ
  -- read last, so the only character that may be given back
  latest : Option Char := none

namespace Checked

def pull (lexer : Lexer σ) : Option Char × Lexer σ :=
  match Supply.pull lexer.source with
  | (.char c, source) => (some c, { lexer with source })
  | (.stop, source) => (none, { lexer with source })
  | (.failed fault, source) =>
      (none, { lexer with source, journal := lexer.journal.write (.sourceFailed fault) })

def read (checked : Checked σ) : Option Char × Checked σ :=
  match checked.lexer.held with
  | some c => (some c, { lexer := { checked.lexer with held := none }.advance c, latest := some c })
  | none =>
      match pull checked.lexer with
      | (some c, lexer) => (some c, { lexer := lexer.advance c, latest := some c })
      | (none, lexer) => (none, { lexer })

def giveBack (checked : Checked σ) (c : Char) : Outcome (Checked σ) :=
  if checked.lexer.held.isSome then some (.error .characterHeld)
  else if checked.latest ≠ some c then some (.error .characterUnread)
  else some (.ok { lexer := checked.lexer.giveBack c })

def extendRound (accept : Char -> Bool) :
    String × Checked σ -> Outcome (Round (String × Checked σ) (String × Checked σ))
  | (text, checked) =>
      match checked.read with
      | (none, rest) => some (.ok (.done (text, rest)))
      | (some c, rest) =>
          if accept c then some (.ok (.again (text.push c, rest)))
          else (rest.giveBack c).andThen fun rest => some (.ok (.done (text, rest)))

noncomputable def extend (accept : Char -> Bool) (text : String) (checked : Checked σ) :
    Outcome (String × Checked σ) :=
  Outcome.iterate (extendRound accept) (text, checked)

def accept (c : Char) (checked : Checked σ) : Outcome (Bool × Checked σ) :=
  match checked.read with
  | (none, rest) => some (.ok (false, rest))
  | (some found, rest) =>
      if found = c then some (.ok (true, rest))
      else (rest.giveBack found).andThen fun rest => some (.ok (false, rest))

def arrow (checked : Checked σ) : Outcome (Token.Kind × String × Checked σ) :=
  (checked.accept '>').andThen fun
    | (true, rest) => some (.ok (.arrow, "->", rest))
    | (false, rest) => some (.ok (.invalid, "-", rest))

noncomputable def comment (checked : Checked σ) : Outcome (Token.Kind × String × Checked σ) :=
  (checked.accept '/').andThen fun
    | (true, rest) =>
        (rest.extend (fun c => !Lexer.isLineFeed c) "//").andThen fun (text, rest) =>
          some (.ok (.comment, text, rest))
    | (false, rest) => some (.ok (.invalid, "/", rest))

noncomputable def run (accept : Char -> Bool) (kind : String -> Token.Kind) (first : Char)
    (checked : Checked σ) : Outcome (Token.Kind × String × Checked σ) :=
  (checked.extend accept (String.singleton first)).andThen fun (text, rest) =>
    some (.ok (kind text, text, rest))

noncomputable def lexeme (first : Char) (checked : Checked σ) :
    Outcome (Token.Kind × String × Checked σ) :=
  if Lexer.isBlank first then checked.run Lexer.isBlank (fun _ => .blank) first
  else if Lexer.isLineFeed first then checked.run Lexer.isLineFeed (fun _ => .newline) first
  else if first.isDigit then checked.run Char.isDigit (fun _ => .digits) first
  else if first.isAlpha then checked.run Char.isAlphanum .ofWord first
  else if first = '-' then checked.arrow
  else if first = '/' then checked.comment
  else some (.ok ((Lexer.delimiter? first).getD .invalid, String.singleton first, checked))

noncomputable def next (lexer : Lexer σ) : Outcome (Token × Lexer σ) :=
  match ({ lexer } : Checked σ).read with
  | (none, rest) =>
      some (.ok ({ kind := .endOfInput, text := "", position := lexer.position }, rest.lexer))
  | (some first, rest) =>
      (rest.lexeme first).andThen fun (kind, text, rest) =>
        some (.ok ({ kind, text, position := lexer.position }, rest.lexer))

theorem pull_of_source {source : Source σ} (same : Supply.Is source) (lexer : Lexer σ) :
    lexer.pull = pull lexer := by
  unfold Supply.Is at same
  subst same
  rfl

theorem spends_pull (lexer : Lexer σ) :
    (pull lexer).2.held = lexer.held ∧ Spends (pull lexer).1.toList.length
      (Supply.bound lexer.source) (Supply.bound (pull lexer).2.source) := by
  have spends := Supply.spends_pull lexer.source
  unfold pull
  split <;> rename_i step <;> rw [step] at spends <;> exact ⟨rfl, spends⟩

theorem read_of_source {source : Source σ} (same : Supply.Is source) (checked : Checked σ) :
    checked.lexer.read = (checked.read.1, checked.read.2.lexer) := by
  unfold read Lexer.read
  cases checked.lexer.held with
  | some c => rfl
  | none =>
      rw [pull_of_source same]
      rcases pull checked.lexer with ⟨c | _, lexer⟩ <;> rfl

theorem spends_read (checked : Checked σ) :
    Spends checked.read.1.toList.length checked.lexer.remaining checked.read.2.lexer.remaining := by
  unfold read Lexer.remaining
  cases held : checked.lexer.held with
  | some c => exact (Spends.refl _).add 1 0 (by simp)
  | none =>
      obtain ⟨same, spends⟩ := spends_pull checked.lexer
      rw [held] at same
      rcases step : pull checked.lexer with ⟨c | _, lexer⟩ <;> rw [step] at same spends <;>
        exact spends.add 0 _ (by simp_all [Lexer.advance])

variable {checked rest : Checked σ} {c : Char}

theorem held_of_read (step : checked.read = (some c, rest)) :
    rest.lexer.held = none ∧ rest.latest = some c := by
  have same := (spends_pull checked.lexer).1
  unfold read at step
  split at step
  · obtain ⟨⟨⟩, rfl⟩ := Prod.mk.inj step
    exact ⟨rfl, rfl⟩
  · rename_i held
    split at step <;> rename_i pulled
    · obtain ⟨⟨⟩, rfl⟩ := Prod.mk.inj step
      rw [pulled, held] at same
      exact ⟨same, rfl⟩
    · simp at step

theorem giveBack_of_read (step : checked.read = (some c, rest)) :
    rest.giveBack c = some (.ok { lexer := rest.lexer.giveBack c }) ∧
      Spends 0 checked.lexer.remaining (rest.lexer.giveBack c).remaining := by
  obtain ⟨held, latest⟩ := held_of_read step
  have spends := checked.spends_read
  rw [step] at spends
  have again : (rest.lexer.giveBack c).remaining = rest.lexer.remaining.map (· + 1) := by
    simp [Lexer.remaining, Lexer.giveBack, held]
  exact ⟨by simp [giveBack, held, latest], again ▸ spends.putBack⟩

/-- All of a text but its first `given` characters was read on the way from `checked` to `rest`. -/
def Draws (given : Nat) (text : String) (checked rest : Checked σ) : Prop :=
  exists more, text.length = given + more ∧
    Spends more checked.lexer.remaining rest.lexer.remaining

theorem meets_extend (accept : Char -> Bool) (text : String) (checked : Checked σ) :
    Meets checked.lexer.remaining.isSome
      (fun found => Draws text.length found.1 checked found.2 ∧
        ∀ source : Source σ, Supply.Is source ->
          checked.lexer.extend accept text = (found.1, found.2.lexer))
      (checked.extend accept text) := by
  let good (state found : String × Checked σ) : Prop :=
    Draws state.1.length found.1 state.2 found.2 ∧ ∀ source : Source σ, Supply.Is source ->
      state.2.lexer.extend accept state.1 = (found.1, found.2.lexer)
  let left (state : String × Checked σ) := state.2.lexer.remaining
  have rounds (state : String × Checked σ) (_ : True) :
      Meets (left state).isSome (Outcome.Turns (fun _ => True) left good state)
        (extendRound accept state) := by
    obtain ⟨text, checked⟩ := state
    have spends := checked.spends_read
    have read (source : Source σ) (same : Supply.Is source) := read_of_source same checked
    simp only [extendRound]
    rcases reading : checked.read with ⟨_ | c, rest⟩ <;> rw [reading] at spends read
    · exact meets_ok ⟨⟨0, rfl, spends⟩, fun source same =>
        Lexer.extend_of_none accept text (read source same)⟩
    · by_cases accepted : accept c
      · simp only [accepted, if_true]
        refine meets_ok ⟨trivial, spends, fun found ⟨⟨more, longer, further⟩, told⟩ =>
          ⟨⟨1 + more, ?_, spends.trans further⟩, fun source same => ?_⟩⟩
        · rw [longer, String.length_push, Nat.add_assoc]
        · rw [Lexer.extend_of_some accept text (read source same), if_pos accepted,
            told source same]
      · obtain ⟨back, again⟩ := giveBack_of_read reading
        simp only [accepted, Bool.false_eq_true, if_false, back, Outcome.andThen]
        exact meets_ok ⟨⟨0, rfl, again⟩, fun source same => by
          rw [Lexer.extend_of_some accept text (read source same), if_neg accepted]⟩
  exact Outcome.meets_iterate rounds (text, checked) trivial

theorem meets_accept (ends : Prop) (c : Char) (checked : Checked σ) :
    Meets ends
      (fun found => Spends found.1.toNat checked.lexer.remaining found.2.lexer.remaining ∧
        ∀ source : Source σ, Supply.Is source ->
          checked.lexer.accept c = (found.1, found.2.lexer))
      (checked.accept c) := by
  have spends := checked.spends_read
  have read (source : Source σ) (same : Supply.Is source) := read_of_source same checked
  unfold accept Lexer.accept
  rcases reading : checked.read with ⟨_ | found, rest⟩ <;> rw [reading] at spends read
  · exact meets_ok ⟨spends, fun source same => by rw [read source same]⟩
  · by_cases wanted : found = c
    · simp only [wanted, if_true]
      exact meets_ok ⟨spends, fun source same => by simp [read source same, wanted]⟩
    · obtain ⟨back, again⟩ := giveBack_of_read reading
      simp only [wanted, if_false, back, Outcome.andThen]
      exact meets_ok ⟨again, fun source same => by simp [read source same, wanted]⟩

theorem meets_arrow (ends : Prop) (checked : Checked σ) :
    Meets ends
      (fun found => Draws 1 found.2.1 checked found.2.2 ∧
        ∀ source : Source σ, Supply.Is source ->
          checked.lexer.arrow = (found.1, found.2.1, found.2.2.lexer))
      checked.arrow := by
  refine (meets_accept ends '>' checked).andThen fun found ⟨spends, told⟩ => ?_
  unfold Lexer.arrow
  obtain ⟨_ | _, rest⟩ := found
  · exact meets_ok ⟨⟨0, (by decide : "-".length = 1), spends⟩, fun source same => by
      rw [told source same]⟩
  · exact meets_ok ⟨⟨1, (by decide : "->".length = 2), spends⟩, fun source same => by
      rw [told source same]⟩

theorem meets_comment (checked : Checked σ) :
    Meets checked.lexer.remaining.isSome
      (fun found => Draws 1 found.2.1 checked found.2.2 ∧
        ∀ source : Source σ, Supply.Is source ->
          checked.lexer.comment = (found.1, found.2.1, found.2.2.lexer))
      checked.comment := by
  refine (meets_accept _ '/' checked).andThen fun found ⟨spends, told⟩ => ?_
  unfold Lexer.comment
  obtain ⟨_ | _, rest⟩ := found
  · exact meets_ok ⟨⟨0, (by decide : "/".length = 1), spends⟩, fun source same => by
      rw [told source same]⟩
  · refine ((meets_extend _ "//" rest).mono spends.isSome).andThen
      fun found ⟨⟨more, longer, further⟩, extended⟩ => meets_ok ⟨⟨1 + more, ?_, ?_⟩, ?_⟩
    · rw [longer, show "//".length = 1 + 1 by decide, Nat.add_assoc]
    · exact spends.trans further
    · intro source same
      simp only [told source same, extended source same]

theorem meets_run (accept : Char -> Bool) (kind : String -> Token.Kind) (first : Char)
    (checked : Checked σ) :
    Meets checked.lexer.remaining.isSome
      (fun found => Draws 1 found.2.1 checked found.2.2 ∧
        ∀ source : Source σ, Supply.Is source ->
          let word := checked.lexer.extend accept (String.singleton first)
          (kind word.1, word.1, word.2) = (found.1, found.2.1, found.2.2.lexer))
      (checked.run accept kind first) :=
  (meets_extend accept (String.singleton first) checked).andThen fun found ⟨draws, told⟩ =>
    meets_ok ⟨by simpa using draws, fun source same => by rw [told source same]⟩

theorem meets_lexeme (first : Char) (checked : Checked σ) :
    Meets checked.lexer.remaining.isSome
      (fun found => Draws 1 found.2.1 checked found.2.2 ∧
        ∀ source : Source σ, Supply.Is source ->
          checked.lexer.lexeme first = (found.1, found.2.1, found.2.2.lexer))
      (checked.lexeme first) := by
  unfold lexeme
  simp only [Lexer.lexeme]
  split_ifs
  · exact meets_run Lexer.isBlank (fun _ => .blank) first checked
  · exact meets_run Lexer.isLineFeed (fun _ => .newline) first checked
  · exact meets_run Char.isDigit (fun _ => .digits) first checked
  · exact meets_run Char.isAlphanum .ofWord first checked
  · exact meets_arrow _ checked
  · exact meets_comment checked
  · exact meets_ok ⟨⟨0, by simp, .refl _⟩, fun _ _ => rfl⟩

theorem meets_next (lexer : Lexer σ) :
    Meets lexer.remaining.isSome
      (fun found => (found.1.kind ≠ .endOfInput -> found.1.text ≠ "") ∧
        Spends found.1.text.length lexer.remaining found.2.remaining ∧
        ∀ source : Source σ, Supply.Is source -> lexer.next = found)
      (next lexer) := by
  have spends := ({ lexer } : Checked σ).spends_read
  have read (source : Source σ) (same : Supply.Is source) : lexer.read = _ :=
    read_of_source same { lexer }
  unfold next Lexer.next
  rcases reading : ({ lexer } : Checked σ).read with ⟨_ | first, rest⟩ <;>
    rw [reading] at spends read
  · exact meets_ok ⟨fun goesOn => absurd rfl goesOn, spends, fun source same => by
      rw [read source same]⟩
  · refine ((meets_lexeme first rest).mono spends.isSome).andThen
      fun found ⟨⟨more, longer, further⟩, told⟩ => meets_ok ⟨fun _ empty => ?_, ?_, ?_⟩
    · have none' : found.2.1 = "" := empty
      rw [none', String.length_empty] at longer
      omega
    · exact longer ▸ spends.trans further
    · intro source same
      rw [read source same]
      simp only [told source same]

end Checked

end Netlist
