import Netlist.Grammar.Element

set_option autoImplicit false

/-!
# Statements and programs

A statement is a heading, a colon, and elements up to a semicolon. Between elements any token is
passed over that neither opens one nor ends the list, so a comma there is a matter of taste. In the
list of wires a semicolon may also stand behind each wire: the list goes on if another one follows.
-/

namespace Netlist.Grammar

open Rule

variable {σ : Type} [Source σ]

inductive Turn (α : Type) where
  | ended
  | entry (value : α)
  | passed

def turn {α : Type} (element : Element σ α) : Rule σ (Turn α) := do
  let token <- next
  if token.kind = .semicolon then pure .ended
  else if token.kind = .endOfInput then
    fail (.unexpectedToken token Token.Kind.semicolon.describe)
  else if element.opens token.kind then do
    giveBack
    let value <- element.rule
    pure (.entry value)
  else pure .passed

theorem consumes_turn {α : Type} (element : Element σ α) : (turn element).Consumes := by
  intro cursor result last step
  obtain ⟨token, rest, before, after⟩ := bind_eq_ok step
  have given := next_eq_ok before
  split at after
  · rename_i semicolon
    simp only [pure_apply, Prod.mk.injEq] at after
    exact after.2 ▸ Cursor.unread_next_lt given (by simp [semicolon])
  · split at after
    · simp [fail] at after
    · rename_i goesOn
      split at after
      · obtain ⟨start, bound, after⟩ := unread_giveBack_le given after
        have smaller := element.consumes.bind fun value => neverGrows_pure (Turn.entry value)
        exact Nat.lt_of_lt_of_le (smaller _ _ _ after) bound
      · simp only [pure_apply, Prod.mk.injEq] at after
        exact after.2 ▸ Cursor.unread_next_lt given goesOn

def body {α : Type} (element : Element σ α) (found : Array α) : Rule σ (Array α) :=
  fun cursor =>
    match _ : turn element cursor with
    | (.ok .ended, rest) => (.ok found, rest)
    | (.ok (.entry value), rest) => body element (found.push value) rest
    | (.ok .passed, rest) => body element found rest
    | (.error diagnostic, rest) => (.error diagnostic, rest)
termination_by cursor => cursor.unread
decreasing_by all_goals exact consumes_turn element _ _ _ (by assumption)

theorem consumes_body {α : Type} (element : Element σ α) (found : Array α) :
    (body element found).Consumes := by
  intro cursor result last step
  fun_induction body element found cursor with
  | case1 found cursor rest turned =>
      simp only [Prod.mk.injEq] at step
      exact step.2 ▸ consumes_turn element _ _ _ turned
  | case2 found cursor value rest turned ih =>
      exact Nat.lt_trans (ih step) (consumes_turn element _ _ _ turned)
  | case3 found cursor rest turned ih =>
      exact Nat.lt_trans (ih step) (consumes_turn element _ _ _ turned)
  | case4 found cursor diagnostic rest turned => simp at step

/-- Adds to `found` the wires of one list after another, as long as a wire follows. -/
def wireLists (found : Array Wire) : Rule σ (Array Wire) :=
  fun cursor =>
    match _ : body wires found cursor with
    | (.error diagnostic, rest) => (.error diagnostic, rest)
    | (.ok found, rest) =>
        let ahead := rest.peek
        if opensWire ahead.1 then wireLists found ahead.2 else (.ok found, ahead.2)
termination_by cursor => cursor.unread
decreasing_by
  exact Nat.lt_of_le_of_lt (Cursor.unread_peek_le _) (consumes_body _ _ _ _ _ (by assumption))

def opening (heading : Heading) : Rule σ Unit := do
  note (.opening heading)
  let _ <- expect (.keyword heading)
  let _ <- expect .colon

def statement {α : Type} (heading : Heading) (entries : Rule σ (Array α)) : Rule σ (List α) := do
  opening heading
  let found <- entries
  note (.completed heading found.size)
  pure found.toList

def inputStatement : Rule σ (List Port) :=
  statement .inputs (body ports #[])

def outputStatement : Rule σ (List Port) :=
  statement .outputs (body ports #[])

def partStatement : Rule σ (List Part) :=
  statement .parts (body parts #[])

def wireStatement : Rule σ (List Wire) :=
  statement .wires (wireLists #[])

def program : Rule σ Program := do
  let inputs <- inputStatement
  let outputs <- outputStatement
  let parts <- partStatement
  let wires <- wireStatement
  pure { inputs, outputs, parts, wires }

end Netlist.Grammar
