import Netlist.Proofs.Guarded.Grammar

set_option autoImplicit false

namespace Netlist

noncomputable def Checked.next? {σ : Type} [Supply σ] (stream : TokenStream σ) :
    Outcome (Option Token × TokenStream σ) :=
  if stream.finished then some (.ok (none, stream))
  else
    (next stream.lexer).andThen fun (token, lexer) =>
      some (.ok (some token, { lexer, finished := token.kind = .endOfInput }))

/-- A cursor as its owner may come by it: by calls that succeed or fail, and by doing anything at
all to the source between them. -/
inductive Cursor.Reached {σ : Type} [Supply σ] : Cursor σ -> Prop where
  | fresh (source : σ) : Reached { lexer := { source } }
  | called {cursor rest : Cursor σ} {call : Call} {result : Except Diagnostic Answer}
      (before : Reached cursor) (run : Guarded.call call cursor = some (.ok (result, rest))) :
      Reached rest
  | changed {cursor : Cursor σ} (change : σ -> σ) (before : Reached cursor) :
      Reached { cursor with lexer := { cursor.lexer with source := change cursor.lexer.source } }

open Outcome (Meets meets_ok)

section Supply

variable {σ : Type} [Supply σ]

theorem Checked.meets_next? (stream : TokenStream σ) :
    Meets stream.lexer.remaining.isSome
      (fun found => ∀ source : Source σ, Supply.Is source -> stream.next? = found)
      (next? stream) := by
  unfold next? TokenStream.next?
  by_cases finished : stream.finished
  · simp only [finished, if_true]
    exact meets_ok fun _ _ => rfl
  · simp only [finished, Bool.false_eq_true, if_false]
    exact (meets_next stream.lexer).andThen fun found ⟨_, _, told⟩ =>
      meets_ok fun source same => by rw [told source same]

theorem Cursor.Reached.sound {cursor : Cursor σ} (reached : cursor.Reached) : cursor.Sound := by
  induction reached with
  | fresh source => exact ⟨by simp, by simp⟩
  | called before run sound => exact ((Guarded.tracks_call _ _ sound).brings _ run).sound
  | changed change before sound => exact ⟨sound.last, sound.returned⟩

theorem Cursor.Reached.meets_call {cursor : Cursor σ} (reached : cursor.Reached) (call : Call) :
    Meets cursor.remaining.isSome
      (fun step => ∀ source : Source σ, Supply.Is source -> call.rule cursor = step)
      (Guarded.call call cursor) :=
  (Guarded.tracks_call call cursor reached.sound).weaken fun _ brings => brings.same

theorem Outcome.Meets.eq_of_source {α : Type} {ends : Prop} {expected : Source σ -> α}
    {outcome : Outcome α} {source : Source σ}
    (meets : Meets ends
      (fun found => ∀ source : Source σ, Supply.Is source -> expected source = found) outcome)
    (is : Supply.Is source) (ended : ends) : outcome = some (.ok (expected source)) := by
  obtain ⟨found, rfl, same⟩ := meets.exists_of_ends ended
  rw [same source is]

end Supply

section Source

variable {σ : Type} [Source σ]

theorem Cursor.Reached.call_eq {cursor : Cursor σ} (reached : cursor.Reached) (call : Call) :
    Guarded.call call cursor = some (.ok (call.rule cursor)) := by
  have run := (reached.meets_call call).eq_of_source rfl rfl
  exact run

theorem Checked.next_eq (lexer : Lexer σ) : next lexer = some (.ok lexer.next) := by
  have run := ((meets_next lexer).weaken fun _ found => found.2.2).eq_of_source rfl rfl
  exact run

theorem Checked.next?_eq (stream : TokenStream σ) : next? stream = some (.ok stream.next?) := by
  have run := (meets_next? stream).eq_of_source rfl rfl
  exact run

end Source

/-- No check ever fails, whatever is pulled from and whatever went before; and where there is a
bound on what can be pulled, a run under guard is the run itself. -/
theorem pushback_suffices :
    (∀ {σ : Type} [Supply σ] (lexer : Lexer σ) (breach : Breach),
      Checked.next lexer ≠ some (.error breach)) ∧
    (∀ {σ : Type} [Supply σ] (stream : TokenStream σ) (breach : Breach),
      Checked.next? stream ≠ some (.error breach)) ∧
    (∀ {σ : Type} [Supply σ] (cursor : Cursor σ), cursor.Reached ->
      ∀ (call : Call) (breach : Breach), Guarded.call call cursor ≠ some (.error breach)) ∧
    (∀ {σ : Type} [Source σ] (lexer : Lexer σ), Checked.next lexer = some (.ok lexer.next)) ∧
    (∀ {σ : Type} [Source σ] (stream : TokenStream σ),
      Checked.next? stream = some (.ok stream.next?)) ∧
    ∀ {σ : Type} [Source σ] (cursor : Cursor σ), cursor.Reached -> ∀ call : Call,
      Guarded.call call cursor = some (.ok (call.rule cursor)) := by
  refine ⟨fun lexer => (Checked.meets_next lexer).unbroken,
    fun stream => (Checked.meets_next? stream).unbroken,
    fun cursor reached call => (reached.meets_call call).unbroken, Checked.next_eq,
    Checked.next?_eq, fun cursor reached call => reached.call_eq call⟩

/-- A list of wires leaves the end behind it waiting, on which the next call fails; the one after
that reads what was put into the source meanwhile. -/
theorem pushback_suffices_refilled :
    let left := ((Call.statement .wires).rule (Cursor.ofSource (Feed.ofText "Wires:a->b;"))).2
    let refilled : Cursor Feed :=
      { left with lexer := { left.lexer with source := Feed.ofText "Inputs:c;" } }
    let failed := (Call.statement .inputs).rule refilled
    let run := Guarded.call (.statement .inputs) failed.2
    refilled.returned.isSome ∧ failed.1.isOk = false ∧ failed.2.Reached ∧
      run = some (.ok ((Call.statement .inputs).rule failed.2)) ∧
      ((Call.statement .inputs).rule failed.2).1.isOk ∧ ∀ breach, run ≠ some (.error breach) := by
  intro left refilled failed run
  have fresh : (Cursor.ofSource (Feed.ofText "Wires:a->b;")).Reached := .fresh _
  have wired : left.Reached := .called fresh (fresh.call_eq (.statement .wires))
  have changed : refilled.Reached := .changed (fun _ => Feed.ofText "Inputs:c;") wired
  have reached : failed.2.Reached := .called changed (changed.call_eq (.statement .inputs))
  obtain ⟨-, -, unbroken, -, -, same⟩ := pushback_suffices
  exact ⟨by decide +kernel, by decide +kernel, reached, same failed.2 reached _, by decide +kernel,
    unbroken failed.2 reached _⟩

end Netlist
