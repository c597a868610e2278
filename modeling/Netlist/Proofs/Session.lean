import Netlist.Proofs.Refinement.Statement

set_option autoImplicit false

namespace Netlist

inductive Call where
  | statement (heading : Heading)
  | program

inductive Answer where
  | statement (statement : Statement)
  | program (program : Program)

namespace Call

section Rule

variable {σ : Type} [Source σ]

def rule : Call -> Rule σ Answer
  | .statement .inputs => Grammar.inputStatement >>= fun entries => pure (.statement (.inputs entries))
  | .statement .outputs =>
      Grammar.outputStatement >>= fun entries => pure (.statement (.outputs entries))
  | .statement .parts => Grammar.partStatement >>= fun entries => pure (.statement (.parts entries))
  | .statement .wires => Grammar.wireStatement >>= fun entries => pure (.statement (.wires entries))
  | .program => Grammar.program >>= fun program => pure (.program program)

end Rule

def plain : Call -> Plain Answer
  | .statement .inputs => Plain.inputStatement >>= fun entries => pure (.statement (.inputs entries))
  | .statement .outputs =>
      Plain.outputStatement >>= fun entries => pure (.statement (.outputs entries))
  | .statement .parts => Plain.partStatement >>= fun entries => pure (.statement (.parts entries))
  | .statement .wires => Plain.wireStatement >>= fun entries => pure (.statement (.wires entries))
  | .program => Plain.program >>= fun program => pure (.program program)

def Stops (tape : Tape) (place : Nat) (outcome : Except Diagnostic Answer × Nat) : Call -> Prop
  | .statement .wires | .program => Plain.Ends tape place outcome
  | .statement _ => Plain.Closes tape place outcome

theorem stops_plain (call : Call) (tape : Tape) (place : Nat) :
    call.Stops tape place (call.plain tape place) := by
  match call with
  | .statement .inputs => exact (Plain.closes_statement .inputs Plain.ports tape place).bind_pure _
  | .statement .outputs => exact (Plain.closes_statement .outputs Plain.ports tape place).bind_pure _
  | .statement .parts => exact (Plain.closes_statement .parts Plain.parts tape place).bind_pure _
  | .statement .wires => exact (Plain.ends_wireStatement tape place).bind_pure _
  | .program => exact (Plain.ends_program tape place).bind_pure _

variable {σ : Type} [Source σ] {start : Lexer σ} {tape : Tape}

theorem simulates_rule (describes : ∀ place, start.token place = tape.get place) (call : Call) :
    Rule.Simulates start tape (Cursor.At start) (Cursor.At start) call.rule call.plain := by
  match call with
  | .statement .inputs =>
      exact (Rule.simulates_inputStatement describes).bind fun _ _ _ past => .ok (.inl past)
  | .statement .outputs =>
      exact (Rule.simulates_outputStatement describes).bind fun _ _ _ past => .ok (.inl past)
  | .statement .parts =>
      exact (Rule.simulates_partStatement describes).bind fun _ _ _ past => .ok (.inl past)
  | .statement .wires =>
      exact (Rule.simulates_wireStatement describes).bind fun _ _ _ peeked => .ok (.inr peeked)
  | .program =>
      exact (Rule.simulates_program describes).bind fun _ _ _ peeked => .ok (.inr peeked)

end Call

def Cursor.session {σ : Type} [Source σ] (cursor : Cursor σ) :
    List Call -> List (Except Diagnostic Answer × Cursor σ)
  | [] => []
  | call :: calls => call.rule cursor :: (call.rule cursor).2.session calls

/-- A session that a walk over a tape explains, call for call: the same result, and from there the
same tokens to come. -/
inductive Tape.Follows {σ : Type} [Source σ] (tape : Tape) :
    Nat -> List Call -> List (Except Diagnostic Answer × Cursor σ) -> Prop where
  | done {place : Nat} : Follows tape place [] []
  | call {place after : Nat} {call : Call} {result : Except Diagnostic Answer} {cursor : Cursor σ}
      {calls : List Call} {steps : List (Except Diagnostic Answer × Cursor σ)}
      (same : call.plain tape place = (result, after))
      (stops : call.Stops tape place (result, after))
      (ahead : ∀ count, cursor.ahead count = tape.get (after + count))
      (further : Follows tape after calls steps) :
      Follows tape place (call :: calls) ((result, cursor) :: steps)

variable {σ : Type} [Source σ] {start : Lexer σ} {tape : Tape}

theorem follows_of_at (describes : ∀ place, start.token place = tape.get place) {place : Nat}
    {cursor : Cursor σ} (stands : cursor.At start place) (calls : List Call) :
    tape.Follows place calls (cursor.session calls) := by
  -- a failure leaves the cursor at a place too, so the next call starts from one in any case
  induction calls generalizing place cursor with
  | nil => exact .done
  | cons call calls ih =>
      have agree := call.simulates_rule describes place cursor stands
      have stops := call.stops_plain tape place
      rw [Cursor.session]
      generalize outcome : call.plain tape place = plain at agree stops
      generalize call.rule cursor = step at agree
      cases agree with
      | ok stands =>
          refine .call outcome stops (fun count => ?_) (ih stands)
          rw [Cursor.ahead_of_at stands, describes]
      | error past =>
          refine .call outcome stops (fun count => ?_) (ih (.inl past))
          rw [Cursor.ahead_of_at (.inl past), describes]

theorem follows_session (text : String) (calls : List Call) :
    (Tape.ofText text).Follows 0 calls ((Cursor.ofSource (Feed.ofText text)).session calls) :=
  follows_of_at (Tape.describes_ofText text) (.inl (Cursor.past_ofSource _)) calls

end Netlist
