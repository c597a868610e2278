import Netlist.Cursor
import Netlist.Failure

set_option autoImplicit false

/-!
# Rules of the grammar

A rule moves a cursor over some tokens and yields what they say, or the diagnostic of the token
that it could not go on with. The cursor stays where it got to in either case, so that parsing can
go on behind a failure.

A list of elements can be read to its end because each of its elements is sure to use some text up;
`NeverGrows` and `Consumes` carry that from the single steps to whole rules.
-/

namespace Netlist

def Rule (σ α : Type) : Type :=
  Cursor σ -> Except Diagnostic α × Cursor σ

namespace Rule

variable {σ α β : Type}

instance : Monad (Rule σ) where
  pure value cursor := (.ok value, cursor)
  bind rule continuation cursor :=
    match rule cursor with
    | (.ok value, rest) => continuation value rest
    | (.error diagnostic, rest) => (.error diagnostic, rest)

theorem pure_apply (value : α) (cursor : Cursor σ) :
    (pure value : Rule σ α) cursor = (.ok value, cursor) := rfl

theorem bind_apply (rule : Rule σ α) (continuation : α -> Rule σ β) (cursor : Cursor σ) :
    (rule >>= continuation) cursor =
      match rule cursor with
      | (.ok value, rest) => continuation value rest
      | (.error diagnostic, rest) => (.error diagnostic, rest) := rfl

theorem bind_eq_ok {rule : Rule σ α} {continuation : α -> Rule σ β} {cursor rest : Cursor σ}
    {result : β} (step : (rule >>= continuation) cursor = (.ok result, rest)) :
    exists value middle, rule cursor = (.ok value, middle) ∧
      continuation value middle = (.ok result, rest) := by
  rw [bind_apply] at step
  split at step
  · rename_i value middle first
    exact ⟨value, middle, first, step⟩
  · simp at step

def fail (diagnostic : Diagnostic) : Rule σ α :=
  fun cursor => (.error diagnostic, cursor)

def note (record : Record) : Rule σ Unit :=
  fun cursor => (.ok (), cursor.note record)

variable [Source σ]

def next : Rule σ Token :=
  fun cursor =>
    let (token, rest) := cursor.next
    (.ok token, rest)

def giveBack : Rule σ Unit :=
  fun cursor => (.ok (), cursor.giveBack)

def expect (kind : Token.Kind) : Rule σ Token := do
  let token <- next
  if token.kind = kind then pure token
  else fail (.unexpectedToken token kind.describe)

/-- Goes on with the rule chosen by the next token, or takes that token back and yields `absent`
when it is none of this rule's business. -/
def lookahead (choose : Token.Kind -> Option (Rule σ α)) (absent : α) : Rule σ α := do
  let token <- next
  match choose token.kind with
  | some rule => rule
  | none => do
      giveBack
      pure absent

def NeverGrows (rule : Rule σ α) : Prop :=
  forall cursor value rest, rule cursor = (.ok value, rest) -> rest.unread ≤ cursor.unread

def Consumes (rule : Rule σ α) : Prop :=
  forall cursor value rest, rule cursor = (.ok value, rest) -> rest.unread < cursor.unread

theorem Consumes.neverGrows {rule : Rule σ α} (consumes : rule.Consumes) : rule.NeverGrows :=
  fun cursor value rest step => Nat.le_of_lt (consumes cursor value rest step)

theorem neverGrows_pure (value : α) : (pure value : Rule σ α).NeverGrows := by
  intro cursor result rest step
  simp only [pure_apply, Prod.mk.injEq] at step
  simp [step.2]

theorem neverGrows_fail (diagnostic : Diagnostic) :
    (fail diagnostic : Rule σ α).NeverGrows := by
  intro cursor result rest step
  simp [fail] at step

theorem next_eq_ok {cursor rest : Cursor σ} {token : Token}
    (step : (next : Rule σ Token) cursor = (.ok token, rest)) : cursor.next = (token, rest) := by
  simp only [next, Prod.mk.injEq, Except.ok.injEq] at step
  exact Prod.ext step.1 step.2

theorem neverGrows_next : (next : Rule σ Token).NeverGrows :=
  fun _ _ _ step => Cursor.unread_next_le (next_eq_ok step)

theorem unread_giveBack_le {cursor middle rest : Cursor σ} {token : Token} {result : α}
    {rule : Rule σ α} (given : cursor.next = (token, middle))
    (step : (giveBack >>= fun _ => rule) middle = (.ok result, rest)) :
    exists start, start.unread ≤ cursor.unread ∧ rule start = (.ok result, rest) :=
  ⟨middle.giveBack, Cursor.unread_giveBack_next_le given, step⟩

theorem NeverGrows.bind {rule : Rule σ α} {continuation : α -> Rule σ β}
    (first : rule.NeverGrows) (second : forall value, (continuation value).NeverGrows) :
    (rule >>= continuation).NeverGrows := by
  intro cursor result rest step
  obtain ⟨value, middle, before, after⟩ := bind_eq_ok step
  exact Nat.le_trans (second value _ _ _ after) (first _ _ _ before)

theorem Consumes.bind {rule : Rule σ α} {continuation : α -> Rule σ β}
    (first : rule.Consumes) (second : forall value, (continuation value).NeverGrows) :
    (rule >>= continuation).Consumes := by
  intro cursor result rest step
  obtain ⟨value, middle, before, after⟩ := bind_eq_ok step
  exact Nat.lt_of_le_of_lt (second value _ _ _ after) (first _ _ _ before)

theorem NeverGrows.bind_consumes {rule : Rule σ α} {continuation : α -> Rule σ β}
    (first : rule.NeverGrows) (second : forall value, (continuation value).Consumes) :
    (rule >>= continuation).Consumes := by
  intro cursor result rest step
  obtain ⟨value, middle, before, after⟩ := bind_eq_ok step
  exact Nat.lt_of_lt_of_le (second value _ _ _ after) (first _ _ _ before)

theorem consumes_expect {kind : Token.Kind} (goesOn : kind ≠ .endOfInput) :
    (expect kind : Rule σ Token).Consumes := by
  intro cursor token rest step
  obtain ⟨found, middle, before, after⟩ := bind_eq_ok step
  split at after
  · rename_i same
    simp only [pure_apply, Prod.mk.injEq] at after
    exact after.2 ▸ Cursor.unread_next_lt (next_eq_ok before) (same ▸ goesOn)
  · simp [fail] at after

theorem neverGrows_lookahead {choose : Token.Kind -> Option (Rule σ α)} {absent : α}
    (chosen : forall kind rule, choose kind = some rule -> rule.NeverGrows) :
    (lookahead choose absent).NeverGrows := by
  intro cursor value rest step
  obtain ⟨token, middle, before, after⟩ := bind_eq_ok step
  have given := next_eq_ok before
  cases choice : choose token.kind with
  | some rule =>
      simp only [choice] at after
      exact Nat.le_trans (chosen _ rule choice _ _ _ after) (Cursor.unread_next_le given)
  | none =>
      simp only [choice] at after
      obtain ⟨start, bound, after⟩ := unread_giveBack_le given after
      exact Nat.le_trans (neverGrows_pure _ _ _ _ after) bound

end Rule

end Netlist
