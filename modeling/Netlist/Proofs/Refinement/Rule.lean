import Netlist.Proofs.Plain.Rule
import Netlist.Grammar.Rule

set_option autoImplicit false

/-!
# Cursors that stand where a plain rule stands

A cursor is at a place if it is going to give the tokens from that place on: either it is just past
the tokens before, or it has looked at the one there and holds it. A rule simulates a plain rule if
from the same place it comes to the same result and to the same place, just past the token at fault
after a failure. Main statements: `next_of_at`, and one lemma for each way to build a rule.
-/

namespace Netlist

namespace Cursor

theorem mirrors_note {σ : Type} (cursor : Cursor σ) {record : Record}
    (noFault : record.fault? = none) : (cursor.note record).lexer.Mirrors Eq cursor.lexer := by
  refine ⟨Prod.ext rfl ?_, rfl, rfl, rfl⟩
  exact List.filterMap_cons_none noFault

variable {σ : Type} [Source σ]

theorem next_of_meant {cursor rest : Cursor σ} {token : Token}
    (step : cursor.scan = (token, rest)) (meant : ¬ token.kind.isLayout) :
    cursor.next = (token, rest.note (.met token)) := by
  rw [next]
  split
  simp_all

theorem scan_of_returned {cursor : Cursor σ} {token : Token}
    (returned : cursor.returned = some token) :
    cursor.scan = (token, { cursor with last := some token, returned := none }) := by
  rw [scan, returned]

theorem scan_of_not_returned {cursor : Cursor σ} (noneReturned : cursor.returned = none) :
    cursor.scan = (cursor.lexer.next.1,
      { cursor with lexer := cursor.lexer.next.2, last := some cursor.lexer.next.1 }) := by
  rw [scan, noneReturned]

theorem next_of_not_returned {cursor : Cursor σ} (noneReturned : cursor.returned = none) :
    cursor.next.1 = cursor.lexer.nextMeant.1 ∧
      cursor.next.2.lexer.Mirrors Eq cursor.lexer.nextMeant.2 := by
  fun_induction next cursor with
  | case1 cursor token rest step layout ih =>
      have scanned := scan_of_not_returned noneReturned
      rw [step] at scanned
      obtain ⟨rfl, rfl⟩ := Prod.mk.inj scanned
      have brought : cursor.lexer.next = (cursor.lexer.next.1, cursor.lexer.next.2) := rfl
      rw [Lexer.nextMeant_of_layout brought layout]
      exact ih noneReturned
  | case2 cursor token rest step meant =>
      have scanned := scan_of_not_returned noneReturned
      rw [step] at scanned
      obtain ⟨rfl, rfl⟩ := Prod.mk.inj scanned
      have brought : cursor.lexer.next = (cursor.lexer.next.1, cursor.lexer.next.2) := rfl
      rw [Lexer.nextMeant_of_meant brought meant]
      exact ⟨rfl, mirrors_note _ rfl⟩

structure Past (start : Lexer σ) (place : Nat) (cursor : Cursor σ) : Prop where
  returned : cursor.returned = none
  lexer : cursor.lexer.Mirrors Eq (start.after place)

structure Peeked (start : Lexer σ) (place : Nat) (cursor : Cursor σ) : Prop where
  returned : cursor.returned = some (start.token place)
  lexer : cursor.lexer.Mirrors Eq (start.after (place + 1))

def At (start : Lexer σ) (place : Nat) (cursor : Cursor σ) : Prop :=
  cursor.Past start place ∨ cursor.Peeked start place

variable {start : Lexer σ} {place : Nat} {cursor : Cursor σ}

theorem past_ofSource (source : σ) : (ofSource source).Past { source } 0 :=
  ⟨rfl, Lexer.Mirrors.refl _⟩

section Note

variable {record : Record} (noFault : record.fault? = none)

include noFault

theorem Past.note (past : cursor.Past start place) : (cursor.note record).Past start place :=
  ⟨past.returned, (mirrors_note cursor noFault).trans past.lexer⟩

theorem Peeked.note (peeked : cursor.Peeked start place) :
    (cursor.note record).Peeked start place :=
  ⟨peeked.returned, (mirrors_note cursor noFault).trans peeked.lexer⟩

theorem At.note (stands : cursor.At start place) : (cursor.note record).At start place := by
  cases stands with
  | inl past => exact .inl (past.note noFault)
  | inr peeked => exact .inr (peeked.note noFault)

end Note

theorem next_of_at (stands : cursor.At start place) :
    exists rest, cursor.next = (start.token place, rest) ∧ rest.Past start (place + 1) ∧
      rest.giveBack.Peeked start place := by
  -- in either state the same token comes and the same lexer is left
  have step : cursor.next.1 = start.token place ∧
      cursor.next.2.lexer.Mirrors Eq (start.after (place + 1)) := by
    cases stands with
    | inl past =>
        obtain ⟨sameToken, sameLexer⟩ := next_of_not_returned past.returned
        obtain ⟨other, further⟩ := Lexer.mirrors_nextMeant Origin.agree_eq past.lexer
        rw [Lexer.after_succ]
        exact ⟨sameToken.trans other, sameLexer.trans further⟩
    | inr peeked =>
        rw [next_of_meant (scan_of_returned peeked.returned) (Lexer.not_isLayout_token start place)]
        exact ⟨rfl, (mirrors_note _ rfl).trans peeked.lexer⟩
  have found : cursor.next = (start.token place, cursor.next.2) := Prod.ext step.1 rfl
  have ⟨given, noneReturned⟩ := last_next found
  exact ⟨cursor.next.2, found, ⟨noneReturned, step.2⟩, ⟨given, step.2⟩⟩

def ahead : Nat -> Cursor σ -> Token
  | 0, cursor => cursor.next.1
  | count + 1, cursor => ahead count cursor.next.2

theorem ahead_of_at (stands : cursor.At start place) (count : Nat) :
    cursor.ahead count = start.token (place + count) := by
  -- behind one step the cursor is past the token, whatever it held before
  induction count generalizing cursor place with
  | zero =>
      obtain ⟨rest, step, past, -⟩ := next_of_at stands
      rw [ahead, step]
      rfl
  | succ count ih =>
      obtain ⟨rest, step, past, -⟩ := next_of_at stands
      rw [ahead, step, ih (.inl past), Nat.add_right_comm, Nat.add_assoc]

end Cursor

namespace Rule

variable {σ α β : Type}

theorem bind_assoc {γ : Type} (rule : Rule σ α) (continuation : α -> Rule σ β)
    (further : β -> Rule σ γ) :
    (rule >>= continuation) >>= further = rule >>= fun value => continuation value >>= further := by
  funext cursor
  rw [bind_apply, bind_apply, bind_apply]
  cases rule cursor with
  | mk result rest => cases result <;> rfl

variable [Source σ] (start : Lexer σ) (tape : Tape)

inductive Matches (post : Nat -> Cursor σ -> Prop) :
    Except Diagnostic α × Nat -> Except Diagnostic α × Cursor σ -> Prop where
  | ok {value : α} {place : Nat} {cursor : Cursor σ} (stands : post place cursor) :
      Matches post (.ok value, place) (.ok value, cursor)
  | error {diagnostic : Diagnostic} {place : Nat} {cursor : Cursor σ}
      (past : cursor.Past start place) :
      Matches post (.error diagnostic, place) (.error diagnostic, cursor)

def Simulates (pre post : Nat -> Cursor σ -> Prop) (rule : Rule σ α) (plain : Plain α) : Prop :=
  ∀ place cursor, pre place cursor -> Matches start post (plain tape place) (rule cursor)

variable {start : Lexer σ} {tape : Tape}

theorem Matches.of_ok {post : Nat -> Cursor σ -> Prop} {value : α} {place : Nat}
    {result : Except Diagnostic α × Cursor σ} (agree : Matches start post (.ok value, place) result) :
    exists cursor, result = (.ok value, cursor) ∧ post place cursor := by
  cases agree with
  | ok stands => exact ⟨_, rfl, stands⟩

theorem Matches.exists_of_ok {post : Nat -> Cursor σ -> Prop} {plain : Except Diagnostic α × Nat}
    {value : α} {cursor : Cursor σ} (agree : Matches start post plain (.ok value, cursor)) :
    exists place, plain = (.ok value, place) ∧ post place cursor := by
  cases agree with
  | ok stands => exact ⟨_, rfl, stands⟩

theorem Matches.of_error {post : Nat -> Cursor σ -> Prop} {diagnostic : Diagnostic} {place : Nat}
    {result : Except Diagnostic α × Cursor σ}
    (agree : Matches start post (.error diagnostic, place) result) :
    exists cursor, result = (.error diagnostic, cursor) ∧ cursor.Past start place := by
  cases agree with
  | error past => exact ⟨_, rfl, past⟩

theorem Matches.weaken {post weaker : Nat -> Cursor σ -> Prop} {plain : Except Diagnostic α × Nat}
    {result : Except Diagnostic α × Cursor σ} (agree : Matches start post plain result)
    (weaken : ∀ place cursor, post place cursor -> weaker place cursor) :
    Matches start weaker plain result := by
  cases agree with
  | ok stands => exact .ok (weaken _ _ stands)
  | error past => exact .error past

theorem Matches.at {plain : Except Diagnostic α × Nat} {result : Except Diagnostic α × Cursor σ}
    (agree : Matches start (Cursor.Past start) plain result) :
    Matches start (Cursor.At start) plain result :=
  agree.weaken fun _ _ => .inl

theorem Matches.bind {mid post : Nat -> Cursor σ -> Prop} {rule : Rule σ α} {plain : Plain α}
    {continuation : α -> Rule σ β} {behind : α -> Plain β} {place : Nat} {cursor : Cursor σ}
    (first : Matches start mid (plain tape place) (rule cursor))
    (second : ∀ value, Simulates start tape mid post (continuation value) (behind value)) :
    Matches start post ((plain >>= behind) tape place) ((rule >>= continuation) cursor) := by
  rw [Plain.bind_apply, bind_apply]
  generalize plain tape place = outcome at first
  generalize rule cursor = result at first
  -- a failure of the first half is the failure of both
  cases first with
  | ok stands => exact second _ _ _ stands
  | error past => exact .error past

theorem Simulates.bind {pre mid post : Nat -> Cursor σ -> Prop} {rule : Rule σ α} {plain : Plain α}
    {continuation : α -> Rule σ β} {behind : α -> Plain β}
    (first : Simulates start tape pre mid rule plain)
    (second : ∀ value, Simulates start tape mid post (continuation value) (behind value)) :
    Simulates start tape pre post (rule >>= continuation) (plain >>= behind) :=
  fun place cursor stands => (first place cursor stands).bind second

theorem Simulates.ofPast {post : Nat -> Cursor σ -> Prop} {rule : Rule σ α} {plain : Plain α}
    (simulates : Simulates start tape (Cursor.At start) post rule plain) :
    Simulates start tape (Cursor.Past start) post rule plain :=
  fun place cursor past => simulates place cursor (.inl past)

theorem simulates_pure (post : Nat -> Cursor σ -> Prop) (value : α) :
    Simulates start tape post post (pure value) (pure value) :=
  fun _ _ stands => .ok stands

theorem simulates_fail (post : Nat -> Cursor σ -> Prop) (diagnostic : Diagnostic) :
    Simulates start tape (Cursor.Past start) post (fail diagnostic : Rule σ α)
      (Plain.fail diagnostic) :=
  fun _ _ past => .error past

variable (describes : ∀ place, start.token place = tape.get place)

include describes

theorem next_of_at {place : Nat} {cursor : Cursor σ} (stands : cursor.At start place) :
    exists rest, cursor.next = (tape.get place, rest) ∧ rest.Past start (place + 1) ∧
      rest.giveBack.Peeked start place := by
  rw [← describes]
  exact Cursor.next_of_at stands

theorem simulates_next :
    Simulates start tape (Cursor.At start) (Cursor.Past start) next Plain.take := by
  intro place cursor stands
  obtain ⟨rest, step, past, -⟩ := next_of_at describes stands
  rw [next, step]
  exact .ok past

theorem simulates_expect (kind : Token.Kind) :
    Simulates start tape (Cursor.At start) (Cursor.Past start) (expect kind)
      (Plain.expect kind) := by
  apply (simulates_next describes).bind
  intro token
  by_cases same : token.kind = kind
  · rw [if_pos same, if_pos same]
    exact simulates_pure _ token
  · rw [if_neg same, if_neg same]
    exact simulates_fail _ _

theorem simulates_lookahead {choose : Token.Kind -> Option (Rule σ α)} {absent : α}
    {plain : Plain α}
    (chosen : ∀ place, match choose (tape.get place).kind with
      | some rule => ∀ cursor, Cursor.Past start (place + 1) cursor ->
          Matches start (Cursor.At start) (plain tape place) (rule cursor)
      | none => plain tape place = (.ok absent, place)) :
    Simulates start tape (Cursor.At start) (Cursor.At start) (lookahead choose absent) plain := by
  intro place cursor stands
  obtain ⟨rest, step, past, peeked⟩ := next_of_at describes stands
  have choice := chosen place
  rw [lookahead, bind_apply, next, step]
  simp only
  cases kind : choose (tape.get place).kind with
  | some rule =>
      rw [kind] at choice
      exact choice rest past
  | none =>
      rw [kind] at choice
      rw [choice]
      exact .ok (.inr peeked)

end Rule

end Netlist
