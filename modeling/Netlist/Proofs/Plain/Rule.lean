import Netlist.Failure
import Netlist.Proofs.Lexing.Text

set_option autoImplicit false

/-!
# Rules without taking back

A plain rule walks over a tape of tokens. It looks at the token under its place as often as it
likes and moves on when it is sure. `Moves` says how a rule moves: forwards over tokens that are no
semicolon when it succeeds, and to just behind the token it blames when it fails.
-/

namespace Netlist

/-- Tokens, and behind them the end of input for ever. -/
structure Tape where
  tokens : List Token
  finish : Position

namespace Tape

def get (tape : Tape) (place : Nat) : Token :=
  tape.tokens[place]?.getD (Token.ending tape.finish)

def ofText (text : String) : Tape :=
  { tokens := Token.significant text, finish := text.toList.foldl Position.after {} }

theorem get_of_length_le {tape : Tape} {place : Nat} (behind : tape.tokens.length ≤ place) :
    tape.get place = Token.ending tape.finish := by
  rw [get, List.getElem?_eq_none behind]
  rfl

theorem lt_of_goesOn {tape : Tape} {place : Nat} (goesOn : (tape.get place).kind ≠ .endOfInput) :
    place < tape.tokens.length := by
  -- behind the last token there is only the end of input
  by_cases inside : place < tape.tokens.length
  · exact inside
  · rw [get_of_length_le (Nat.le_of_not_lt inside)] at goesOn
    exact absurd rfl goesOn

theorem describes_ofText (text : String) (place : Nat) :
    ({ source := Feed.ofText text } : Lexer Feed).token place = (ofText text).get place := by
  rw [Lexer.token_eq_significant (Lexer.faces_ofText text), get, ofText, Token.significant,
    Lexer.scan_eq_tokens]
  rfl

end Tape

def Plain (α : Type) : Type :=
  Tape -> Nat -> Except Diagnostic α × Nat

namespace Plain

variable {α β : Type}

instance : Monad Plain where
  pure value _ place := (.ok value, place)
  bind rule continuation tape place :=
    match rule tape place with
    | (.ok value, after) => continuation value tape after
    | (.error diagnostic, after) => (.error diagnostic, after)

theorem pure_apply (value : α) (tape : Tape) (place : Nat) :
    (pure value : Plain α) tape place = (.ok value, place) := rfl

theorem bind_apply (rule : Plain α) (continuation : α -> Plain β) (tape : Tape) (place : Nat) :
    (rule >>= continuation) tape place =
      match rule tape place with
      | (.ok value, after) => continuation value tape after
      | (.error diagnostic, after) => (.error diagnostic, after) := rfl

theorem bind_assoc {γ : Type} (rule : Plain α) (continuation : α -> Plain β)
    (further : β -> Plain γ) :
    (rule >>= continuation) >>= further = rule >>= fun value => continuation value >>= further := by
  funext tape place
  rw [bind_apply, bind_apply, bind_apply]
  cases rule tape place with
  | mk result after => cases result <;> rfl

def fail (diagnostic : Diagnostic) : Plain α :=
  fun _ place => (.error diagnostic, place)

def peek : Plain Token :=
  fun tape place => (.ok (tape.get place), place)

def take : Plain Token :=
  fun tape place => (.ok (tape.get place), place + 1)

def expect (kind : Token.Kind) : Plain Token := do
  let token <- take
  if token.kind = kind then pure token else fail (.unexpectedToken token kind.describe)

def optional (kind : Token.Kind) (rule : Plain α) (absent : α) : Plain α := do
  let token <- peek
  if token.kind = kind then do
    let _ <- take
    rule
  else pure absent

end Plain

def Diagnostic.Blames (diagnostic : Diagnostic) (token : Token) : Prop :=
  diagnostic = .pinOutOfRange token.text token.position ∨
    exists expected, diagnostic = .unexpected token.text expected token.position

namespace Plain

variable {α β : Type}

/-- What a rule comes to: a place that is `good`, or the place just past the token it blames. -/
def Comes (tape : Tape) (place : Nat) (good : Nat -> Prop) : Except Diagnostic α × Nat -> Prop
  | (.ok _, after) => good after
  | (.error diagnostic, after) =>
      exists culprit, place ≤ culprit ∧ after = culprit + 1 ∧ diagnostic.Blames (tape.get culprit)

theorem Comes.weaken {tape : Tape} {place low : Nat} {good better : Nat -> Prop}
    {outcome : Except Diagnostic α × Nat} (comes : Comes tape place good outcome)
    (le : low ≤ place) (weaken : ∀ after, good after -> better after) :
    Comes tape low better outcome := by
  match outcome with
  | (.ok value, after) => exact weaken after comes
  | (.error diagnostic, after) =>
      obtain ⟨culprit, bound, rest⟩ := comes
      exact ⟨culprit, Nat.le_trans le bound, rest⟩

theorem Comes.bind {tape : Tape} {place : Nat} {good better : Nat -> Prop} {rule : Plain α}
    {continuation : α -> Plain β} (comes : Comes tape place good (rule tape place))
    (further : ∀ value middle, good middle ->
      Comes tape place better (continuation value tape middle)) :
    Comes tape place better ((rule >>= continuation) tape place) := by
  rw [bind_apply]
  match step : rule tape place with
  | (.ok value, middle) =>
      rw [step] at comes
      exact further value middle comes
  | (.error diagnostic, after) =>
      rw [step] at comes
      exact comes

theorem Comes.bind_pure {tape : Tape} {place : Nat} {good : Nat -> Prop} {rule : Plain α}
    (comes : Comes tape place good (rule tape place)) (result : α -> β) :
    Comes tape place good ((rule >>= fun value => pure (result value)) tape place) :=
  comes.bind fun _ _ stands => stands

def Clear (tape : Tape) (place after : Nat) : Prop :=
  ∀ between, place ≤ between -> between < after -> (tape.get between).kind ≠ .semicolon

theorem Clear.trans {tape : Tape} {place middle after : Nat} (left : Clear tape place middle)
    (right : Clear tape middle after) : Clear tape place after := by
  intro between low high
  by_cases before : between < middle
  · exact left between low before
  · exact right between (Nat.le_of_not_lt before) high

theorem clear_succ {tape : Tape} {place : Nat} (noEnd : (tape.get place).kind ≠ .semicolon) :
    Clear tape place (place + 1) := by
  intro between low high
  rw [show between = place by omega]
  exact noEnd

/-- A success passes over `least` tokens or more, and over no semicolon. -/
def Lands (tape : Tape) (place least : Nat) : Except Diagnostic α × Nat -> Prop :=
  Comes tape place fun after => place + least ≤ after ∧ Clear tape place after

def Moves (least : Nat) (rule : Plain α) : Prop :=
  ∀ tape place, Lands tape place least (rule tape place)

theorem Lands.of_succ {tape : Tape} {place least : Nat} {outcome : Except Diagnostic α × Nat}
    (lands : Lands tape (place + 1) least outcome) (noEnd : (tape.get place).kind ≠ .semicolon) :
    Lands tape place (least + 1) outcome :=
  lands.weaken (Nat.le_succ place) fun _ ⟨bound, clear⟩ =>
    ⟨by omega, (clear_succ noEnd).trans clear⟩

theorem Lands.mono {tape : Tape} {place least most : Nat} {outcome : Except Diagnostic α × Nat}
    (lands : Lands tape place most outcome) (le : least ≤ most) : Lands tape place least outcome :=
  lands.weaken (Nat.le_refl place) fun _ ⟨bound, clear⟩ => ⟨by omega, clear⟩

theorem Moves.mono {least most : Nat} {rule : Plain α} (moves : Moves most rule)
    (le : least ≤ most) : Moves least rule :=
  fun tape place => (moves tape place).mono le

theorem moves_pure (value : α) : Moves 0 (pure value : Plain α) :=
  fun _ _ => ⟨Nat.le_refl _, fun _ low high => absurd high (Nat.not_lt.mpr low)⟩

theorem Moves.bind {first second : Nat} {rule : Plain α} {continuation : α -> Plain β}
    (moves : Moves first rule) (further : ∀ value, Moves second (continuation value)) :
    Moves (first + second) (rule >>= continuation) := by
  intro tape place
  refine (moves tape place).bind fun value middle ⟨bound, clear⟩ => ?_
  exact (further value tape middle).weaken (by omega) fun after ⟨further, clearer⟩ =>
    ⟨by omega, clear.trans clearer⟩

theorem lands_fail {tape : Tape} {place least : Nat} {diagnostic : Diagnostic}
    (blames : diagnostic.Blames (tape.get place)) :
    Lands tape place least ((fail diagnostic : Plain α) tape (place + 1)) :=
  ⟨place, Nat.le_refl _, rfl, blames⟩

theorem moves_expect {kind : Token.Kind} (noEnd : kind ≠ .semicolon) : Moves 1 (expect kind) := by
  intro tape place
  -- with the token taken, the place is one further whether it is the right one or not
  change Lands tape place 1 ((if (tape.get place).kind = kind then pure (tape.get place)
    else fail (.unexpectedToken (tape.get place) kind.describe) : Plain Token) tape (place + 1))
  by_cases same : (tape.get place).kind = kind
  · rw [if_pos same]
    exact (moves_pure _ tape (place + 1)).of_succ (by rw [same]; exact noEnd)
  · rw [if_neg same]
    exact lands_fail (.inr ⟨_, rfl⟩)

theorem optional_of_eq {kind : Token.Kind} {rule : Plain α} {absent : α} {tape : Tape}
    {place : Nat} (same : (tape.get place).kind = kind) :
    optional kind rule absent tape place = rule tape (place + 1) := by
  change (if (tape.get place).kind = kind then (take >>= fun _ => rule) else pure absent :
    Plain α) tape place = _
  rw [if_pos same]
  rfl

theorem optional_of_ne {kind : Token.Kind} {rule : Plain α} {absent : α} {tape : Tape}
    {place : Nat} (other : (tape.get place).kind ≠ kind) :
    optional kind rule absent tape place = (.ok absent, place) := by
  change (if (tape.get place).kind = kind then (take >>= fun _ => rule) else pure absent :
    Plain α) tape place = _
  rw [if_neg other]
  rfl

theorem moves_optional {kind : Token.Kind} {rule : Plain α} {absent : α}
    (noEnd : kind ≠ .semicolon) (moves : Moves 0 rule) : Moves 0 (optional kind rule absent) := by
  intro tape place
  by_cases same : (tape.get place).kind = kind
  · rw [optional_of_eq same]
    exact ((moves tape (place + 1)).of_succ (by rw [same]; exact noEnd)).mono (Nat.zero_le _)
  · rw [optional_of_ne same]
    exact moves_pure absent tape place

theorem take_bind (continuation : Token -> Plain α) (tape : Tape) (place : Nat) :
    (take >>= continuation) tape place = continuation (tape.get place) tape (place + 1) := rfl

theorem expect_bind_of_eq {kind : Token.Kind} {continuation : Token -> Plain α} {tape : Tape}
    {place : Nat} (same : (tape.get place).kind = kind) :
    (expect kind >>= continuation) tape place =
      continuation (tape.get place) tape (place + 1) := by
  rw [bind_apply, expect, take_bind, if_pos same]
  rfl

theorem expect_bind_of_ne {kind : Token.Kind} {continuation : Token -> Plain α} {tape : Tape}
    {place : Nat} (other : (tape.get place).kind ≠ kind) :
    (expect kind >>= continuation) tape place =
      (.error (.unexpectedToken (tape.get place) kind.describe), place + 1) := by
  rw [bind_apply, expect, take_bind, if_neg other]
  rfl

end Plain

end Netlist
