import Netlist.Grammar.Rule
import Netlist.Proofs.Guarded.Lexer

set_option autoImplicit false

namespace Netlist

def Guarded (σ α : Type) : Type :=
  Cursor σ -> Outcome (Except Diagnostic α × Cursor σ)

def Cursor.remaining {σ : Type} [Supply σ] (cursor : Cursor σ) : Option Nat :=
  cursor.lexer.remaining.map (· + cursor.returned.elim 0 fun token => token.text.length)

namespace Guarded

section Build

variable {σ α β ι : Type}

instance : Monad (Guarded σ) where
  pure value cursor := some (.ok (.ok value, cursor))
  bind rule continuation cursor :=
    (rule cursor).andThen fun
      | (.ok value, rest) => continuation value rest
      | (.error diagnostic, rest) => some (.ok (.error diagnostic, rest))

theorem bind_of_ok {guarded : Guarded σ α} {further : α -> Guarded σ β} {cursor rest : Cursor σ}
    {value : α} (step : guarded cursor = some (.ok (.ok value, rest))) :
    (guarded >>= further) cursor = further value rest := by
  change (guarded cursor).andThen _ = _
  rw [step]
  rfl

def fail (diagnostic : Diagnostic) : Guarded σ α :=
  fun cursor => some (.ok (.error diagnostic, cursor))

def breakOff (breach : Breach) : Guarded σ α :=
  fun _ => some (.error breach)

def note (record : Record) : Guarded σ Unit :=
  fun cursor => some (.ok (.ok (), cursor.note record))

def giveBack : Guarded σ Unit :=
  fun cursor =>
    if cursor.returned.isSome then some (.error .tokenWaiting)
    else if cursor.last.isNone then some (.error .tokenMissing)
    else some (.ok (.ok (), cursor.giveBack))

variable [Supply σ]

def loopRound (round : ι -> Guarded σ (Round ι α)) :
    ι × Cursor σ -> Outcome (Round (ι × Cursor σ) (Except Diagnostic α × Cursor σ))
  | (state, cursor) =>
      (round state cursor).andThen fun
        | (.error diagnostic, rest) => some (.ok (.done (.error diagnostic, rest)))
        | (.ok (.done value), rest) => some (.ok (.done (.ok value, rest)))
        -- a round that another one follows has to leave less to be read
        | (.ok (.again state), rest) =>
            if cursor.remaining.all fun most => rest.remaining.any (· < most) then
              some (.ok (.again (state, rest)))
            else some (.error .stalled)

noncomputable def loop (round : ι -> Guarded σ (Round ι α)) (state : ι) : Guarded σ α :=
  fun cursor => Outcome.iterate (loopRound round) (state, cursor)

noncomputable def scan : Guarded σ Token :=
  fun cursor =>
    match cursor.returned with
    | some token => some (.ok (.ok token, { cursor with last := some token, returned := none }))
    | none =>
        (Checked.next cursor.lexer).andThen fun (token, lexer) =>
          some (.ok (.ok token, { cursor with lexer, last := some token }))

noncomputable def nextRound (_ : Unit) : Guarded σ (Round Unit Token) := do
  let token <- scan
  if token.kind.isLayout then pure (.again ())
  else do
    note (.met token)
    pure (.done token)

noncomputable def next : Guarded σ Token :=
  loop nextRound ()

noncomputable def expect (kind : Token.Kind) : Guarded σ Token := do
  let token <- next
  if token.kind = kind then pure token
  else fail (.unexpectedToken token kind.describe)

noncomputable def lookahead (choose : Token.Kind -> Option (Guarded σ α)) (absent : α) :
    Guarded σ α := do
  let token <- next
  match choose token.kind with
  | some rule => rule
  | none => do
      giveBack
      pure absent

noncomputable def peek : Guarded σ Token.Kind := do
  let token <- next
  giveBack
  pure token.kind

end Build

end Guarded

namespace Rule

variable {σ α ι : Type}

def Unfolds (rule : ι -> Rule σ α) (round : ι -> Rule σ (Round ι α)) : Prop :=
  ∀ state cursor, rule state cursor =
    match round state cursor with
    | (.ok (.again state), rest) => rule state rest
    | (.ok (.done value), rest) => (.ok value, rest)
    | (.error diagnostic, rest) => (.error diagnostic, rest)

variable [Source σ]

def scan : Rule σ Token :=
  fun cursor => (.ok cursor.scan.1, cursor.scan.2)

theorem unfolds_next :
    Unfolds (fun _ : Unit => (next : Rule σ Token)) fun _ =>
      scan >>= fun token =>
        if token.kind.isLayout then pure (.again ())
        else note (.met token) >>= fun _ => pure (.done token) := by
  intro _ cursor
  dsimp only
  rw [bind_apply, next, Cursor.next]
  rcases step : cursor.scan with ⟨token, rest⟩
  by_cases layout : token.kind.isLayout
  · simp [scan, step, layout, pure_apply]
    rfl
  · simp [scan, step, layout]
    rfl

end Rule

def Token.Filled (token : Token) : Prop :=
  token.kind ≠ .endOfInput -> token.text ≠ ""

structure Cursor.Sound {σ : Type} (cursor : Cursor σ) : Prop where
  last : ∀ token ∈ cursor.last, token.Filled
  returned : ∀ token ∈ cursor.returned, token.Filled

theorem Token.Filled.length_pos {token : Token} (filled : token.Filled)
    (goesOn : token.kind ≠ .endOfInput) : 1 ≤ token.text.length := by
  have some' := filled goesOn
  rw [ne_eq, ← String.length_eq_zero_iff] at some'
  exact Nat.one_le_iff_ne_zero.mpr some'

theorem Cursor.Sound.given {σ : Type} (lexer : Lexer σ) {token : Token} (filled : token.Filled) :
    ({ lexer, last := some token } : Cursor σ).Sound := by
  refine ⟨fun other found => ?_, by simp⟩
  cases found
  exact filled

namespace Guarded

open Outcome (Meets meets_ok)

variable {σ α β ι : Type} [Supply σ]

/-- What is brought by a run under guard from `cursor`: a state that is sound and has no more to
come, a value that is `good`, and over a source just what is `expected`. -/
structure Brings (cursor : Cursor σ) (good : α -> Cursor σ -> Prop)
    (expected : Source σ -> Except Diagnostic α × Cursor σ)
    (step : Except Diagnostic α × Cursor σ) : Prop where
  sound : step.2.Sound
  keeps : Spends 0 cursor.remaining step.2.remaining
  good : ∀ value, step.1 = .ok value -> good value step.2
  same : ∀ source, Supply.Is source -> expected source = step

abbrev Runs (cursor : Cursor σ) (good : α -> Cursor σ -> Prop)
    (expected : Source σ -> Except Diagnostic α × Cursor σ)
    (outcome : Outcome (Except Diagnostic α × Cursor σ)) : Prop :=
  Meets cursor.remaining.isSome (Brings cursor good expected) outcome

section Runs

variable {cursor rest : Cursor σ} {good better : α -> Cursor σ -> Prop}
  {expected : Source σ -> Except Diagnostic α × Cursor σ}
  {outcome : Outcome (Except Diagnostic α × Cursor σ)}

theorem runs_ok {value : α} (sound : rest.Sound) (keeps : Spends 0 cursor.remaining rest.remaining)
    (here : good value rest)
    (same : ∀ source, Supply.Is source -> expected source = (.ok value, rest)) :
    Runs cursor good expected (some (.ok (.ok value, rest))) :=
  meets_ok ⟨sound, keeps, fun _ found => Except.ok.inj found ▸ here, same⟩

theorem runs_error {diagnostic : Diagnostic} (sound : rest.Sound)
    (keeps : Spends 0 cursor.remaining rest.remaining)
    (same : ∀ source, Supply.Is source -> expected source = (.error diagnostic, rest)) :
    Runs cursor good expected (some (.ok (.error diagnostic, rest))) :=
  meets_ok ⟨sound, keeps, fun _ found => (nomatch found), same⟩

theorem Runs.imp (runs : Runs cursor good expected outcome)
    (imp : ∀ value rest, good value rest -> better value rest) :
    Runs cursor better expected outcome :=
  runs.weaken fun _ brings =>
    ⟨brings.sound, brings.keeps, fun value same => imp _ _ (brings.good value same), brings.same⟩

theorem Runs.after (runs : Runs rest good expected outcome)
    (keeps : Spends 0 cursor.remaining rest.remaining) : Runs cursor good expected outcome :=
  (runs.mono keeps.isSome).weaken fun _ brings =>
    ⟨brings.sound, keeps.trans brings.keeps, brings.good, brings.same⟩

theorem Runs.bind {guarded : Guarded σ α} {further : α -> Guarded σ β} {rule : Source σ -> Rule σ α}
    {behind : Source σ -> α -> Rule σ β} {best : β -> Cursor σ -> Prop}
    (first : Runs cursor good (fun source => rule source cursor) (guarded cursor))
    (second : ∀ value rest, rest.Sound -> Spends 0 cursor.remaining rest.remaining ->
      good value rest ->
      Runs cursor best (fun source => behind source value rest) (further value rest)) :
    Runs cursor best (fun source => (rule source >>= behind source) cursor)
      ((guarded >>= further) cursor) := by
  refine first.andThen fun step brings => ?_
  obtain ⟨diagnostic | value, rest⟩ := step
  · refine runs_error brings.sound brings.keeps fun source same => ?_
    rw [Rule.bind_apply, brings.same source same]
  -- what follows may start by taking a token back, so it is measured from the first cursor too
  · refine (second value rest brings.sound brings.keeps (brings.good value rfl)).weaken
      fun step more => ⟨more.sound, more.keeps, more.good, fun source same => ?_⟩
    rw [Rule.bind_apply, brings.same source same]
    exact more.same source same

end Runs

/-- From any sound state a run is as it should be, and uses up `least` or more if it succeeds. -/
def Tracks (least : Nat) (guarded : Guarded σ α) (rule : Source σ -> Rule σ α) : Prop :=
  ∀ cursor : Cursor σ, cursor.Sound ->
    Runs cursor (fun _ rest => Spends least cursor.remaining rest.remaining)
      (fun source => rule source cursor) (guarded cursor)

section Tracks

variable {least : Nat} {guarded : Guarded σ α} {further : α -> Guarded σ β}
  {rule : Source σ -> Rule σ α} {behind : Source σ -> α -> Rule σ β}

theorem Tracks.bind (first : Tracks least guarded rule)
    (second : ∀ value, Tracks 0 (further value) fun source => behind source value) :
    Tracks least (guarded >>= further) fun source => rule source >>= behind source :=
  fun cursor sound => (first cursor sound).bind fun value rest sound keeps spends =>
    ((second value rest sound).imp fun _ _ more => spends.trans more).after keeps

theorem Tracks.bind_uses (first : Tracks 0 guarded rule)
    (second : ∀ value, Tracks least (further value) fun source => behind source value) :
    Tracks least (guarded >>= further) fun source => rule source >>= behind source :=
  fun cursor sound => (first cursor sound).bind fun value rest sound keeps _ =>
    ((second value rest sound).imp fun _ _ more =>
      (keeps.trans more).mono (Nat.le_add_left ..)).after keeps

theorem Tracks.zero (tracks : Tracks least guarded rule) : Tracks 0 guarded rule :=
  fun cursor sound => (tracks cursor sound).imp fun _ _ spends => spends.mono (Nat.zero_le least)

theorem tracks_pure (value : α) : Tracks 0 (pure value : Guarded σ α) fun _ => pure value :=
  fun _ sound => runs_ok sound (.refl _) (.refl _) fun _ _ => rfl

theorem tracks_fail (least : Nat) (diagnostic : Diagnostic) :
    Tracks least (fail diagnostic : Guarded σ α) fun _ => Rule.fail diagnostic :=
  fun _ sound => runs_error sound (.refl _) fun _ _ => rfl

theorem tracks_note (record : Record) :
    Tracks 0 (note record : Guarded σ Unit) fun _ => Rule.note record :=
  fun _ sound => runs_ok ⟨sound.last, sound.returned⟩ (.refl _) (.refl _) fun _ _ => rfl

theorem Tracks.bind_pure (tracks : Tracks least guarded rule) (result : α -> β) :
    Tracks least (guarded >>= fun value => pure (result value))
      fun source => rule source >>= fun value => pure (result value) :=
  tracks.bind fun value => tracks_pure (result value)

end Tracks

section Loop

def Uses (cursor : Cursor σ) (_ : α) (rest : Cursor σ) : Prop :=
  Spends 1 cursor.remaining rest.remaining

def Advances (good : Cursor σ -> α -> Cursor σ -> Prop) (cursor : Cursor σ) :
    Round ι α -> Cursor σ -> Prop
  | .again state, rest => Uses cursor state rest
  | .done value, rest => good cursor value rest

variable {round : ι -> Guarded σ (Round ι α)} {one : Source σ -> ι -> Rule σ (Round ι α)}
  {rule : Source σ -> ι -> Rule σ α}

theorem progress_of_spends {before after : Option Nat} (spends : Spends 1 before after) :
    before.all fun most => after.any (· < most) := by
  cases before with
  | none => rfl
  | some most =>
      obtain ⟨rest, rfl, less⟩ := spends most rfl
      exact decide_eq_true (Nat.lt_of_succ_le less)

theorem runs_loop (good : Cursor σ -> α -> Cursor σ -> Prop)
    (earlier : ∀ cursor middle value rest, Spends 1 cursor.remaining middle.remaining ->
      good middle value rest -> good cursor value rest)
    (unfolds : ∀ source, Rule.Unfolds (rule source) (one source))
    (rounds : ∀ state (cursor : Cursor σ), cursor.Sound ->
      Runs cursor (Advances good cursor) (fun source => one source state cursor)
        (round state cursor))
    (state : ι) (cursor : Cursor σ) (sound : cursor.Sound) :
    Runs cursor (good cursor) (fun source => rule source state cursor)
      (loop round state cursor) := by
  let brought (place : ι × Cursor σ) :=
    Brings place.2 (good place.2) fun source => rule source place.1 place.2
  let left (place : ι × Cursor σ) := place.2.remaining
  have turns (place : ι × Cursor σ) (sound : place.2.Sound) :
      Meets (left place).isSome (Outcome.Turns (fun place => place.2.Sound) left brought place)
        (loopRound round place) := by
    obtain ⟨state, cursor⟩ := place
    refine (rounds state cursor sound).andThen fun step brings => ?_
    obtain ⟨diagnostic | state | value, rest⟩ := step
    · refine meets_ok ⟨brings.sound, brings.keeps, by simp, fun source same => ?_⟩
      rw [unfolds source, brings.same source same]
    · have spends : Spends 1 cursor.remaining rest.remaining := brings.good _ rfl
      simp only [progress_of_spends spends, if_true]
      refine meets_ok ⟨brings.sound, spends, fun step more =>
        ⟨more.sound, brings.keeps.trans more.keeps,
          fun value same => earlier _ _ _ _ spends (more.good value same), fun source same => ?_⟩⟩
      rw [unfolds source, brings.same source same]
      exact more.same source same
    · refine meets_ok ⟨brings.sound, brings.keeps, fun other same => ?_, fun source same => ?_⟩
      · cases same
        exact brings.good _ rfl
      · rw [unfolds source, brings.same source same]
  exact Outcome.meets_iterate turns (state, cursor) sound

theorem Tracks.advances {guarded : Guarded σ (Round ι α)} {rule : Source σ -> Rule σ (Round ι α)}
    (tracks : Tracks 1 guarded rule) (cursor : Cursor σ) (sound : cursor.Sound) :
    Runs cursor (Advances Uses cursor) (fun source => rule source cursor) (guarded cursor) := by
  refine (tracks cursor sound).imp fun round rest spends => ?_
  cases round with
  | again state => exact spends
  | done value => exact spends

theorem tracks_loop (unfolds : ∀ source, Rule.Unfolds (rule source) (one source))
    (rounds : ∀ state, Tracks 1 (round state) fun source => one source state) (state : ι) :
    Tracks 1 (loop round state) fun source => rule source state :=
  runs_loop Uses (fun _ _ _ _ spends further => (spends.trans further).mono (Nat.le_add_left ..))
    unfolds (fun state => (rounds state).advances) state

end Loop

section Tokens

variable {cursor rest : Cursor σ} {token : Token}

structure Gives (cursor : Cursor σ) (token : Token) (rest : Cursor σ) : Prop where
  meant : ¬ token.kind.isLayout
  filled : token.Filled
  last : rest.last = some token
  returned : rest.returned = none
  spends : Spends token.text.length cursor.remaining rest.remaining

theorem Gives.keeps (gives : Gives cursor token rest) :
    Spends 0 cursor.remaining rest.remaining :=
  gives.spends.mono (Nat.zero_le _)

theorem Gives.uses (gives : Gives cursor token rest) (goesOn : token.kind ≠ .endOfInput) :
    Spends 1 cursor.remaining rest.remaining :=
  gives.spends.mono (gives.filled.length_pos goesOn)

theorem Gives.giveBack (gives : Gives cursor token rest) :
    giveBack rest = some (.ok (.ok (), rest.giveBack)) ∧ rest.giveBack.returned = some token ∧
      rest.giveBack.Sound ∧ Spends 0 cursor.remaining rest.giveBack.remaining := by
  have again : rest.giveBack.remaining = rest.remaining.map (· + token.text.length) := by
    simp [Cursor.remaining, Cursor.giveBack, gives.last, gives.returned]
  refine ⟨by simp [Guarded.giveBack, gives.last, gives.returned], gives.last, ⟨?_, ?_⟩, ?_⟩
  · simp [Cursor.giveBack]
  · simpa [Cursor.giveBack, gives.last] using gives.filled
  · rw [again]
    exact Spends.putBack (by simpa using gives.spends)

theorem runs_scan (cursor : Cursor σ) (sound : cursor.Sound) :
    Runs cursor
      (fun token rest => token.Filled ∧ rest.last = some token ∧ rest.returned = none ∧
        Spends token.text.length cursor.remaining rest.remaining)
      (fun _ => Rule.scan cursor) (scan cursor) := by
  unfold scan Rule.scan Cursor.scan
  cases returned : cursor.returned with
  | some token =>
      have filled := sound.returned token returned
      have spends : Spends token.text.length cursor.remaining
          ({ lexer := cursor.lexer, last := some token } : Cursor σ).remaining := by
        unfold Cursor.remaining
        rw [returned]
        exact (Spends.refl _).add _ 0 (by simp)
      exact runs_ok (.given _ filled) (spends.mono (Nat.zero_le _)) ⟨filled, rfl, rfl, spends⟩
        fun _ _ => rfl
  | none =>
      have same : cursor.remaining = cursor.lexer.remaining := by
        simp [Cursor.remaining, returned]
      refine ((Checked.meets_next cursor.lexer).mono (same ▸ id)).andThen
        fun ⟨token, lexer⟩ ⟨filled, spends, told⟩ => ?_
      have used : Spends token.text.length cursor.remaining
          ({ lexer, last := some token } : Cursor σ).remaining := by
        simpa [Cursor.remaining, returned] using spends
      exact runs_ok (.given _ filled) (used.mono (Nat.zero_le _)) ⟨filled, rfl, rfl, used⟩
        fun source is => by simp only [told source is]

theorem runs_nextRound (state : Unit) (cursor : Cursor σ) (sound : cursor.Sound) :
    Runs cursor (Advances Gives cursor)
      (fun _ => (Rule.scan >>= fun token =>
        if token.kind.isLayout then pure (.again ())
        else Rule.note (.met token) >>= fun _ => pure (.done token)) cursor)
      (nextRound state cursor) := by
  refine (runs_scan cursor sound).bind
    fun token rest sound keeps ⟨filled, last, returned, spends⟩ => ?_
  by_cases layout : token.kind.isLayout
  · simp only [layout, if_true]
    have goesOn := Token.Kind.ne_endOfInput_of_isLayout layout
    exact runs_ok sound keeps (spends.mono (filled.length_pos goesOn)) fun _ _ => rfl
  · simp only [layout, Bool.false_eq_true, if_false]
    exact runs_ok ⟨sound.last, sound.returned⟩ keeps ⟨layout, filled, last, returned, spends⟩
      fun _ _ => rfl

theorem runs_next (cursor : Cursor σ) (sound : cursor.Sound) :
    Runs cursor (Gives cursor) (fun _ => Rule.next cursor) (next cursor) := by
  refine runs_loop Gives ?_ (fun source => Rule.unfolds_next) runs_nextRound () cursor sound
  intro cursor middle token rest spends gives
  refine ⟨gives.meant, gives.filled, gives.last, gives.returned, ?_⟩
  exact (spends.trans gives.spends).mono (Nat.le_add_left ..)

theorem tracks_next : Tracks 0 (next : Guarded σ Token) fun _ => Rule.next :=
  fun cursor sound => (runs_next cursor sound).imp fun _ _ gives => gives.keeps

theorem next_of_returned (returned : cursor.returned = some token) (meant : ¬ token.kind.isLayout) :
    exists rest, next cursor = some (.ok (.ok token, rest)) := by
  let given : Cursor σ := { cursor with last := some token, returned := none }
  have scanned : scan cursor = some (.ok (.ok token, given)) := by rw [scan, returned]
  refine ⟨given.note (.met token), Outcome.iterate_of_done ?_⟩
  rw [loopRound, nextRound, bind_of_ok scanned]
  simp only [meant, Bool.false_eq_true, if_false]
  rfl

theorem runs_next_of_returned (sound : cursor.Sound) (returned : cursor.returned = some token)
    (meant : ¬ token.kind.isLayout) :
    Runs cursor (fun found rest => found = token ∧ Gives cursor found rest)
      (fun _ => Rule.next cursor) (next cursor) := by
  have runs := runs_next cursor sound
  obtain ⟨rest, given⟩ := next_of_returned returned meant
  have brings := runs.brings _ given
  rw [given]
  exact runs_ok brings.sound brings.keeps ⟨rfl, brings.good token rfl⟩ brings.same

theorem tracks_expect {kind : Token.Kind} (goesOn : kind ≠ .endOfInput) :
    Tracks 1 (expect kind : Guarded σ Token) fun _ => Rule.expect kind := by
  intro cursor sound
  refine (runs_next cursor sound).bind fun token rest sound keeps gives => ?_
  by_cases same : token.kind = kind
  · simp only [same, if_true]
    exact runs_ok sound keeps (gives.uses (same ▸ goesOn)) fun _ _ => rfl
  · simp only [same, if_false]
    exact runs_error sound keeps fun _ _ => rfl

theorem tracks_peek :
    Tracks 0 (peek : Guarded σ Token.Kind)
      fun _ => Rule.next >>= fun token => Rule.giveBack >>= fun _ => pure token.kind := by
  intro cursor sound
  refine (runs_next cursor sound).bind fun token rest _ _ gives => ?_
  obtain ⟨back, -, sound, keeps⟩ := gives.giveBack
  rw [bind_of_ok back]
  exact runs_ok sound keeps keeps fun _ _ => rfl

def Chooses (guarded : Option (Guarded σ α)) (rule : Source σ -> Option (Rule σ α)) : Prop :=
  (guarded = none ∧ ∀ source, rule source = none) ∨
    exists one other, guarded = some one ∧ (∀ source, rule source = some (other source)) ∧
      Tracks 0 one other

theorem tracks_lookahead {choose : Token.Kind -> Option (Guarded σ α)}
    {rules : Source σ -> Token.Kind -> Option (Rule σ α)} {absent : α}
    (chosen : ∀ kind, Chooses (choose kind) fun source => rules source kind) :
    Tracks 0 (lookahead choose absent) fun source => Rule.lookahead (rules source) absent := by
  intro cursor sound
  refine (runs_next cursor sound).bind fun token rest sound keeps gives => ?_
  rcases chosen token.kind with ⟨nothing, other⟩ | ⟨one, rule, found, other, tracks⟩
  · obtain ⟨back, -, sound, keeps⟩ := gives.giveBack
    simp only [nothing, other]
    rw [bind_of_ok back]
    exact runs_ok sound keeps keeps fun _ _ => rfl
  · simp only [found, other]
    exact ((tracks rest sound).imp fun _ _ more => keeps.trans more).after keeps

end Tokens

end Guarded

end Netlist
