import Mathlib.Data.PFun
import Netlist.Proofs.Guarded.Supply

set_option autoImplicit false

/-!
# Outcomes under guard

A run under guard does what the run itself does, and checks on the way what is taken for granted
there: it is broken off where a check fails. Its loops are not known to come to an end, so it may
also bring nothing at all. Main statement: `meets_iterate`, the rule for all loops.
-/

namespace Netlist

inductive Breach where
  -- a character is given back while another one is held
  | characterHeld
  -- a character is given back that is not what was read last
  | characterUnread
  -- a token is taken back while another one waits
  | tokenWaiting
  -- there is no token to take back
  | tokenMissing
  -- a wire begins with neither a name nor a number
  | wireUnopened
  -- a part begins with something else than a name
  | partUnnamed
  -- a loop goes round and has used nothing up
  | stalled
deriving DecidableEq

abbrev Outcome (α : Type) : Type :=
  Option (Except Breach α)

namespace Outcome

variable {α β : Type}

def andThen (outcome : Outcome α) (further : α -> Outcome β) : Outcome β :=
  match outcome with
  | none => none
  | some (.error breach) => some (.error breach)
  | some (.ok value) => further value

/-- Never broken off, nothing brought but what is `good`, and something brought if it `ends`. -/
structure Meets (ends : Prop) (good : α -> Prop) (outcome : Outcome α) : Prop where
  unbroken : ∀ breach, outcome ≠ some (.error breach)
  brings : ∀ value, outcome = some (.ok value) -> good value
  returns : ends -> outcome ≠ none

variable {ends : Prop} {good : α -> Prop} {outcome : Outcome α}

theorem meets_ok {value : α} (here : good value) : Meets ends good (some (.ok value)) := by
  refine ⟨by simp, ?_, by simp⟩
  rintro other ⟨⟩
  exact here

theorem Meets.of_partial
    (brought : ∀ result, outcome = some result -> exists value, result = .ok value ∧ good value)
    (returns : ends -> outcome ≠ none) : Meets ends good outcome := by
  refine ⟨fun breach broken => ?_, fun value same => ?_, returns⟩
  · obtain ⟨value, same, -⟩ := brought _ broken
    simp at same
  · obtain ⟨other, ⟨⟩, here⟩ := brought _ same
    exact here

theorem Meets.exists_of_some (meets : Meets ends good outcome) {result : Except Breach α}
    (same : outcome = some result) : exists value, result = .ok value ∧ good value := by
  cases result with
  | error breach => exact absurd same (meets.unbroken breach)
  | ok value => exact ⟨value, rfl, meets.brings value same⟩

theorem Meets.exists_of_ends (meets : Meets ends good outcome) (ended : ends) :
    exists value, outcome = some (.ok value) ∧ good value := by
  cases found : outcome with
  | none => exact absurd found (meets.returns ended)
  | some result =>
      obtain ⟨value, rfl, here⟩ := meets.exists_of_some found
      exact ⟨value, rfl, here⟩

theorem Meets.mono {other : Prop} (meets : Meets ends good outcome) (earlier : other -> ends) :
    Meets other good outcome :=
  ⟨meets.unbroken, meets.brings, fun ended => meets.returns (earlier ended)⟩

theorem Meets.weaken {weaker : α -> Prop} (meets : Meets ends good outcome)
    (weaken : ∀ value, good value -> weaker value) : Meets ends weaker outcome :=
  ⟨meets.unbroken, fun value same => weaken value (meets.brings value same), meets.returns⟩

theorem Meets.andThen {further : α -> Outcome β} {better : β -> Prop}
    (meets : Meets ends good outcome)
    (next : ∀ value, good value -> Meets ends better (further value)) :
    Meets ends better (outcome.andThen further) := by
  cases found : outcome with
  | none => exact ⟨by simp [Outcome.andThen], by simp [Outcome.andThen],
      fun ended => absurd found (meets.returns ended)⟩
  | some result =>
      obtain ⟨value, rfl, here⟩ := meets.exists_of_some found
      exact next value here

end Outcome

inductive Round (σ α : Type) where
  | again (state : σ)
  | done (value : α)

namespace Outcome

section Iterate

variable {σ α : Type} {step : σ -> Outcome (Round σ α)} {state : σ}

def walk (step : σ -> Outcome (Round σ α)) : σ →. Except Breach α ⊕ σ :=
  fun state => Part.ofOption <| (step state).map fun
    | .error breach => Sum.inl (.error breach)
    | .ok (.done value) => Sum.inl (.ok value)
    | .ok (.again state) => Sum.inr state

theorem inr_mem_walk {next : σ} :
    Sum.inr next ∈ walk step state ↔ step state = some (.ok (.again next)) := by
  rw [walk, Part.mem_ofOption, Option.mem_map]
  constructor
  · rintro ⟨_ | _ | _, found, same⟩ <;> simp_all
  · exact fun found => ⟨_, found, rfl⟩

theorem inl_mem_walk {result : Except Breach α} :
    Sum.inl result ∈ walk step state ↔ step state = some (result.map .done) := by
  rw [walk, Part.mem_ofOption, Option.mem_map]
  constructor
  · rintro ⟨_ | _ | _, found, same⟩ <;> simp_all
    all_goals subst same; rfl
  · intro found
    refine ⟨_, found, ?_⟩
    cases result <;> rfl

open Classical in
/-- Step after step until one is done or broken off, and nothing if that never happens. -/
noncomputable def iterate (step : σ -> Outcome (Round σ α)) (state : σ) : Outcome α :=
  ((walk step).fix state).toOption

theorem iterate_eq_some_iff {result : Except Breach α} :
    iterate step state = some result ↔ result ∈ (walk step).fix state := by
  classical exact Part.toOption_eq_some_iff

theorem iterate_of_done {value : α} (done : step state = some (.ok (.done value))) :
    iterate step state = some (.ok value) :=
  iterate_eq_some_iff.mpr (PFun.fix_stop (inl_mem_walk.mpr done))

theorem iterate_of_again {next : σ} (again : step state = some (.ok (.again next))) :
    iterate step state = iterate step next := by
  unfold iterate
  rw [PFun.fix_fwd_eq (inr_mem_walk.mpr again)]

end Iterate

section Rounds

variable {σ α : Type} {step : σ -> Outcome (Round σ α)} {inv : σ -> Prop} {left : σ -> Option Nat}
  {good : σ -> α -> Prop}

def Turns (inv : σ -> Prop) (left : σ -> Option Nat) (good : σ -> α -> Prop) (state : σ) :
    Round σ α -> Prop
  | .done value => good state value
  | .again next =>
      inv next ∧ Spends 1 (left state) (left next) ∧ ∀ value, good next value -> good state value

variable
  (rounds : ∀ state, inv state -> Meets (left state).isSome (Turns inv left good state) (step state))

include rounds

theorem exists_of_iterate {state : σ} (here : inv state) {result : Except Breach α}
    (brought : iterate step state = some result) :
    exists value, result = .ok value ∧ good state value := by
  rw [iterate_eq_some_iff] at brought
  -- from the round that brought the result back to the first one
  refine PFun.fixInduction' brought (fun last stop here => ?_)
    (fun state next _ again ih here => ?_) here
  · have stopped := inl_mem_walk.mp stop
    cases result with
    | error breach => exact absurd stopped ((rounds last here).unbroken breach)
    | ok value => exact ⟨value, rfl, (rounds last here).brings _ stopped⟩
  · obtain ⟨inside, -, earlier⟩ := (rounds state here).brings _ (inr_mem_walk.mp again)
    obtain ⟨value, same, further⟩ := ih inside
    exact ⟨value, same, earlier value further⟩

theorem iterate_ne_none {state : σ} (here : inv state) (bounded : (left state).isSome) :
    iterate step state ≠ none := by
  obtain ⟨most, same⟩ := Option.isSome_iff_exists.mp bounded
  -- every further round starts from a smaller bound
  induction most using Nat.strong_induction_on generalizing state with
  | _ most ih =>
      obtain ⟨next | value, found, turns⟩ := (rounds state here).exists_of_ends bounded
      · obtain ⟨inside, spends, -⟩ := turns
        obtain ⟨less, behind, further⟩ := spends most same
        rw [iterate_of_again found]
        exact ih less (by omega) inside (spends.isSome bounded) behind
      · simp [iterate_of_done found]

theorem meets_iterate (state : σ) (here : inv state) :
    Meets (left state).isSome (good state) (iterate step state) :=
  .of_partial (fun _ brought => exists_of_iterate rounds here brought)
    (fun bounded => iterate_ne_none rounds here bounded)

end Rounds

end Outcome

end Netlist
