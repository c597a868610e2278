import Mathlib.Data.Nat.Find
import Mathlib.Order.Bounds.Basic
import Mathlib.Tactic.SplitIfs
import Netlist.Lexer

set_option autoImplicit false

namespace Netlist

def Spends (count : Nat) (before after : Option Nat) : Prop :=
  ∀ most, before = some most -> exists rest, after = some rest ∧ rest + count ≤ most

namespace Spends

variable {count other : Nat} {before middle after : Option Nat}

theorem refl (bound : Option Nat) : Spends 0 bound bound :=
  fun most same => ⟨most, same, Nat.le_refl most⟩

theorem trans (first : Spends count before middle) (second : Spends other middle after) :
    Spends (count + other) before after := by
  intro most bounded
  obtain ⟨some', between, less⟩ := first most bounded
  obtain ⟨rest, behind, further⟩ := second some' between
  exact ⟨rest, behind, by omega⟩

theorem mono (spends : Spends count before after) (le : other ≤ count) :
    Spends other before after := by
  intro most bounded
  obtain ⟨rest, behind, less⟩ := spends most bounded
  exact ⟨rest, behind, by omega⟩

theorem isSome (spends : Spends count before after) (bounded : before.isSome) : after.isSome := by
  obtain ⟨most, same⟩ := Option.isSome_iff_exists.mp bounded
  obtain ⟨rest, behind, -⟩ := spends most same
  simp [behind]

theorem putBack {again : Nat} (spends : Spends (count + again) before after) :
    Spends count before (after.map (· + again)) := by
  intro most bounded
  obtain ⟨rest, behind, less⟩ := spends most bounded
  exact ⟨rest + again, by rw [behind, Option.map_some], by omega⟩

theorem add (spends : Spends count before after) (front behind : Nat)
    (le : other + behind ≤ count + front) :
    Spends other (before.map (· + front)) (after.map (· + behind)) := by
  intro most bounded
  obtain ⟨inside, same, rfl⟩ := Option.map_eq_some_iff.mp bounded
  obtain ⟨rest, there, less⟩ := spends inside same
  exact ⟨rest + behind, by rw [there, Option.map_some], by omega⟩

end Spends

/-- Anything that characters can be pulled from. Where there is a bound on what is still to come,
every character counts against it. -/
class Supply (σ : Type) where
  pull : σ -> Pull × σ
  bound : σ -> Option Nat
  spends_pull : ∀ state, Spends (pull state).1.count (bound state) (bound (pull state).2)

namespace Supply

@[reducible]
def ofSource {σ : Type} (source : Source σ) : Supply σ where
  pull := source.pull
  bound state := some (source.size state)
  spends_pull state := by
    rintro most ⟨⟩
    exact ⟨_, rfl, by simpa only [Nat.add_comm] using source.count_add_size_pull state⟩

instance (priority := low) {σ : Type} [source : Source σ] : Supply σ :=
  ofSource source

def Is {σ : Type} [supply : Supply σ] (source : Source σ) : Prop :=
  supply = ofSource source

end Supply

structure Iterated {σ : Type} (step : σ -> Option Char × σ) where
  state : σ

namespace Iterated

section Ends

variable {σ : Type} (step : σ -> Option Char × σ)

def after (count : Nat) (state : σ) : σ :=
  (fun state => (step state).2)^[count] state

/-- Behind the first `count` pulls there are only ends. -/
def EndsBehind (count : Nat) (state : σ) : Prop :=
  ∀ more, count ≤ more -> (step (after step more state)).1 = none

theorem EndsBehind.next {count : Nat} {state : σ} (ends : EndsBehind step count state) :
    EndsBehind step (count - 1) (step state).2 :=
  fun more le => ends (more + 1) (by omega)

end Ends

variable {σ : Type} {step : σ -> Option Char × σ}

open Classical in
noncomputable def bound (iterated : Iterated step) : Option Nat :=
  if ends : exists count, EndsBehind step count iterated.state then some (Nat.find ends) else none

theorem bound_eq_some_iff {iterated : Iterated step} {most : Nat} :
    iterated.bound = some most ↔ IsLeast { count | EndsBehind step count iterated.state } most := by
  classical
  unfold bound
  split_ifs with ends
  · rw [Option.some.injEq]
    have least : IsLeast { count | EndsBehind step count iterated.state } (Nat.find ends) :=
      ⟨Nat.find_spec ends, fun count here => Nat.find_min' ends here⟩
    exact ⟨fun same => same ▸ least, least.unique⟩
  · simp only [false_iff]
    exact fun least => ends ⟨most, least.1⟩

theorem exists_bound {iterated : Iterated step} {count : Nat}
    (ends : EndsBehind step count iterated.state) :
    exists most, iterated.bound = some most ∧ most ≤ count := by
  classical
  have found : exists count, EndsBehind step count iterated.state := ⟨count, ends⟩
  exact ⟨Nat.find found, dif_pos found, Nat.find_min' found ends⟩

def pull (iterated : Iterated step) : Pull × Iterated step :=
  match step iterated.state with
  | (some c, state) => (.char c, { state })
  | (none, state) => (.stop, { state })

theorem pull_snd (iterated : Iterated step) :
    iterated.pull.2 = { state := (step iterated.state).2 } := by
  unfold pull
  split <;> rename_i found <;> rw [found]

theorem count_pull_le {iterated : Iterated step} {most : Nat}
    (ends : EndsBehind step most iterated.state) : iterated.pull.1.count ≤ most := by
  unfold pull
  split <;> rename_i found
  · -- a character comes, so there are not only ends from here on
    rcases most with _ | most
    · have none' : (step iterated.state).1 = none := ends 0 (Nat.le_refl 0)
      simp [found] at none'
    · simp [Pull.count]
  · simp [Pull.count]

theorem spends_pull (iterated : Iterated step) :
    Spends iterated.pull.1.count iterated.bound iterated.pull.2.bound := by
  intro most bounded
  have ends := (bound_eq_some_iff.mp bounded).1
  have further : EndsBehind step (most - 1) iterated.pull.2.state := by
    rw [pull_snd]
    exact ends.next
  obtain ⟨rest, behind, le⟩ := exists_bound further
  have count := count_pull_le ends
  have one : iterated.pull.1.count ≤ 1 := by unfold pull; split <;> simp [Pull.count]
  exact ⟨rest, behind, by omega⟩

noncomputable instance : Supply (Iterated step) where
  pull := pull
  bound := bound
  spends_pull := spends_pull

end Iterated

end Netlist
