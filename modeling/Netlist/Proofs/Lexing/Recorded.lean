import Netlist.Proofs.Lexing.Place

set_option autoImplicit false

namespace Netlist

/-- A source that keeps a record of its pulls: the characters, and none for each end. -/
structure Recorded (σ : Type) where
  source : σ
  pulled : List (Option Char) := []

namespace Recorded

variable {σ : Type} [Source σ]

def pull (recorded : Recorded σ) : Pull × Recorded σ :=
  let (found, source) := Source.pull recorded.source
  (found, { source, pulled := recorded.pulled ++ [found.char?] })

instance : Source (Recorded σ) where
  pull := pull
  size recorded := Source.size recorded.source
  count_add_size_pull recorded := Source.count_add_size_pull recorded.source

theorem agree_source :
    Origin.Agree fun (left : Origin (Recorded σ)) (right : Origin σ) =>
      left.1.source = right.1 ∧ left.2 = right.2 := by
  rintro ⟨⟨source, pulled⟩, faults⟩ ⟨_, _⟩ ⟨rfl, rfl⟩
  have recording : Source.pull ({ source, pulled } : Recorded σ) = pull { source, pulled } := rfl
  unfold Origin.pull
  simp only [recording, pull]
  cases Source.pull source with
  | mk found rest => cases found <;> exact ⟨rfl, rfl, rfl⟩

end Recorded

/-- An iterator, which need not come to an end, for as many pulls as are `left`. Behind them it is
at its end. -/
structure Front {σ : Type} (step : σ -> Option Char × σ) where
  state : σ
  left : Nat

namespace Front

variable {σ : Type} {step : σ -> Option Char × σ}

def pull (front : Front step) : Pull × Front step :=
  match front.left with
  | 0 => (.stop, front)
  | left + 1 =>
      match step front.state with
      | (some c, state) => (.char c, { state, left })
      | (none, state) => (.stop, { state, left })

theorem count_add_left_pull (front : Front step) :
    front.pull.1.count + front.pull.2.left ≤ front.left := by
  obtain ⟨state, left⟩ := front
  unfold pull
  cases left with
  | zero => simp [Pull.count]
  | succ left =>
      simp only
      split
      · simp [Pull.count, Nat.add_comm]
      · simp [Pull.count]

instance : Source (Front step) where
  pull := pull
  size := left
  count_add_size_pull := count_add_left_pull

def pulls (step : σ -> Option Char × σ) : Nat -> σ -> List (Option Char)
  | 0, _ => []
  | count + 1, state => (step state).1 :: pulls step count (step state).2

/-- As long as the limit is not passed, the record is of the iterator's own pulls. -/
def Genuine (start : σ) (limit : Nat) (recorded : Recorded (Front step)) : Prop :=
  recorded.pulled.length ≤ limit ->
    recorded.pulled.length + recorded.source.left = limit ∧
      ∀ more, pulls step (recorded.pulled.length + more) start =
        recorded.pulled ++ pulls step more recorded.source.state

theorem genuine_start (start : σ) (limit : Nat) :
    Genuine start limit { source := { state := start, left := limit } : Recorded (Front step) } := by
  intro _
  exact ⟨Nat.zero_add limit, fun more => by rw [List.length_nil, Nat.zero_add, List.nil_append]⟩

theorem pull_recorded (state : σ) (left : Nat) (pulled : List (Option Char)) :
    (Source.pull ({ source := { state, left := left + 1 }, pulled } : Recorded (Front step))).2 =
      { source := { state := (step state).2, left }, pulled := pulled ++ [(step state).1] } := by
  change (Recorded.pull _).2 = _
  unfold Recorded.pull
  change ({ source := (Front.pull _).2, pulled := pulled ++ [(Front.pull _).1.char?] } :
    Recorded (Front step)) = _
  unfold Front.pull
  cases step state with
  | mk found rest => cases found <;> rfl

theorem Genuine.pull {start : σ} {limit : Nat} {recorded : Recorded (Front step)}
    (genuine : Genuine start limit recorded) :
    Genuine start limit (Source.pull recorded).2 := by
  obtain ⟨⟨state, left⟩, pulled⟩ := recorded
  cases left with
  | zero =>
      intro within
      have longer : (pulled ++ [none]).length ≤ limit := within
      rw [List.length_append, List.length_singleton] at longer
      have := (genuine (Nat.le_of_succ_le longer)).1
      simp only at this
      omega
  | succ left =>
      rw [pull_recorded]
      intro within
      simp only [List.length_append, List.length_singleton] at within ⊢
      obtain ⟨count, own⟩ := genuine (Nat.le_of_succ_le within)
      simp only at count own
      refine ⟨by omega, fun more => ?_⟩
      rw [Nat.add_assoc, own, Nat.add_comm 1 more, pulls, List.append_assoc, List.singleton_append]

end Front

namespace Lexer

variable {σ τ : Type} [Source σ] [Source τ]

theorem mirrors_nexts {same : Origin σ -> Origin τ -> Prop} (agree : Origin.Agree same)
    {left : Lexer σ} {right : Lexer τ} (mirrors : left.Mirrors same right) (count : Nat) :
    (left.nexts count).1 = (right.nexts count).1 ∧
      (left.nexts count).2.Mirrors same (right.nexts count).2 := by
  induction count generalizing left right with
  | zero => exact ⟨rfl, mirrors⟩
  | succ count ih =>
      obtain ⟨after, step, further⟩ := mirrors_next agree mirrors
      obtain ⟨tokens, last⟩ := ih further
      rw [nexts_succ, nexts_succ, step, tokens]
      exact ⟨rfl, last⟩

theorem keeps_nexts {keeps : σ -> Prop}
    (pulls : ∀ source, keeps source -> keeps (Source.pull source).2) {lexer : Lexer σ}
    (start : keeps lexer.source) (count : Nat) : keeps (lexer.nexts count).2.source := by
  have agree : Origin.Agree fun (left right : Origin σ) => left = right ∧ keeps left.1 := by
    rintro left right ⟨rfl, kept⟩
    have further := pulls left.1 kept
    refine ⟨rfl, rfl, ?_⟩
    unfold Origin.pull
    split <;> rename_i step <;> simpa only [step] using further
  have mirrors : lexer.Mirrors (fun left right => left = right ∧ keeps left.1) lexer :=
    ⟨⟨rfl, start⟩, rfl, rfl, rfl⟩
  exact (mirrors_nexts agree mirrors count).2.origin.2

end Lexer

namespace Front

variable {σ : Type} {step : σ -> Option Char × σ}

theorem genuine_nexts (state : σ) (limit count : Nat) :
    Genuine state limit
      (({ source := { source := { state, left := limit } } } :
        Lexer (Recorded (Front step))).nexts count).2.source :=
  Lexer.keeps_nexts (fun _ => Genuine.pull) (genuine_start state limit) count

theorem Genuine.pulled_eq {state : σ} {limit : Nat} {recorded : Recorded (Front step)}
    (genuine : Genuine state limit recorded) (within : recorded.pulled.length ≤ limit) :
    recorded.pulled = pulls step recorded.pulled.length state := by
  have own := (genuine within).2 0
  rw [Nat.add_zero, pulls, List.append_nil] at own
  exact own.symm

end Front

end Netlist
