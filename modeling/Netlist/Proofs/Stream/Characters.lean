import Netlist.Source.Utf8

set_option autoImplicit false

namespace Netlist

namespace Utf8

/-- The characters of a script, and the fault that ends them if they do not just end. -/
def characters (script : List Read) : List Char × Option Fault :=
  match _ : decode script with
  | (.ok (some c), rest) => (c :: (characters rest).1, (characters rest).2)
  | (.ok none, _) => ([], none)
  | (.error fault, _) => ([], some fault)
termination_by script.length
decreasing_by all_goals exact length_decode_lt (by assumption)

theorem characters_of_char {script rest : List Read} {c : Char}
    (step : decode script = (.ok (some c), rest)) :
    characters script = (c :: (characters rest).1, (characters rest).2) := by
  rw [characters]
  split <;> simp_all

theorem characters_of_end {script rest : List Read} (step : decode script = (.ok none, rest)) :
    characters script = ([], none) := by
  rw [characters]
  split <;> simp_all

theorem characters_of_fault {script rest : List Read} {fault : Fault}
    (step : decode script = (.error fault, rest)) : characters script = ([], some fault) := by
  rw [characters]
  split <;> simp_all

def steady : List Read -> List Read
  | [] => []
  | .byte b :: rest => .byte b :: steady rest
  | .ended :: _ => []
  | .failed fault :: rest => if fault.kind = .interrupted then steady rest else [.failed fault]

def Delivers (script : List Read) (bytes : List UInt8) : Prop :=
  steady script = bytes.map .byte

inductive Steadied {α : Type} (stops : Except Fault α -> Prop) :
    Except Fault α × List Read -> Except Fault α × List Read -> Prop where
  | goesOn {result : Except Fault α} {rest : List Read} :
      Steadied stops (result, steady rest) (result, rest)
  | stopped {result : Except Fault α} {left right : List Read} (stop : stops result) :
      Steadied stops (result, left) (result, right)

section Steadied

variable {α : Type} {stops : Except Fault α -> Prop} {steadied : Except Fault α × List Read}
  {result : Except Fault α} {rest : List Read}

theorem Steadied.eq_of_goesOn (same : Steadied stops steadied (result, rest))
    (goesOn : ¬ stops result) : steadied = (result, steady rest) := by
  cases same with
  | goesOn => rfl
  | stopped stop => exact absurd stop goesOn

theorem Steadied.exists_eq (same : Steadied stops steadied (result, rest)) :
    exists left, steadied = (result, left) := by
  cases same with
  | goesOn => exact ⟨_, rfl⟩
  | stopped stop => exact ⟨_, rfl⟩

end Steadied

theorem nextByte_steady (script : List Read) :
    Steadied (fun result => ∀ b, result ≠ .ok (some b)) (nextByte (steady script))
      (nextByte script) := by
  -- on the interrupted reads in front, which are the only ones skipped
  fun_induction nextByte script with
  | case1 => exact .stopped (by simp)
  | case2 b rest => exact .goesOn
  | case3 rest => exact .stopped (by simp)
  | case4 fault rest retried ih =>
      rw [steady, if_pos retried]
      exact ih
  | case5 fault rest refused =>
      rw [steady, if_neg refused, nextByte, if_neg refused]
      exact .stopped (by simp)

theorem take_steady (count : Nat) (script : List Read) :
    Steadied (fun result => ∀ bytes, result ≠ .ok bytes) (take count (steady script))
      (take count script) := by
  induction count generalizing script with
  | zero => exact .goesOn
  | succ count ih =>
      have first := nextByte_steady script
      rw [take, take]
      generalize nextByte script = step at first ⊢
      rcases step with ⟨fault | none' | b, rest⟩
      · obtain ⟨left, other⟩ := first.exists_eq
        rw [other]
        exact .stopped (by simp)
      · obtain ⟨left, other⟩ := first.exists_eq
        rw [other]
        exact .stopped (by simp)
      · have more := ih rest
        rw [first.eq_of_goesOn fun stop => stop b rfl]
        simp only
        generalize take count rest = taken at more ⊢
        rcases taken with ⟨fault | bytes, last⟩
        · obtain ⟨left, other⟩ := more.exists_eq
          rw [other]
          exact .stopped (by simp)
        · rw [more.eq_of_goesOn fun stop => stop bytes rfl]
          exact .goesOn

theorem decode_steady (script : List Read) :
    Steadied (fun result => ∀ c, result ≠ .ok (some c)) (decode (steady script))
      (decode script) := by
  have first := nextByte_steady script
  rw [decode, decode]
  generalize nextByte script = step at first ⊢
  rcases step with ⟨fault | none' | lead, rest⟩
  · obtain ⟨left, other⟩ := first.exists_eq
    rw [other]
    exact .stopped (by simp)
  · obtain ⟨left, other⟩ := first.exists_eq
    rw [other]
    exact .stopped (by simp)
  · rw [first.eq_of_goesOn fun stop => stop lead rfl]
    simp only
    cases followers lead with
    | none => exact .stopped (by simp)
    | some count =>
        have more := take_steady count rest
        simp only
        generalize take count rest = taken at more ⊢
        rcases taken with ⟨fault | bytes, last⟩
        · obtain ⟨left, other⟩ := more.exists_eq
          rw [other]
          exact .stopped (by simp)
        · rw [more.eq_of_goesOn fun stop => stop bytes rfl]
          exact .goesOn

theorem characters_steady (script : List Read) : characters (steady script) = characters script := by
  -- behind each character both scripts are related again
  fun_induction characters script with
  | case1 script c rest step ih =>
      have same := decode_steady script
      rw [step] at same
      rw [characters_of_char (same.eq_of_goesOn fun stop => stop c rfl), ih]
  | case2 script rest step =>
      have same := decode_steady script
      rw [step] at same
      obtain ⟨left, other⟩ := same.exists_eq
      exact characters_of_end other
  | case3 script rest fault step =>
      have same := decode_steady script
      rw [step] at same
      obtain ⟨left, other⟩ := same.exists_eq
      exact characters_of_fault other

theorem delivers_map_byte (bytes : List UInt8) : Delivers (bytes.map .byte) bytes := by
  induction bytes with
  | nil => rfl
  | cons b bytes ih => exact congrArg (Read.byte b :: ·) ih

theorem characters_eq_of_delivers {script other : List Read} {bytes : List UInt8}
    (delivers : Delivers script bytes) (others : Delivers other bytes) :
    characters script = characters other := by
  rw [← characters_steady script, ← characters_steady other]
  exact congrArg characters (delivers.trans others.symm)

end Utf8

end Netlist
