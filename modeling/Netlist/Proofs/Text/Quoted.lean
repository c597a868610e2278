import Mathlib.Tactic.SplitIfs
import Netlist.Text.Quoted

set_option autoImplicit false

namespace Netlist.Text

theorem digitChar_inj {m n : Nat} (small : m < 16) (smallToo : n < 16)
    (same : m.digitChar = n.digitChar) : m = n := by
  have table : ∀ m < 16, ∀ n < 16, m.digitChar = n.digitChar -> m = n := by decide
  exact table m small n smallToo same

theorem hexDigits_inj {m n : Nat} (same : Nat.toDigits 16 m = Nat.toDigits 16 n) : m = n := by
  induction m using Nat.strongRecOn generalizing n with
  | ind m ih =>
      rw [Nat.toDigits_eq_if (by decide), Nat.toDigits_eq_if (n := n) (by decide)] at same
      split_ifs at same with small smallToo smallToo
      · exact digitChar_inj small smallToo (by simpa using same)
      · simp [List.singleton_eq_append_iff] at same
      · simp [List.append_eq_singleton_iff] at same
      · obtain ⟨front, last⟩ := List.append_inj' same rfl
        have high : m / 16 = n / 16 := ih (m / 16) (by omega) front
        have low : m % 16 = n % 16 :=
          digitChar_inj (Nat.mod_lt m (by decide)) (Nat.mod_lt n (by decide)) (by simpa using last)
        omega

theorem brace_not_mem_hexDigits (n : Nat) : '\x7d' ∉ Nat.toDigits 16 n := by
  have table : ∀ digit < 16, '\x7d' ≠ digit.digitChar := by decide
  induction n using Nat.strongRecOn with
  | ind n ih =>
      rw [Nat.toDigits_eq_if (by decide)]
      split_ifs with small
      · exact fun member => table n small (List.mem_singleton.mp member)
      · intro member
        rcases List.mem_append.mp member with front | last
        · exact ih (n / 16) (by omega) front
        · exact table (n % 16) (Nat.mod_lt n (by decide)) (List.mem_singleton.mp last)

theorem append_cons_inj {c : Char} {front other rest more : List Char} (free : c ∉ front)
    (freeToo : c ∉ other) (same : front ++ c :: rest = other ++ c :: more) :
    front = other ∧ rest = more := by
  rcases List.append_eq_append_iff.mp same with ⟨behind, rfl, tails⟩ | ⟨behind, rfl, tails⟩
  · cases behind with
    | nil => simpa using tails
    | cons first behind =>
        obtain rfl := (List.cons.inj tails).1
        simp at freeToo
  · cases behind with
    | nil => simpa using tails.symm
    | cons first behind =>
        obtain rfl := (List.cons.inj tails).1
        simp at free

def letters : List (Char × Char) :=
  [('"', '"'), ('\\', '\\'), ('t', '\t'), ('r', '\r'), ('n', '\n'), ('0', '\x00')]

inductive Escaped (c : Char) : List Char -> Prop where
  | itself (noLead : c ≠ '\\') : Escaped c [c]
  | letter {sign : Char} (listed : (sign, c) ∈ letters) : Escaped c ['\\', sign]
  | number : Escaped c ('\\' :: 'u' :: '\x7b' :: (Nat.toDigits 16 c.toNat ++ ['\x7d']))

theorem escaped_escape (c : Char) : Escaped c (escape c).toList := by
  unfold escape
  split
  case h_7 noQuote noLead _ _ _ _ =>
    split_ifs
    · simpa [hex] using Escaped.number (c := c)
    · simpa using Escaped.itself noLead
  all_goals exact .letter (by decide)

theorem Escaped.inj {c d : Char} {word other rest more : List Char} (first : Escaped c word)
    (second : Escaped d other) (same : word ++ rest = other ++ more) : c = d ∧ rest = more := by
  have keyed : ∀ pair ∈ letters, ∀ another ∈ letters, pair.1 = another.1 -> pair.2 = another.2 := by
    decide
  have unnumbered : ∀ pair ∈ letters, pair.1 ≠ 'u' := by decide
  cases first with
  | itself noLead =>
      cases second with
      | itself _ => simpa using same
      | letter _ => simp [noLead] at same
      | number => simp [noLead] at same
  | @letter sign listed =>
      cases second with
      | itself noLead => simp [noLead.symm] at same
      | @letter another listedToo =>
          obtain ⟨rfl, tails⟩ : sign = another ∧ rest = more := by simpa using same
          exact ⟨keyed _ listed _ listedToo rfl, tails⟩
      | number =>
          have here : sign = 'u' := (by simpa using same : _ ∧ _).1
          exact absurd here (unnumbered _ listed)
  | number =>
      cases second with
      | itself noLead => simp [noLead.symm] at same
      | @letter another listedToo =>
          have here : 'u' = another := (by simpa using same : _ ∧ _).1
          exact absurd here.symm (unnumbered _ listedToo)
      | number =>
          simp only [List.cons_append, List.append_assoc, List.cons.injEq, true_and,
            List.nil_append] at same
          obtain ⟨digits, tails⟩ := append_cons_inj (brace_not_mem_hexDigits _)
            (brace_not_mem_hexDigits _) same
          exact ⟨Char.toNat_inj.mp (hexDigits_inj digits), tails⟩

theorem Escaped.ne_nil {c : Char} {word : List Char} (escaped : Escaped c word) : word ≠ [] := by
  cases escaped <;> simp

theorem flatMap_escape_inj {text other : List Char}
    (same : text.flatMap (fun c => (escape c).toList) =
      other.flatMap (fun c => (escape c).toList)) : text = other := by
  induction text generalizing other with
  | nil =>
      cases other with
      | nil => rfl
      | cons c other => simp [(escaped_escape c).ne_nil] at same
  | cons c text ih =>
      cases other with
      | nil => simp [(escaped_escape c).ne_nil] at same
      | cons d other =>
          rw [List.flatMap_cons, List.flatMap_cons] at same
          obtain ⟨rfl, tails⟩ := (escaped_escape c).inj (escaped_escape d) same
          rw [ih tails]

theorem quoted_inj {text other : String} (same : quoted text = quoted other) : text = other := by
  have inside := congrArg String.toList same
  simp only [quoted, String.toList_append, String.toList_join, List.flatMap_map] at inside
  obtain ⟨front, -⟩ := List.append_inj' inside rfl
  exact String.toList_inj.mp (flatMap_escape_inj (List.append_cancel_left front))

end Netlist.Text
