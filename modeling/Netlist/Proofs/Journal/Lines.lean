import Netlist.Journal
import Netlist.Proofs.Text.Quoted

set_option autoImplicit false

namespace Netlist

open Text (append_cons_inj)

namespace Token.Kind

theorem label_inj {kind other : Kind} (same : kind.label = other.label) : kind = other := by
  have mem_all (kind : Kind) : kind ∈ all := by
    rcases kind with _ | _ | _ | _ | _ | _ | heading <;> (try cases heading) <;> decide
  have table : ∀ kind ∈ all, ∀ other ∈ all, kind.label = other.label -> kind = other := by decide
  exact table kind (mem_all kind) other (mem_all other) same

theorem blank_not_mem_label (kind : Kind) : ' ' ∉ kind.label.toList := by
  rcases kind with _ | _ | _ | _ | _ | _ | heading <;> (try cases heading) <;> decide

end Token.Kind

theorem not_mem_repr (n : Nat) {c : Char} (noDigit : c.isDigit = false) : c ∉ n.repr.toList := by
  intro member
  rw [Nat.toList_repr] at member
  have digit := Nat.isDigit_of_mem_toDigits (by decide) (by decide) member
  simp [noDigit] at digit

theorem repr_inj {m n : Nat} (same : m.repr.toList = n.repr.toList) : m = n := by
  rw [Nat.toList_repr, Nat.toList_repr] at same
  calc
    m = Nat.ofDigitChars 10 (Nat.toDigits 10 m) 0 := Nat.ofDigitChars_ten_toDigits.symm
    _ = Nat.ofDigitChars 10 (Nat.toDigits 10 n) 0 := by rw [same]
    _ = n := Nat.ofDigitChars_ten_toDigits

namespace Record

theorem toList_opening (heading : Heading) :
    (opening heading).text.toList =
      "pars".toList ++ 'i' :: ("ng ".toList ++ (heading.word.toList ++ " statement".toList)) := by
  change ("parsing " ++ heading.word ++ " statement").toList = _
  simp only [String.toList_append, List.append_assoc]
  rfl

theorem toList_completed (heading : Heading) (count : Nat) :
    (completed heading count).text.toList =
      "pars".toList ++ 'e' :: ("d ".toList ++ (count.repr.toList ++ ' ' ::
        (entries heading).toList)) := by
  change ("parsed " ++ count.repr ++ " " ++ entries heading).toList = _
  simp only [String.toList_append, List.append_assoc]
  rfl

theorem toList_met (token : Token) :
    (met token).text.toList =
      token.position.line.repr.toList ++ ':' :: (token.position.column.repr.toList ++ ':' ::
        ' ' :: (token.kind.label.toList ++ ' ' :: (Text.quoted token.text).toList)) := by
  change (token.position.line.repr ++ ":" ++ token.position.column.repr ++ ": " ++
    token.kind.label ++ " " ++ Text.quoted token.text).toList = _
  simp only [String.toList_append, List.append_assoc]
  rfl

theorem opening_inj {heading other : Heading}
    (same : (opening heading).text = (opening other).text) : heading = other := by
  have whole := congrArg String.toList same
  rw [toList_opening, toList_opening] at whole
  have words := List.append_cancel_right
    (List.append_cancel_left (List.cons.inj (List.append_cancel_left whole)).2)
  cases heading <;> cases other <;> first | rfl | exact absurd words (by decide)

theorem completed_inj {heading other : Heading} {count number : Nat}
    (same : (completed heading count).text = (completed other number).text) :
    heading = other ∧ count = number := by
  have whole := congrArg String.toList same
  rw [toList_completed, toList_completed] at whole
  obtain ⟨digits, names⟩ := append_cons_inj (not_mem_repr _ rfl) (not_mem_repr _ rfl)
    (List.append_cancel_left (List.cons.inj (List.append_cancel_left whole)).2)
  refine ⟨?_, repr_inj digits⟩
  cases heading <;> cases other <;> first | rfl | exact absurd names (by decide)

theorem opening_ne_completed (heading other : Heading) (count : Nat) :
    (opening heading).text ≠ (completed other count).text := by
  intro same
  have whole := congrArg String.toList same
  rw [toList_opening, toList_completed] at whole
  exact absurd (List.cons.inj (List.append_cancel_left whole)).1 (by decide)

theorem met_inj {token other : Token} (same : (met token).text = (met other).text) :
    token = other := by
  have whole := congrArg String.toList same
  rw [toList_met, toList_met] at whole
  obtain ⟨lines, whole⟩ := append_cons_inj (not_mem_repr _ rfl) (not_mem_repr _ rfl) whole
  obtain ⟨columns, whole⟩ := append_cons_inj (not_mem_repr _ rfl) (not_mem_repr _ rfl) whole
  obtain ⟨labels, texts⟩ := append_cons_inj token.kind.blank_not_mem_label
    other.kind.blank_not_mem_label (List.cons.inj whole).2
  obtain ⟨kind, text, line, column⟩ := token
  obtain ⟨_, _, _, _⟩ := other
  obtain rfl := repr_inj lines
  obtain rfl := repr_inj columns
  obtain rfl := Token.Kind.label_inj (String.toList_inj.mp labels)
  obtain rfl := Text.quoted_inj (String.toList_inj.mp texts)
  rfl

/-- What a parse writes down can be told from the lines at one level: the position, kind and text of
a token, or a heading and a count. -/
theorem eq_of_text {record other : Record} (noFault : record.level ≠ .warn)
    (level : record.level = other.level) (same : record.text = other.text) : record = other := by
  cases record with
  | sourceFailed fault => exact absurd rfl noFault
  | opening heading =>
      cases other with
      | opening _ => rw [opening_inj same]
      | completed _ _ => exact absurd same (opening_ne_completed _ _ _)
      | _ => simp [Record.level] at level
  | completed heading count =>
      cases other with
      | opening _ => exact absurd same.symm (opening_ne_completed _ _ _)
      | completed _ _ =>
          obtain ⟨rfl, rfl⟩ := completed_inj same
          rfl
      | _ => simp [Record.level] at level
  | met token =>
      cases other with
      | met _ => rw [met_inj same]
      | _ => simp [Record.level] at level

end Record

end Netlist
