import Mathlib.Data.List.Destutter
import Netlist.Proofs.Refinement.Rule

set_option autoImplicit false

namespace Netlist

/-- So many tokens were passed, and the one behind them was looked at so many times since. -/
inductive Looks (tape : Tape) : Nat -> Nat -> List Token -> Prop where
  | start : Looks tape 0 0 []
  | look {place times : Nat} {seen : List Token} (few : times ≤ 2)
      (looks : Looks tape place times seen) :
      Looks tape place (times + 1) (seen ++ [tape.get place])
  | pass {place times : Nat} {seen : List Token} (goesOn : (tape.get place).kind ≠ .endOfInput)
      (looks : Looks tape place (times + 1) seen) : Looks tape (place + 1) 0 seen

theorem destutter_concat {α : Type} [DecidableEq α] (items : List α) (item : α) :
    (items ++ [item]).destutter (· ≠ ·) =
      items.destutter (· ≠ ·) ++ if items.getLast? = some item then [] else [item] := by
  cases items with
  | nil => simp
  | cons first rest =>
      rw [List.cons_append, List.destutter_cons', List.destutter_cons']
      induction rest generalizing first with
      | nil => by_cases same : first = item <;> simp [same]
      | cons next rest ih =>
          by_cases other : first ≠ next
          · rw [List.cons_append, List.destutter'_cons_pos _ other,
              List.destutter'_cons_pos _ other, ih]
            simp
          · rw [List.cons_append, List.destutter'_cons_neg _ other,
              List.destutter'_cons_neg _ other, ih, not_not.mp other]
            simp

namespace Tape

def Apart (tape : Tape) : Prop :=
  ∀ first second, first < second -> (tape.get first).kind ≠ .endOfInput ->
    tape.get first ≠ tape.get second

end Tape

namespace Looks

variable {tape : Tape} {place times : Nat} {seen : List Token}

theorem getLast?_eq (looks : Looks tape place (times + 1) seen) :
    seen.getLast? = some (tape.get place) := by
  cases looks with
  | look few looks => simp

theorem place_le (looks : Looks tape place times seen) : place ≤ tape.tokens.length := by
  induction looks with
  | start => exact Nat.zero_le _
  | look few looks ih => exact ih
  | pass goesOn looks ih => exact Tape.lt_of_goesOn goesOn

theorem exists_of_mem (looks : Looks tape place times seen) {token : Token}
    (member : token ∈ seen) :
    exists earlier, token = tape.get earlier ∧
      (earlier < place ∧ token.kind ≠ .endOfInput ∨ earlier = place ∧ times ≠ 0) := by
  induction looks with
  | start => simp at member
  | @look place times seen few looks ih =>
      rcases List.mem_append.mp member with before | here
      · obtain ⟨earlier, same, passed | ⟨now, -⟩⟩ := ih before
        · exact ⟨earlier, same, .inl passed⟩
        · exact ⟨earlier, same, .inr ⟨now, Nat.succ_ne_zero _⟩⟩
      · exact ⟨place, List.mem_singleton.mp here, .inr ⟨rfl, Nat.succ_ne_zero _⟩⟩
  | @pass place times seen goesOn looks ih =>
      obtain ⟨earlier, rfl, ⟨before, goesOnToo⟩ | ⟨rfl, -⟩⟩ := ih member
      · exact ⟨earlier, rfl, .inl ⟨by omega, goesOnToo⟩⟩
      · exact ⟨earlier, rfl, .inl ⟨by omega, goesOn⟩⟩

variable (apart : tape.Apart)

include apart

theorem not_mem (looks : Looks tape place 0 seen) : tape.get place ∉ seen := by
  intro member
  obtain ⟨earlier, same, ⟨before, goesOn⟩ | ⟨-, never⟩⟩ := looks.exists_of_mem member
  · exact apart earlier place before (same ▸ goesOn) same.symm
  · exact never rfl

theorem destutter (looks : Looks tape place times seen) :
    seen.destutter (· ≠ ·) = (List.range (place + min times 1)).map tape.get := by
  induction looks with
  | start => rfl
  | @look place times seen few looks ih =>
      rw [destutter_concat, ih]
      cases times with
      | zero =>
          have new : seen.getLast? ≠ some (tape.get place) := fun last =>
            looks.not_mem apart (List.mem_of_getLast? last)
          rw [if_neg new]
          simp [List.range_succ]
      | succ times =>
          rw [if_pos looks.getLast?_eq]
          simp
  | @pass place times seen goesOn looks ih => simpa using ih

theorem count (looks : Looks tape place times seen) :
    seen.count (tape.get place) = times ∧ ∀ token, seen.count token ≤ 3 := by
  induction looks with
  | start => simp
  | @look place times seen few looks ih =>
      obtain ⟨here, all⟩ := ih
      refine ⟨by simp [here], fun token => ?_⟩
      by_cases same : tape.get place = token
      · subst same
        simp only [List.count_append, List.count_singleton_self, here]
        omega
      · simpa [List.count_append, same] using all token
  | @pass place times seen goesOn looks ih =>
      refine ⟨?_, ih.2⟩
      exact List.count_eq_zero.mpr ((Looks.pass goesOn looks).not_mem apart)

end Looks

def Record.met? : Record -> Option Token
  | .met token => some token
  | _ => none

namespace Journal

def traced (journal : Journal) : List Record :=
  journal.toList.filter fun record => record.level = .trace

def told (journal : Journal) : List Record :=
  journal.toList.filter fun record => record.level = .debug

def met (journal : Journal) : List Token :=
  journal.traced.filterMap Record.met?

theorem traced_eq (journal : Journal) : journal.traced = journal.met.map Record.met := by
  unfold met traced
  induction journal.toList with
  | nil => rfl
  | cons record records ih =>
      cases record with
      | met token => simpa [Record.level, Record.met?] using ih
      | _ => simpa [Record.level] using ih

structure Silent (before after : Journal) : Prop where
  met : after.met = before.met
  told : after.told = before.told

theorem Silent.refl (journal : Journal) : Silent journal journal :=
  ⟨rfl, rfl⟩

theorem Silent.trans {first second third : Journal} (silent : Silent first second)
    (further : Silent second third) : Silent first third :=
  ⟨further.met.trans silent.met, further.told.trans silent.told⟩

theorem silent_sourceFailed (journal : Journal) (fault : Fault) :
    Silent journal (journal.write (.sourceFailed fault)) := by
  constructor
  · simp [met, traced, Record.level]
  · simp [told, Record.level]

end Journal

namespace Lexer

open Journal (Silent)

variable {σ : Type} [Source σ]

theorem silent_pull (lexer : Lexer σ) : Silent lexer.journal lexer.pull.2.journal := by
  unfold pull
  split
  · exact .refl _
  · exact .refl _
  · exact Journal.silent_sourceFailed _ _

theorem silent_read (lexer : Lexer σ) : Silent lexer.journal lexer.read.2.journal := by
  unfold read
  split
  · exact .refl _
  · have silent := lexer.silent_pull
    split <;> rename_i step <;> rw [step] at silent <;> exact silent

theorem silent_extend (accept : Char -> Bool) (text : String) (lexer : Lexer σ) :
    Silent lexer.journal (extend accept text lexer).2.journal := by
  fun_induction extend accept text lexer with
  | case1 text lexer rest step => simpa only [step] using lexer.silent_read
  | case2 text lexer c rest step accepted ih =>
      have first := lexer.silent_read
      rw [step] at first
      exact first.trans ih
  | case3 text lexer c rest step refused =>
      have first := lexer.silent_read
      rw [step] at first
      exact first

theorem silent_accept (c : Char) (lexer : Lexer σ) :
    Silent lexer.journal (accept c lexer).2.journal := by
  have silent := lexer.silent_read
  unfold accept
  split <;> rename_i step <;> rw [step] at silent
  · exact silent
  · split <;> exact silent

theorem silent_lexeme (first : Char) (lexer : Lexer σ) :
    Silent lexer.journal (lexer.lexeme first).2.2.journal := by
  have arrow := lexer.silent_accept '>'
  have slash := lexer.silent_accept '/'
  unfold lexeme
  simp only
  split_ifs
  · exact silent_extend ..
  · exact silent_extend ..
  · exact silent_extend ..
  · exact silent_extend ..
  · unfold Lexer.arrow
    split <;> rename_i step <;> rw [step] at arrow <;> exact arrow
  · unfold comment
    split <;> rename_i step <;> rw [step] at slash
    · exact slash.trans (silent_extend ..)
    · exact slash
  · exact .refl _

theorem silent_next (lexer : Lexer σ) : Silent lexer.journal lexer.next.2.journal := by
  have silent := lexer.silent_read
  unfold next
  split <;> rename_i step <;> rw [step] at silent
  · exact silent
  · exact silent.trans (silent_lexeme ..)

end Lexer

namespace Cursor

variable {σ : Type} [Source σ]

theorem silent_scan (cursor : Cursor σ) : cursor.journal.Silent cursor.scan.2.journal := by
  unfold scan
  split
  · exact .refl _
  · exact cursor.lexer.silent_next

theorem journal_next (cursor : Cursor σ) :
    cursor.next.2.journal.met = cursor.journal.met ++ [cursor.next.1] ∧
      cursor.next.2.journal.told = cursor.journal.told := by
  fun_induction next cursor with
  | case1 cursor token rest step layout ih =>
      have silent := cursor.silent_scan
      rw [step] at silent
      rwa [silent.met, silent.told] at ih
  | case2 cursor token rest step meant =>
      have silent := cursor.silent_scan
      rw [step] at silent
      rw [← silent.met, ← silent.told]
      constructor
      · simp [note, journal, Journal.met, Journal.traced, Record.level, Record.met?]
      · simp [note, journal, Journal.told, Record.level]

end Cursor

end Netlist
