import Netlist.Lexer

set_option autoImplicit false

namespace Netlist

structure Cursor (σ : Type) where
  lexer : Lexer σ
  -- the token given last, unless it was taken back
  last : Option Token := none
  -- the token taken back, to be given again
  returned : Option Token := none

namespace Cursor

variable {σ : Type} [Source σ]

def ofSource (source : σ) : Cursor σ :=
  { lexer := { source } }

def journal (cursor : Cursor σ) : Journal :=
  cursor.lexer.journal

def note (cursor : Cursor σ) (record : Record) : Cursor σ :=
  { cursor with lexer := { cursor.lexer with journal := cursor.lexer.journal.write record } }

def scan (cursor : Cursor σ) : Token × Cursor σ :=
  match cursor.returned with
  | some token => (token, { cursor with last := some token, returned := none })
  | none =>
      let (token, lexer) := cursor.lexer.next
      (token, { cursor with lexer, last := some token })

def giveBack (cursor : Cursor σ) : Cursor σ :=
  { cursor with last := none, returned := cursor.last }

def unread (cursor : Cursor σ) : Nat :=
  cursor.lexer.unread + (cursor.returned.map Token.cost).getD 0

@[simp]
theorem unread_note (cursor : Cursor σ) (record : Record) :
    (cursor.note record).unread = cursor.unread := rfl

theorem cost_add_unread_scan (cursor : Cursor σ) :
    cursor.scan.1.cost + cursor.scan.2.unread ≤ cursor.unread := by
  have bound := cursor.lexer.cost_add_unread_next
  unfold scan
  split <;> rename_i returned <;> simp only [unread, returned] <;> simp <;> omega

theorem unread_scan_lt {cursor rest : Cursor σ} {token : Token}
    (step : cursor.scan = (token, rest)) (goesOn : token.kind ≠ .endOfInput) :
    rest.unread < cursor.unread := by
  have bound := cursor.cost_add_unread_scan
  simp only [step, Token.cost, goesOn, if_false] at bound
  omega

theorem last_scan {cursor rest : Cursor σ} {token : Token} (step : cursor.scan = (token, rest)) :
    rest.last = some token ∧ rest.returned = none := by
  unfold scan at step
  split at step <;> rename_i returned <;> simp only [Prod.mk.injEq] at step <;>
    obtain ⟨rfl, rfl⟩ := step <;> simp [returned]

def next (cursor : Cursor σ) : Token × Cursor σ :=
  match _ : cursor.scan with
  | (token, rest) => if _ : token.kind.isLayout then next rest else (token, rest.note (.met token))
termination_by cursor.unread
decreasing_by
  exact unread_scan_lt (by assumption) (Token.Kind.ne_endOfInput_of_isLayout (by assumption))

theorem cost_add_unread_next (cursor : Cursor σ) :
    cursor.next.1.cost + cursor.next.2.unread ≤ cursor.unread := by
  fun_induction next cursor with
  | case1 cursor token rest step layout ih =>
      have bound := cursor.cost_add_unread_scan
      simp only [step] at bound
      omega
  | case2 cursor token rest step meant =>
      have bound := cursor.cost_add_unread_scan
      simpa only [step, unread_note] using bound

theorem unread_next_le {cursor rest : Cursor σ} {token : Token}
    (step : cursor.next = (token, rest)) : rest.unread ≤ cursor.unread := by
  have bound := cursor.cost_add_unread_next
  simp only [step] at bound
  omega

theorem unread_next_lt {cursor rest : Cursor σ} {token : Token}
    (step : cursor.next = (token, rest)) (goesOn : token.kind ≠ .endOfInput) :
    rest.unread < cursor.unread := by
  have bound := cursor.cost_add_unread_next
  simp only [step, Token.cost, goesOn, if_false] at bound
  omega

theorem last_next {cursor rest : Cursor σ} {token : Token} (step : cursor.next = (token, rest)) :
    rest.last = some token ∧ rest.returned = none := by
  fun_induction next cursor with
  | case1 cursor found after scanned layout ih => exact ih step
  | case2 cursor found after scanned meant =>
      simp only [Prod.mk.injEq] at step
      obtain ⟨rfl, rfl⟩ := step
      have given := last_scan scanned
      simpa [note] using given

theorem unread_giveBack_next_le {cursor rest : Cursor σ} {token : Token}
    (step : cursor.next = (token, rest)) : rest.giveBack.unread ≤ cursor.unread := by
  have bound := cursor.cost_add_unread_next
  have ⟨given, noneWaiting⟩ := last_next step
  simp only [step] at bound
  simp only [unread, giveBack, given, noneWaiting, Option.map_some, Option.map_none,
    Option.getD_some, Option.getD_none] at bound ⊢
  omega

def peek (cursor : Cursor σ) : Token.Kind × Cursor σ :=
  let (token, rest) := cursor.next
  (token.kind, rest.giveBack)

theorem unread_peek_le (cursor : Cursor σ) : cursor.peek.2.unread ≤ cursor.unread :=
  unread_giveBack_next_le rfl

end Cursor

end Netlist
