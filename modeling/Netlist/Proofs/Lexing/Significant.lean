import Netlist.Proofs.Lexing.Mirror

set_option autoImplicit false

namespace Netlist

theorem Token.Kind.not_isLayout_iff {kind : Kind} :
    ¬ kind.isLayout ↔ kind ∉ [.blank, .newline, .comment] := by
  cases kind <;> simp [isLayout]

def Token.Kind.isSignificant (kind : Kind) : Bool :=
  kind ∉ [.blank, .newline, .comment, .endOfInput]

theorem Token.Kind.isSignificant_eq (kind : Kind) :
    kind.isSignificant = (!kind.isLayout && kind ≠ .endOfInput) := by
  cases kind <;> rfl

def Token.isSignificant (token : Token) : Bool :=
  token.kind.isSignificant

theorem Token.isSignificant_iff {token : Token} :
    token.isSignificant ↔ ¬ token.kind.isLayout ∧ token.kind ≠ .endOfInput := by
  simp [isSignificant, Kind.isSignificant_eq]

def Token.significant (text : String) : List Token :=
  (Token.scan text).filter Token.isSignificant

theorem exists_of_filter {α : Type} {counts : α -> Bool} {items front back : List α} {item : α}
    (whole : items.filter counts = front ++ item :: back) :
    exists before behind, items = before ++ item :: behind ∧ counts item ∧
      before.filter counts = front ∧ behind.filter counts = back := by
  obtain ⟨before, rest, rfl, front, later⟩ := List.filter_eq_append_iff.mp whole
  obtain ⟨passed, behind, rfl, skipped, here, back⟩ := List.filter_eq_cons_iff.mp later
  refine ⟨before ++ passed, behind, by simp, here, ?_, back⟩
  rw [List.filter_append, front, List.filter_eq_nil_iff.mpr skipped, List.append_nil]

namespace Lexer

variable {σ τ : Type} [Source σ] [Source τ]

def nextMeant (lexer : Lexer σ) : Token × Lexer σ :=
  match _ : lexer.next with
  | (token, rest) => if _ : token.kind.isLayout then nextMeant rest else (token, rest)
termination_by lexer.unread
decreasing_by
  exact unread_next_lt (by assumption) (Token.Kind.ne_endOfInput_of_isLayout (by assumption))

theorem nextMeant_of_layout {lexer rest : Lexer σ} {token : Token}
    (step : lexer.next = (token, rest)) (layout : token.kind.isLayout) :
    lexer.nextMeant = rest.nextMeant := by
  rw [nextMeant]
  split
  simp_all

theorem nextMeant_of_meant {lexer rest : Lexer σ} {token : Token}
    (step : lexer.next = (token, rest)) (meant : ¬ token.kind.isLayout) :
    lexer.nextMeant = (token, rest) := by
  rw [nextMeant]
  split
  simp_all

theorem not_isLayout_nextMeant (lexer : Lexer σ) : ¬ lexer.nextMeant.1.kind.isLayout := by
  fun_induction nextMeant lexer with
  | case1 lexer token rest step layout ih => exact ih
  | case2 lexer token rest step meant => exact meant

def after : Nat -> Lexer σ -> Lexer σ
  | 0, lexer => lexer
  | count + 1, lexer => after count lexer.nextMeant.2

def token (lexer : Lexer σ) (number : Nat) : Token :=
  (lexer.after number).nextMeant.1

theorem after_succ (lexer : Lexer σ) (count : Nat) :
    lexer.after (count + 1) = (lexer.after count).nextMeant.2 := by
  induction count generalizing lexer with
  | zero => rfl
  | succ count ih => exact ih lexer.nextMeant.2

theorem token_succ (lexer : Lexer σ) (number : Nat) :
    lexer.token (number + 1) = lexer.nextMeant.2.token number := rfl

theorem not_isLayout_token (lexer : Lexer σ) (number : Nat) :
    ¬ (lexer.token number).kind.isLayout :=
  not_isLayout_nextMeant _

section Mirror

variable {same : Origin σ -> Origin τ -> Prop} (agree : Origin.Agree same) {left : Lexer σ}
  {right : Lexer τ}

include agree

theorem mirrors_nextMeant (mirrors : left.Mirrors same right) :
    left.nextMeant.1 = right.nextMeant.1 ∧ left.nextMeant.2.Mirrors same right.nextMeant.2 := by
  -- only layout is passed over, and both sides pass over the same
  fun_induction nextMeant left generalizing right with
  | case1 left token rest step layout ih =>
      obtain ⟨after, other, further⟩ := mirrors_next agree mirrors
      rw [step] at other further
      rw [nextMeant_of_layout other layout]
      exact ih further
  | case2 left token rest step meant =>
      obtain ⟨after, other, further⟩ := mirrors_next agree mirrors
      rw [step] at other further
      rw [nextMeant_of_meant other meant]
      exact ⟨rfl, further⟩

theorem mirrors_after (mirrors : left.Mirrors same right) (count : Nat) :
    (left.after count).Mirrors same (right.after count) := by
  induction count generalizing left right with
  | zero => exact mirrors
  | succ count ih => exact ih (mirrors_nextMeant agree mirrors).2

theorem token_eq_of_mirrors (mirrors : left.Mirrors same right) (number : Nat) :
    left.token number = right.token number :=
  (mirrors_nextMeant agree (mirrors_after agree mirrors number)).1

end Mirror

def tokens (lexer : Lexer σ) : List Token :=
  match _ : lexer.next with
  | (token, rest) => if _ : token.kind = .endOfInput then [token] else token :: tokens rest
termination_by lexer.unread
decreasing_by exact unread_next_lt (by assumption) (by assumption)

theorem tokens_of_end {lexer rest : Lexer σ} {token : Token} (step : lexer.next = (token, rest))
    (ended : token.kind = .endOfInput) : lexer.tokens = [token] := by
  rw [tokens]
  split
  simp_all

theorem tokens_of_goesOn {lexer rest : Lexer σ} {token : Token}
    (step : lexer.next = (token, rest)) (goesOn : token.kind ≠ .endOfInput) :
    lexer.tokens = token :: rest.tokens := by
  rw [tokens]
  split
  simp_all

theorem gather_eq_tokens (found : Array Token) (lexer : Lexer σ) :
    (TokenStream.gather found { lexer }).1.toList = found.toList ++ lexer.tokens := by
  -- `found` grows while the list is still to be built, so it cannot stay fixed
  fun_induction tokens lexer generalizing found with
  | case1 lexer token rest step ended =>
      rw [TokenStream.gather, if_neg Bool.false_ne_true]
      simp [step, ended]
  | case2 lexer token rest step goesOn ih =>
      rw [TokenStream.gather, if_neg Bool.false_ne_true]
      simp [step, goesOn, ih]

theorem scan_eq_tokens (text : String) :
    Token.scan text = ({ source := Feed.ofText text } : Lexer Feed).tokens := by
  simp [Token.scan, TokenStream.collect, gather_eq_tokens]

def significant (lexer : Lexer σ) : List Token :=
  lexer.tokens.filter Token.isSignificant

theorem significant_of_end {lexer : Lexer σ} (ended : lexer.nextMeant.1.kind = .endOfInput) :
    lexer.significant = [] := by
  fun_induction nextMeant lexer with
  | case1 lexer token rest step layout ih =>
      rw [significant, tokens_of_goesOn step (Token.Kind.ne_endOfInput_of_isLayout layout),
        List.filter_cons_of_neg (by simp [Token.isSignificant_iff, layout])]
      exact ih ended
  | case2 lexer token rest step meant =>
      rw [significant, tokens_of_end step ended,
        List.filter_cons_of_neg (fun counts => (Token.isSignificant_iff.mp counts).2 ended)]
      rfl

theorem significant_cons {lexer : Lexer σ} (goesOn : lexer.nextMeant.1.kind ≠ .endOfInput) :
    lexer.significant = lexer.nextMeant.1 :: lexer.nextMeant.2.significant := by
  fun_induction nextMeant lexer with
  | case1 lexer token rest step layout ih =>
      rw [significant, tokens_of_goesOn step (Token.Kind.ne_endOfInput_of_isLayout layout),
        List.filter_cons_of_neg (by simp [Token.isSignificant_iff, layout])]
      exact ih goesOn
  | case2 lexer token rest step meant =>
      rw [significant, tokens_of_goesOn step goesOn,
        List.filter_cons_of_pos (by simp [Token.isSignificant_iff, meant, goesOn])]
      rfl

end Lexer

end Netlist
