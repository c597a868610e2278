import Netlist.Source
import Netlist.Journal

set_option autoImplicit false

/-!
# From characters to tokens

The lexer cuts a source into the longest tokens it can, and holds at most one character that it has
read too far. Lexing never fails: a character that starts no token is a token of its own.

A lexer's `unread` bounds the characters it can still deliver. Main statement: `cost_add_unread_next`,
a token other than the end of input uses some of it up.
-/

namespace Netlist

structure Lexer (σ : Type) where
  source : σ
  -- a character that was read and given back
  held : Option Char := none
  position : Position := {}
  -- the position before the last character read
  previous : Position := {}
  journal : Journal := {}

namespace Lexer

variable {σ : Type} [Source σ]

def pull (lexer : Lexer σ) : Option Char × Lexer σ :=
  match Source.pull lexer.source with
  | (.char c, source) => (some c, { lexer with source })
  | (.stop, source) => (none, { lexer with source })
  | (.failed fault, source) =>
      (none, { lexer with source, journal := lexer.journal.write (.sourceFailed fault) })

def advance (lexer : Lexer σ) (c : Char) : Lexer σ :=
  { lexer with previous := lexer.position, position := lexer.position.after c }

def read (lexer : Lexer σ) : Option Char × Lexer σ :=
  match lexer.held with
  | some c => (some c, { lexer with held := none }.advance c)
  | none =>
      match lexer.pull with
      | (some c, lexer) => (some c, lexer.advance c)
      | (none, lexer) => (none, lexer)

def giveBack (lexer : Lexer σ) (c : Char) : Lexer σ :=
  { lexer with held := some c, position := lexer.previous }

def unread (lexer : Lexer σ) : Nat :=
  Source.size lexer.source + lexer.held.toList.length

theorem pull_size_lt {lexer rest : Lexer σ} {c : Char} (pulled : lexer.pull = (some c, rest)) :
    Source.size rest.source < Source.size lexer.source ∧ rest.held = lexer.held := by
  have bound := Source.count_add_size_pull lexer.source
  unfold pull at pulled
  split at pulled <;> rename_i step <;> simp only [step, Pull.count] at bound <;>
    simp only [Prod.mk.injEq, reduceCtorEq, false_and] at pulled
  obtain ⟨-, rfl⟩ := pulled
  exact ⟨by simp only; omega, rfl⟩

theorem pull_size_le (lexer : Lexer σ) :
    Source.size lexer.pull.2.source ≤ Source.size lexer.source ∧
      lexer.pull.2.held = lexer.held := by
  have bound := Source.count_add_size_pull lexer.source
  unfold pull
  split <;> rename_i step <;> simp only [step, Pull.count] at bound <;>
    exact ⟨by simp only; omega, rfl⟩

theorem unread_read_lt {lexer rest : Lexer σ} {c : Char} (read : lexer.read = (some c, rest)) :
    rest.unread < lexer.unread := by
  unfold Lexer.read at read
  split at read
  · rename_i held
    simp only [Prod.mk.injEq] at read
    obtain ⟨-, rfl⟩ := read
    simp [unread, advance, held]
  · split at read
    · rename_i pulled
      simp only [Prod.mk.injEq] at read
      obtain ⟨-, rfl⟩ := read
      have := pull_size_lt pulled
      simp only [unread, advance, this.2]
      omega
    · simp at read

theorem unread_read_le (lexer : Lexer σ) : lexer.read.2.unread ≤ lexer.unread := by
  match step : lexer.read with
  | (some c, rest) => exact Nat.le_of_lt (unread_read_lt step)
  | (none, rest) =>
      unfold read at step
      split at step
      · simp at step
      · split at step
        · simp at step
        · rename_i pulled
          simp only [Prod.mk.injEq, true_and] at step
          subst step
          have := pull_size_le lexer
          simp only [pulled] at this
          simp only [unread, this.2]
          omega

theorem unread_giveBack_le (lexer : Lexer σ) (c : Char) :
    (lexer.giveBack c).unread ≤ lexer.unread + 1 := by
  simp only [giveBack, unread, Option.toList, List.length_singleton]
  omega

def extend (accept : Char -> Bool) (text : String) (lexer : Lexer σ) : String × Lexer σ :=
  match _ : lexer.read with
  | (none, rest) => (text, rest)
  | (some c, rest) =>
      if accept c then extend accept (text.push c) rest else (text, rest.giveBack c)
termination_by lexer.unread
decreasing_by exact unread_read_lt (by assumption)

theorem unread_extend_le (accept : Char -> Bool) (text : String) (lexer : Lexer σ) :
    (extend accept text lexer).2.unread ≤ lexer.unread := by
  fun_induction extend accept text lexer with
  | case1 text lexer rest step =>
      have := unread_read_le lexer
      simpa only [step] using this
  | case2 text lexer c rest step accepted ih =>
      exact Nat.le_trans ih (Nat.le_of_lt (unread_read_lt step))
  | case3 text lexer c rest step refused =>
      have := unread_read_lt step
      have := unread_giveBack_le rest c
      simp only
      omega

def accept (c : Char) (lexer : Lexer σ) : Bool × Lexer σ :=
  match lexer.read with
  | (none, rest) => (false, rest)
  | (some found, rest) => if found = c then (true, rest) else (false, rest.giveBack found)

theorem unread_accept_le (c : Char) (lexer : Lexer σ) :
    (accept c lexer).2.unread ≤ lexer.unread := by
  have bound := unread_read_le lexer
  unfold accept
  split <;> rename_i step
  · simpa only [step] using bound
  · have := unread_read_lt step
    rename_i found rest
    have := unread_giveBack_le rest found
    split <;> simp only <;> omega

def isBlank (c : Char) : Bool :=
  c = ' ' || c = '\t'

def isLineFeed (c : Char) : Bool :=
  c = '\n'

def delimiter? : Char -> Option Token.Kind
  | '.' => some .dot
  | ',' => some .comma
  | ';' => some .semicolon
  | ':' => some .colon
  | '[' => some .leftBracket
  | ']' => some .rightBracket
  | _ => none

def arrow (lexer : Lexer σ) : Token.Kind × String × Lexer σ :=
  match lexer.accept '>' with
  | (true, rest) => (.arrow, "->", rest)
  | (false, rest) => (.invalid, "-", rest)

def comment (lexer : Lexer σ) : Token.Kind × String × Lexer σ :=
  match lexer.accept '/' with
  | (true, rest) =>
      let (text, rest) := rest.extend (fun c => !isLineFeed c) "//"
      (.comment, text, rest)
  | (false, rest) => (.invalid, "/", rest)

def lexeme (first : Char) (lexer : Lexer σ) : Token.Kind × String × Lexer σ :=
  let text := String.singleton first
  if isBlank first then
    let (text, rest) := lexer.extend isBlank text
    (.blank, text, rest)
  else if isLineFeed first then
    let (text, rest) := lexer.extend isLineFeed text
    (.newline, text, rest)
  else if first.isDigit then
    let (text, rest) := lexer.extend Char.isDigit text
    (.digits, text, rest)
  else if first.isAlpha then
    let (text, rest) := lexer.extend Char.isAlphanum text
    (.ofWord text, text, rest)
  else if first = '-' then lexer.arrow
  else if first = '/' then lexer.comment
  else ((delimiter? first).getD .invalid, text, lexer)

/-- The next token. At the end of the source this is an empty one, as often as it is asked for. -/
def next (lexer : Lexer σ) : Token × Lexer σ :=
  match lexer.read with
  | (none, rest) => ({ kind := .endOfInput, text := "", position := lexer.position }, rest)
  | (some first, rest) =>
      let (kind, text, rest) := rest.lexeme first
      ({ kind, text, position := lexer.position }, rest)

def drain (text : String) (lexer : Lexer σ) : String × Lexer σ :=
  match _ : lexer.pull with
  | (none, rest) => (text, rest)
  | (some c, rest) => drain (text.push c) rest
termination_by Source.size lexer.source
decreasing_by exact (pull_size_lt (by assumption)).1

end Lexer

def Token.cost (token : Token) : Nat :=
  if token.kind = .endOfInput then 0 else 1

theorem Token.cost_le_one (token : Token) : token.cost ≤ 1 := by
  unfold Token.cost
  split <;> omega

namespace Lexer

variable {σ : Type} [Source σ]

theorem unread_lexeme_le (first : Char) (lexer : Lexer σ) :
    (lexer.lexeme first).2.2.unread ≤ lexer.unread := by
  have arrowBound := unread_accept_le '>' lexer
  have slashBound := unread_accept_le '/' lexer
  unfold lexeme
  split
  · exact unread_extend_le ..
  · split
    · exact unread_extend_le ..
    · split
      · exact unread_extend_le ..
      · split
        · exact unread_extend_le ..
        · split
          · unfold arrow
            split <;> rename_i step <;> simpa only [step] using arrowBound
          · split
            · unfold comment
              split <;> rename_i step <;> simp only [step] at slashBound
              · exact Nat.le_trans (unread_extend_le ..) slashBound
              · exact slashBound
            · exact Nat.le_refl _

theorem cost_add_unread_next (lexer : Lexer σ) :
    lexer.next.1.cost + lexer.next.2.unread ≤ lexer.unread := by
  have bound := unread_read_le lexer
  unfold next
  split <;> rename_i step
  · simp only [step] at bound
    simpa [Token.cost] using bound
  · rename_i first rest
    have shorter := unread_read_lt step
    have more := unread_lexeme_le first rest
    simp only
    refine Nat.le_trans (Nat.add_le_add (Token.cost_le_one _) more) ?_
    omega

theorem unread_next_lt {lexer rest : Lexer σ} {token : Token} (step : lexer.next = (token, rest))
    (goesOn : token.kind ≠ .endOfInput) : rest.unread < lexer.unread := by
  have bound := lexer.cost_add_unread_next
  simp only [step, Token.cost, goesOn, if_false] at bound
  omega

end Lexer

/-- Ends with the first end of input, which it still brings. -/
structure TokenStream (σ : Type) where
  lexer : Lexer σ
  finished : Bool := false

namespace TokenStream

variable {σ : Type} [Source σ]

def next? (stream : TokenStream σ) : Option Token × TokenStream σ :=
  if stream.finished then (none, stream)
  else
    let (token, lexer) := stream.lexer.next
    (some token, { lexer, finished := token.kind = .endOfInput })

def gather (found : Array Token) (stream : TokenStream σ) : Array Token × TokenStream σ :=
  if stream.finished then (found, stream)
  else
    match _ : stream.lexer.next with
    | (token, lexer) =>
        if _ : token.kind = .endOfInput then (found.push token, { lexer, finished := true })
        else gather (found.push token) { lexer }
termination_by stream.lexer.unread
decreasing_by exact Lexer.unread_next_lt (by assumption) (by assumption)

def collect (stream : TokenStream σ) : List Token × TokenStream σ :=
  let (tokens, stream) := stream.gather #[]
  (tokens.toList, stream)

end TokenStream

/-- The tokens of a text; the last one, and no other, is the end of input. -/
def Token.scan (text : String) : List Token :=
  (TokenStream.collect { lexer := { source := Feed.ofText text } }).1

end Netlist
