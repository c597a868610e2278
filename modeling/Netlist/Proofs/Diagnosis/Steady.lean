import Netlist.Proofs.Language.Reads
import Netlist.Proofs.Lexing.Meant
import Netlist.Proofs.RoundTrip.WellFormed

set_option autoImplicit false

/-!
# What an outcome rests on

A steady rule comes to what it comes to because of the tokens that it has passed. On any tape that
has the same ones it succeeds again, or blames the token at the same place; and if that token were
replaced by others, it could have succeeded. Main statements: `Steady.bind`, `steady_take` and
`steady_optional`, from which rules are put together.
-/

namespace Netlist

def Diagnostic.moved (position : Position) : Diagnostic -> Diagnostic
  | .unexpected found expected _ => .unexpected found expected position
  | .pinOutOfRange literal _ => .pinOutOfRange literal position

theorem Diagnostic.moved_moved (first second : Position) (diagnostic : Diagnostic) :
    (diagnostic.moved first).moved second = diagnostic.moved second := by
  cases diagnostic <;> rfl

namespace Lexeme

def token (lexeme : Lexeme) (position : Position) : Token :=
  { kind := lexeme.kind, text := lexeme.text, position }

theorem meant_name {text : String} (isName : IsName text) : Meant [.name text] := by
  simpa [Meant, name, Token.Kind.isLayout] using spells_name isName

theorem meant_digits {text : String} (isNumber : IsNumber text) : Meant [.digits text] := by
  simpa [Meant, digits, Token.Kind.isLayout] using spells_digits isNumber

theorem meant_mark {kind : Token.Kind} (isMark : kind.isMark) : Meant [mark kind] := by
  have noLayout : ¬ kind.isLayout := by
    cases kind <;> simp_all [Token.Kind.isMark, Token.Kind.isLayout]
  simpa [Meant, mark, noLayout] using spells_sign isMark

end Lexeme

namespace Tape

def Alike (tape other : Tape) (place bound : Nat) : Prop :=
  ∀ between, place ≤ between -> between < bound ->
    (tape.get between).lexeme = (other.get between).lexeme

theorem Alike.mono {tape other : Tape} {place bound low high : Nat}
    (alike : tape.Alike other place bound) (le : place ≤ low) (ge : high ≤ bound) :
    tape.Alike other low high :=
  fun between above below => alike between (by omega) (by omega)

theorem Alike.kind {tape other : Tape} {place bound between : Nat}
    (alike : tape.Alike other place bound) (low : place ≤ between) (high : between < bound) :
    (tape.get between).kind = (other.get between).kind :=
  congrArg Lexeme.kind (alike between low high)

def Shows (tape : Tape) (place : Nat) (lexemes : List Lexeme) : Prop :=
  lexemes.IsPrefix (tape.rest place)

theorem shows_append {tape : Tape} {place : Nat} {front rest : List Lexeme} :
    tape.Shows place (front ++ rest) ↔
      tape.Shows place front ∧ tape.Shows (place + front.length) rest := by
  have behind : tape.rest (place + front.length) = (tape.rest place).drop front.length := by
    simp only [Tape.rest, List.map_drop, List.drop_drop]
  rw [Shows, Shows, Shows, behind]
  constructor
  · intro whole
    obtain ⟨more, whole⟩ := whole
    exact ⟨⟨rest ++ more, by simp [← whole]⟩, ⟨more, by simp [← whole]⟩⟩
  · intro both
    obtain ⟨⟨tail, whole⟩, more, same⟩ := both
    rw [← whole, List.drop_left] at same
    exact ⟨more, by rw [← whole, ← same, List.append_assoc]⟩

theorem Shows.head {tape : Tape} {place : Nat} {lexeme : Lexeme} {rest : List Lexeme}
    (shown : tape.Shows place (lexeme :: rest)) : (tape.get place).lexeme = lexeme := by
  obtain ⟨more, whole⟩ := shown
  by_cases inside : place < tape.tokens.length
  · rw [Tape.rest, List.drop_eq_getElem_cons inside, List.map_cons] at whole
    rw [get, List.getElem?_eq_getElem inside]
    exact (List.cons.inj whole).1.symm
  · rw [Tape.rest, List.drop_eq_nil_of_le (Nat.le_of_not_lt inside)] at whole
    simp at whole

theorem Shows.tail {tape : Tape} {place : Nat} {lexeme : Lexeme} {rest : List Lexeme}
    (shown : tape.Shows place (lexeme :: rest)) : tape.Shows (place + 1) rest :=
  (@shows_append tape place [lexeme] rest).mp shown |>.2

theorem Shows.alike {tape other : Tape} {place : Nat} {lexemes : List Lexeme}
    (left : tape.Shows place lexemes) (right : other.Shows place lexemes) :
    tape.Alike other place (place + lexemes.length) := by
  induction lexemes generalizing place with
  | nil => exact fun between low high => absurd high (Nat.not_lt.mpr low)
  | cons lexeme lexemes ih =>
      intro between low high
      rcases Nat.eq_or_lt_of_le low with rfl | further
      · rw [left.head, right.head]
      · have behind := ih left.tail right.tail
        rw [List.length_cons] at high
        exact behind between further (by omega)

end Tape

namespace Plain

def opensClause (kind : Token.Kind) : Prop :=
  kind = .dot ∨ kind = .leftBracket

variable {α β : Type}

/-- Other lexemes in the place of the culprit with which the run succeeds, if what comes behind
them may follow. -/
def Mends (follow : Token.Kind -> Prop) (tape : Tape) (place culprit : Nat)
    (run : Tape -> Except Diagnostic α × Nat) : Prop :=
  exists ending value, Lexeme.Meant ending ∧
    ∀ other, tape.Alike other place culprit -> other.Shows culprit ending ->
      follow (other.get (culprit + ending.length)).kind ->
        ¬ opensClause (other.get culprit).kind ∧
          run other = (.ok value, culprit + ending.length)

inductive Rests (follow : Token.Kind -> Prop) (tape : Tape) (place : Nat)
    (run : Tape -> Except Diagnostic α × Nat) : Except Diagnostic α × Nat -> Prop where
  | ok {value : α} {after : Nat} (forward : place ≤ after)
      (inside : after ≤ max place tape.tokens.length)
      -- one token is looked at behind those that are passed
      (again : ∀ other, tape.Alike other place after ->
        (tape.get after).lexeme = (other.get after).lexeme ∨ follow (other.get after).kind ->
          run other = (.ok value, after)) :
      Rests follow tape place run (.ok value, after)
  | error {diagnostic : Diagnostic} {culprit : Nat} (forward : place ≤ culprit)
      (inside : culprit ≤ max place tape.tokens.length)
      (again : ∀ other, tape.Alike other place (culprit + 1) ->
        run other = (.error (diagnostic.moved (other.get culprit).position), culprit + 1))
      (mends : Mends follow tape place culprit run) :
      Rests follow tape place run (.error diagnostic, culprit + 1)

def Steady (follow : Token.Kind -> Prop) (rule : Plain α) : Prop :=
  ∀ tape place, Rests follow tape place (fun other => rule other place) (rule tape place)

theorem steady_pure (follow : Token.Kind -> Prop) (value : α) :
    Steady follow (pure value : Plain α) :=
  fun _ place => .ok (Nat.le_refl place) (Nat.le_max_left _ _) fun _ _ _ => rfl

theorem Rests.bind_pure {follow : Token.Kind -> Prop} {tape : Tape} {place start : Nat}
    {rule : Plain α}
    (rests : Rests follow tape place (fun other => rule other start) (rule tape start))
    (result : α -> β) :
    Rests follow tape place (fun other => (rule >>= fun value => pure (result value)) other start)
      ((rule >>= fun value => pure (result value)) tape start) := by
  rw [bind_apply]
  generalize rule tape start = outcome at rests
  cases rests with
  | @ok value after forward inside again =>
      refine .ok forward inside fun other alike next => ?_
      simp only [bind_apply, again other alike next, pure_apply]
  | @error diagnostic culprit forward inside again mends =>
      refine .error forward inside (fun other alike => ?_) ?_
      · simp only [bind_apply, again other alike]
      · obtain ⟨ending, value, meant, mends⟩ := mends
        refine ⟨ending, result value, meant, fun other alike shown follows => ?_⟩
        obtain ⟨closed, success⟩ := mends other alike shown follows
        exact ⟨closed, by simp only [bind_apply, success, pure_apply]⟩

theorem Steady.bind_pure {follow : Token.Kind -> Prop} {rule : Plain α}
    (steady : Steady follow rule) (result : α -> β) :
    Steady follow (rule >>= fun value => pure (result value)) :=
  fun tape place => (steady tape place).bind_pure result

theorem Rests.under {follow : Token.Kind -> Prop} {tape : Tape} {place : Nat}
    {run longer : Tape -> Except Diagnostic α × Nat} {outcome : Except Diagnostic α × Nat}
    (rests : Rests follow tape place run outcome)
    (moves : ∀ value after, outcome = (.ok value, after) -> place < after)
    (mends : Mends follow tape place place longer)
    (same : ∀ other, tape.Alike other place (place + 1) -> longer other = run other) :
    Rests follow tape place longer outcome := by
  cases rests with
  | @ok value after forward inside again =>
      have further := moves value after rfl
      refine .ok forward inside fun other alike next => ?_
      rw [same other (alike.mono (Nat.le_refl _) further), again other alike next]
  | @error diagnostic culprit forward inside again later =>
      refine .error forward inside (fun other alike => ?_) ?_
      · rw [same other (alike.mono (Nat.le_refl _) (by omega)), again other alike]
      -- with the first token replaced the run may be another one
      · rcases Nat.eq_or_lt_of_le forward with rfl | further
        · exact mends
        · obtain ⟨ending, value, meant, later⟩ := later
          refine ⟨ending, value, meant, fun other alike shown follows => ?_⟩
          rw [same other (alike.mono (Nat.le_refl _) further)]
          exact later other alike shown follows

variable {follow : Token.Kind -> Prop} (closes : ∀ kind, follow kind -> ¬ opensClause kind)

include closes

theorem Rests.behind {tape : Tape} {low place : Nat}
    {run longer : Tape -> Except Diagnostic α × Nat} {outcome : Except Diagnostic α × Nat}
    (rests : Rests follow tape place run outcome) (le : low ≤ place)
    (bound : place ≤ max low tape.tokens.length)
    (same : ∀ other, tape.Alike other low place ->
      (tape.get place).lexeme = (other.get place).lexeme ∨ ¬ opensClause (other.get place).kind ->
        longer other = run other) :
    Rests follow tape low longer outcome := by
  cases rests with
  | @ok value after forward inside again =>
      refine .ok (by omega) (by omega) fun other alike next => ?_
      rw [same other (alike.mono (Nat.le_refl _) forward),
        again other (alike.mono le (Nat.le_refl _)) next]
      rcases Nat.eq_or_lt_of_le forward with rfl | further
      · exact next.imp_right (closes _)
      · exact .inl (alike place le further)
  | @error diagnostic culprit forward inside again mends =>
      refine .error (by omega) (by omega) (fun other alike => ?_) ?_
      · rw [same other (alike.mono (Nat.le_refl _) (by omega)) (.inl (alike place le (by omega))),
          again other (alike.mono le (Nat.le_refl _))]
      · obtain ⟨ending, value, meant, mends⟩ := mends
        refine ⟨ending, value, meant, fun other alike shown follows => ?_⟩
        obtain ⟨closed, success⟩ := mends other (alike.mono le (Nat.le_refl _)) shown follows
        refine ⟨closed, ?_⟩
        rw [same other (alike.mono (Nat.le_refl _) forward), success]
        rcases Nat.eq_or_lt_of_le forward with rfl | further
        · exact .inr closed
        · exact .inl (alike place le further)

theorem Steady.fresh {rule : Plain α} (steady : Steady follow rule) (place : Nat) (tape : Tape) :
    Mends follow tape place place fun other => rule other place := by
  -- what it asks for where nothing is left
  have rests := steady { tokens := [], finish := {} } place
  generalize rule { tokens := [], finish := {} } place = outcome at rests
  cases rests with
  | @ok value after forward inside again =>
      obtain rfl : place = after := by simpa using Nat.le_antisymm forward (by simpa using inside)
      refine ⟨[], value, by simp [Lexeme.Meant], fun other alike shown follows => ?_⟩
      exact ⟨closes _ follows, again other (fun _ low high => by omega) (.inr follows)⟩
  | @error diagnostic culprit forward inside again mends =>
      obtain rfl : place = culprit := by simpa using Nat.le_antisymm forward (by simpa using inside)
      obtain ⟨ending, value, meant, mends⟩ := mends
      refine ⟨ending, value, meant, fun other alike shown follows => ?_⟩
      exact mends other (fun _ low high => by omega) shown follows

theorem Rests.bind {tape : Tape} {place : Nat} {rule : Plain α} {continuation : α -> Plain β}
    (steady : Steady (fun kind => ¬ opensClause kind) rule)
    (further : ∀ value middle, rule tape place = (.ok value, middle) ->
      Rests follow tape middle (fun other => continuation value other middle)
        (continuation value tape middle))
    (fresh : ∀ value start,
      Mends follow tape start start fun other => continuation value other start) :
    Rests follow tape place (fun other => (rule >>= continuation) other place)
      ((rule >>= continuation) tape place) := by
  have rests := steady tape place
  rw [bind_apply]
  generalize rule tape place = outcome at rests further
  cases rests with
  | @ok value middle forward inside again =>
      refine (further value middle rfl).behind closes forward inside fun other alike next => ?_
      simp only [bind_apply, again other alike next]
  | @error diagnostic culprit forward inside again mends =>
      refine .error forward inside (fun other alike => ?_) ?_
      · simp only [bind_apply, again other alike]
      -- the first rule is mended, and what the second one asks for is put behind that
      · obtain ⟨ending, value, meant, mends⟩ := mends
        obtain ⟨more, result, meantMore, fresh⟩ := fresh value (culprit + ending.length)
        refine ⟨ending ++ more, result, Lexeme.meant_append.mpr ⟨meant, meantMore⟩, ?_⟩
        intro other alike shown follows
        obtain ⟨front, rest⟩ := Tape.shows_append.mp shown
        rw [List.length_append, ← Nat.add_assoc] at follows ⊢
        obtain ⟨closed, success⟩ := fresh other (fun _ low high => by omega) rest follows
        obtain ⟨start, before⟩ := mends other alike front closed
        exact ⟨start, by simp only [bind_apply, before, success]⟩

theorem Steady.bind {rule : Plain α} {continuation : α -> Plain β}
    (steady : Steady (fun kind => ¬ opensClause kind) rule)
    (further : ∀ value, Steady follow (continuation value)) :
    Steady follow (rule >>= continuation) :=
  fun tape _ => .bind closes steady (fun value middle _ => further value tape middle)
    fun value start => (further value).fresh closes start tape

def Accepts (follow : Token.Kind -> Prop) (continuation : Token -> Plain α) (lexeme : Lexeme) :
    Prop :=
  exists rule, Steady follow rule ∧ ∀ position, continuation (lexeme.token position) = rule

def Refuses (continuation : Token -> Plain α) (lexeme : Lexeme) : Prop :=
  exists diagnostic : Diagnostic, ∀ position,
    continuation (lexeme.token position) = fail (diagnostic.moved position)

theorem steady_take {continuation : Token -> Plain α} (sample : Lexeme)
    (meant : Lexeme.Meant [sample]) (closed : ¬ opensClause sample.kind)
    (accepts : Accepts follow continuation sample)
    (reacts : ∀ lexeme, lexeme.kind ≠ .endOfInput ∧ Accepts follow continuation lexeme ∨
      Refuses continuation lexeme) :
    Steady follow (take >>= continuation) := by
  intro tape place
  rw [take_bind]
  rcases reacts (tape.get place).lexeme with ⟨goesOn, rule, steady, same⟩ | ⟨diagnostic, same⟩
  · have inside : place < tape.tokens.length := Tape.lt_of_goesOn goesOn
    have here : continuation (tape.get place) = rule := same (tape.get place).position
    rw [here]
    refine (steady tape (place + 1)).behind closes (Nat.le_succ place) (by omega) ?_
    intro other alike _
    have there := same (other.get place).position
    rw [alike place (Nat.le_refl place) (Nat.lt_succ_self place)] at there
    exact congrFun (congrFun there other) (place + 1)
  · have here : continuation (tape.get place) = fail _ := same (tape.get place).position
    rw [here]
    refine .error (Nat.le_refl place) (Nat.le_max_left _ _) (fun other alike => ?_) ?_
    · have there := same (other.get place).position
      rw [alike place (Nat.le_refl place) (Nat.lt_succ_self place)] at there
      rw [Diagnostic.moved_moved]
      exact congrFun (congrFun there other) (place + 1)
    · obtain ⟨rule, steady, accepted⟩ := accepts
      obtain ⟨more, value, meantMore, fresh⟩ := steady.fresh closes (place + 1) tape
      refine ⟨[sample] ++ more, value, Lexeme.meant_append.mpr ⟨meant, meantMore⟩, ?_⟩
      intro other alike shown follows
      obtain ⟨front, rest⟩ := Tape.shows_append.mp shown
      rw [List.length_append, ← Nat.add_assoc] at follows ⊢
      obtain ⟨-, success⟩ := fresh other (fun _ low high => by omega) rest follows
      have there := accepted (other.get place).position
      rw [← front.head] at there closed
      exact ⟨closed, (congrFun (congrFun there other) (place + 1)).trans success⟩

theorem steady_optional {kind : Token.Kind} {rule : Plain α} {absent : α} (opens : opensClause kind)
    (steady : Steady follow rule) : Steady follow (optional kind rule absent) := by
  intro tape place
  by_cases same : (tape.get place).kind = kind
  · have inside : place < tape.tokens.length :=
      Tape.lt_of_goesOn (by rcases opens with rfl | rfl <;> simp [same])
    rw [optional_of_eq same]
    refine (steady tape (place + 1)).behind closes (Nat.le_succ place) (by omega) ?_
    intro other alike _
    rw [alike.kind (Nat.le_refl place) (Nat.lt_succ_self place)] at same
    exact optional_of_eq same
  · rw [optional_of_ne same]
    refine .ok (Nat.le_refl place) (Nat.le_max_left _ _) fun other alike next => ?_
    apply optional_of_ne
    intro present
    rcases next with here | follows
    · exact same ((congrArg Lexeme.kind here).trans present)
    · exact closes _ follows (present ▸ opens)

end Plain

end Netlist
