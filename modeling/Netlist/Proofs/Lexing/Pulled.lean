import Mathlib.Data.List.ReduceOption
import Netlist.Proofs.Lexing.Recorded

set_option autoImplicit false

namespace Netlist

inductive Whole (word : List Char) : List (Option Char) -> Prop where
  | goesOn : Whole word (word.map some)
  -- an end that the token ran into; the source may go on behind it
  | ended : Whole word (word.map some ++ [none])

namespace Whole

variable {word : List Char} {events before behind : List (Option Char)}

theorem cons (c : Char) (whole : Whole word events) : Whole (c :: word) (some c :: events) := by
  cases whole with
  | goesOn => exact .goesOn
  | ended => exact .ended

theorem reduceOption_map_some (word : List Char) : (word.map some).reduceOption = word := by
  rw [List.reduceOption, List.filterMap_map]
  exact List.filterMap_some

theorem reduceOption (whole : Whole word events) : events.reduceOption = word := by
  cases whole with
  | goesOn => exact reduceOption_map_some word
  | ended =>
      rw [List.reduceOption_append, reduceOption_map_some]
      exact List.append_nil word

theorem split (whole : Whole word events) (same : events = before ++ none :: behind) :
    before = word.map some ∧ behind = [] := by
  cases whole with
  | goesOn =>
      have member : none ∈ word.map some := by simp [same]
      simp at member
  | ended =>
      induction word generalizing before with
      | nil => simpa [List.singleton_eq_append_iff] using same
      | cons c word ih =>
          cases before with
          | nil => simp at same
          | cons event before =>
              rw [List.map_cons, List.cons_append, List.cons_append, List.cons.injEq] at same
              obtain ⟨rfl, rest⟩ := same
              obtain ⟨rfl, rfl⟩ := ih rest
              exact ⟨rfl, rfl⟩

end Whole

theorem end_before_held {events before behind : List (Option Char)} {held : List Char}
    (same : events ++ held.map some = before ++ none :: behind) :
    exists rest, events = before ++ none :: rest ∧ behind = rest ++ held.map some := by
  have never : none ∉ held.map some := by simp
  rcases List.append_eq_append_iff.mp same with ⟨later, -, rest⟩ | ⟨rest, here, later⟩
  · rw [rest] at never
    simp at never
  · cases rest with
    | nil =>
        rw [List.nil_append] at later
        rw [← later] at never
        simp at never
    | cons event rest =>
        obtain ⟨rfl, rfl⟩ := List.cons.inj later
        exact ⟨rest, here, rfl⟩

/-- Tokens one after another, each of them a whole word. -/
inductive Woven : List Token -> List (Option Char) -> Prop where
  | nil : Woven [] []
  | cons {token : Token} {tokens : List Token} {events more : List (Option Char)}
      (whole : Whole token.text.toList events) (further : Woven tokens more) :
      Woven (token :: tokens) (events ++ more)

namespace Woven

variable {tokens : List Token} {events before behind : List (Option Char)}

theorem reduceOption (woven : Woven tokens events) :
    events.reduceOption = Lexeme.spelling (tokens.map Token.lexeme) := by
  induction woven with
  | nil => rfl
  | cons whole further ih =>
      rw [List.reduceOption_append, whole.reduceOption, ih]
      rfl

theorem split (woven : Woven tokens events) (same : events = before ++ none :: behind) :
    exists front back, tokens = front ++ back ∧
      Lexeme.spelling (front.map Token.lexeme) = before.reduceOption ∧
      Lexeme.spelling (back.map Token.lexeme) = behind.reduceOption := by
  induction woven generalizing before with
  | nil => simp at same
  | @cons token tokens events more whole further ih =>
      rcases List.append_eq_append_iff.mp same with ⟨later, rfl, rest⟩ | ⟨rest, here, later⟩
      · obtain ⟨front, back, rfl, left, right⟩ := ih rest
        refine ⟨token :: front, back, rfl, ?_, right⟩
        rw [List.reduceOption_append, whole.reduceOption, ← left]
        rfl
      · cases rest with
        | nil =>
            -- the end is the first event behind this token
            rw [List.append_nil] at here
            obtain ⟨front, back, rfl, left, right⟩ := @ih [] later.symm
            refine ⟨token :: front, back, rfl, ?_, right⟩
            rw [← here, whole.reduceOption, List.map_cons, Lexeme.spelling_cons, left]
            exact List.append_nil _
        | cons event rest =>
            obtain ⟨rfl, rfl⟩ := List.cons.inj later
            obtain ⟨rfl, rfl⟩ := whole.split here
            refine ⟨[token], tokens, rfl, ?_, further.reduceOption.symm⟩
            rw [Whole.reduceOption_map_some]
            exact List.append_nil _

end Woven

namespace Lexer

section Pulls

variable {σ : Type} [Source σ]

theorem kind_lexeme_ne (first : Char) (lexer : Lexer σ) :
    (lexer.lexeme first).1 ≠ .endOfInput := by
  unfold lexeme
  simp only
  split_ifs
  · simp
  · simp
  · simp
  · unfold Token.Kind.ofWord
    split <;> simp
  · unfold arrow
    split <;> simp
  · unfold comment
    split <;> simp
  · unfold delimiter?
    split <;> simp

theorem next_isEnd_iff (lexer : Lexer σ) :
    lexer.next.1.kind = .endOfInput ↔ lexer.held = none ∧ lexer.pull.1 = none := by
  have nothing : lexer.next.1.kind = .endOfInput ↔ lexer.read.1 = none := by
    unfold next
    cases step : lexer.read with
    | mk found rest =>
        cases found with
        | none => simp
        | some first => simpa using kind_lexeme_ne first rest
  rw [nothing, read]
  cases held : lexer.held with
  | some c => simp
  | none =>
      cases step : lexer.pull with
      | mk found rest => cases found <;> simp

theorem nonempty_nexts {count : Nat} {lexer : Lexer σ} {token : Token}
    (member : token ∈ (lexer.nexts count).1) (goesOn : token.kind ≠ .endOfInput) :
    token.text ≠ "" := by
  induction count generalizing lexer with
  | zero => simp [nexts] at member
  | succ count ih =>
      rw [nexts_succ] at member
      cases member with
      | head => simpa using text_next_ne_nil goesOn
      | tail _ later => exact ih later

end Pulls

section Record

variable {σ : Type} {before middle after : Lexer (Recorded σ)} {events more : List (Option Char)}

/-- From `before` to `after` these events were used up: what was held and then what was pulled,
but for what is held now. -/
def Uses (before : Lexer (Recorded σ)) (events : List (Option Char))
    (after : Lexer (Recorded σ)) : Prop :=
  exists drawn, after.source.pulled = before.source.pulled ++ drawn ∧
    before.held.toList.map some ++ drawn = events ++ after.held.toList.map some

theorem Uses.refl (lexer : Lexer (Recorded σ)) : lexer.Uses [] lexer :=
  ⟨[], by simp, by simp⟩

theorem Uses.trans (first : before.Uses events middle) (second : middle.Uses more after) :
    before.Uses (events ++ more) after := by
  obtain ⟨drawn, pulled, used⟩ := first
  obtain ⟨further, pulledMore, usedMore⟩ := second
  refine ⟨drawn ++ further, by rw [pulledMore, pulled, List.append_assoc], ?_⟩
  rw [← List.append_assoc, used, List.append_assoc, usedMore, List.append_assoc]

variable [Source σ]

theorem pulled_pull (lexer : Lexer (Recorded σ)) :
    lexer.pull.2.source.pulled = lexer.source.pulled ++ [lexer.pull.1] ∧
      lexer.pull.2.held = lexer.held := by
  have recording : Source.pull lexer.source = lexer.source.pull := rfl
  unfold pull
  rw [recording, Recorded.pull]
  cases Source.pull lexer.source.source with
  | mk found rest => cases found <;> exact ⟨rfl, rfl⟩

theorem uses_read (lexer : Lexer (Recorded σ)) :
    lexer.Uses [lexer.read.1] lexer.read.2 ∧ lexer.read.2.held = none := by
  obtain ⟨pulled, same⟩ := lexer.pulled_pull
  unfold read
  cases held : lexer.held with
  | some c => exact ⟨⟨[], by simp [advance], by simp [advance, held]⟩, rfl⟩
  | none =>
      rw [held] at same
      cases step : lexer.pull with
      | mk found rest =>
          rw [step] at pulled same
          have heldNow : rest.held = none := same
          cases found with
          | none => exact ⟨⟨[none], pulled, by simp [held, heldNow]⟩, heldNow⟩
          | some c => exact ⟨⟨[some c], pulled, by simp [held, heldNow, advance]⟩, heldNow⟩

theorem uses_giveBack {lexer rest : Lexer (Recorded σ)} {c : Char}
    (step : lexer.read = (some c, rest)) : lexer.Uses [] (rest.giveBack c) := by
  obtain ⟨⟨drawn, pulled, used⟩, held⟩ := lexer.uses_read
  rw [step] at pulled used held
  have heldNow : rest.held = none := held
  refine ⟨drawn, pulled, ?_⟩
  simpa [giveBack, heldNow] using used

theorem uses_extend (accept : Char -> Bool) (text : String) (lexer : Lexer (Recorded σ)) :
    exists more events, (extend accept text lexer).1.toList = text.toList ++ more ∧
      Whole more events ∧ lexer.Uses events (extend accept text lexer).2 := by
  fun_induction extend accept text lexer with
  | case1 text lexer rest step =>
      have uses := lexer.uses_read.1
      rw [step] at uses
      exact ⟨[], _, by simp, .ended, uses⟩
  | case2 text lexer c rest step accepted ih =>
      obtain ⟨more, events, word, whole, further⟩ := ih
      have uses := lexer.uses_read.1
      rw [step] at uses
      exact ⟨c :: more, _, by simp [word], whole.cons c, uses.trans further⟩
  | case3 text lexer c rest step refused =>
      exact ⟨[], _, by simp, .goesOn, uses_giveBack step⟩

theorem uses_accept (c : Char) (lexer : Lexer (Recorded σ)) :
    match accept c lexer with
    | (true, after) => lexer.Uses [some c] after
    | (false, after) => exists events, Whole [] events ∧ lexer.Uses events after := by
  have uses := lexer.uses_read.1
  unfold accept
  cases step : lexer.read with
  | mk found rest =>
      rw [step] at uses
      cases found with
      | none => exact ⟨_, .ended, uses⟩
      | some d =>
          by_cases wanted : d = c
          · simpa [wanted] using uses
          · simpa [wanted] using ⟨[], .goesOn, uses_giveBack step⟩

theorem uses_lexeme (first : Char) (lexer : Lexer (Recorded σ)) :
    exists more events, (lexer.lexeme first).2.1.toList = first :: more ∧ Whole more events ∧
      lexer.Uses events (lexer.lexeme first).2.2 := by
  have run (accept : Char -> Bool) (kind : String -> Token.Kind) :
      let word := lexer.extend accept (String.singleton first)
      exists more events, (kind word.1, word.1, word.2).2.1.toList = first :: more ∧
        Whole more events ∧ lexer.Uses events (kind word.1, word.1, word.2).2.2 := by
    simpa using uses_extend accept (String.singleton first) lexer
  have arrowed := lexer.uses_accept '>'
  have commented := lexer.uses_accept '/'
  simp only [lexeme]
  split_ifs with blank feed digit letter dash slash
  · exact run isBlank fun _ => .blank
  · exact run isLineFeed fun _ => .newline
  · exact run Char.isDigit fun _ => .digits
  · exact run Char.isAlphanum .ofWord
  · unfold arrow
    split <;> rename_i step <;> simp only [step] at arrowed
    · exact ⟨['>'], [some '>'], by simp [dash], .goesOn, arrowed⟩
    · obtain ⟨events, whole, uses⟩ := arrowed
      exact ⟨[], events, by simp [dash], whole, uses⟩
  · unfold comment
    split <;> rename_i step <;> simp only [step] at commented
    · rename_i after
      obtain ⟨more, events, word, whole, further⟩ :=
        uses_extend (fun c => !isLineFeed c) "//" after
      exact ⟨'/' :: more, _, by simp [word, slash], whole.cons '/', commented.trans further⟩
    · obtain ⟨events, whole, uses⟩ := commented
      exact ⟨[], events, by simp [slash], whole, uses⟩
  · exact ⟨[], [], by simp, .goesOn, Uses.refl lexer⟩

theorem uses_next (lexer : Lexer (Recorded σ)) :
    exists events, Whole lexer.next.1.text.toList events ∧ lexer.Uses events lexer.next.2 := by
  have uses := lexer.uses_read.1
  unfold next
  cases step : lexer.read with
  | mk found rest =>
      rw [step] at uses
      cases found with
      | none => exact ⟨_, .ended, uses⟩
      | some first =>
          obtain ⟨more, events, word, whole, further⟩ := uses_lexeme first rest
          refine ⟨_, ?_, uses.trans further⟩
          simp only [word]
          exact whole.cons first

theorem uses_nexts (count : Nat) (lexer : Lexer (Recorded σ)) :
    exists events, Woven (lexer.nexts count).1 events ∧ lexer.Uses events (lexer.nexts count).2 := by
  induction count generalizing lexer with
  | zero => exact ⟨[], .nil, Uses.refl lexer⟩
  | succ count ih =>
      obtain ⟨events, whole, uses⟩ := lexer.uses_next
      obtain ⟨more, woven, further⟩ := ih lexer.next.2
      exact ⟨_, .cons whole woven, uses.trans further⟩

theorem exists_woven_nexts (source : σ) (count : Nat) :
    let given := ({ source := { source } } : Lexer (Recorded σ)).nexts count
    exists events, Woven given.1 events ∧
      given.2.source.pulled = events ++ given.2.held.toList.map some := by
  obtain ⟨events, woven, drawn, pulled, used⟩ :=
    uses_nexts count ({ source := { source } } : Lexer (Recorded σ))
  have all : drawn = _ := used
  have record : _ = drawn := pulled
  exact ⟨events, woven, record.trans all⟩

end Record

end Lexer

/-- The tokens given and the character held are all that was pulled, an end stands between two tokens,
and the end of input is given just where an end comes first. An iterator without an end may be
pulled from as well, since no more of it matters than was pulled. -/
theorem nexts_conserve :
    (∀ {σ : Type} [Source σ] (source : σ) (count : Nat),
      let given := ({ source := { source } } : Lexer (Recorded σ)).nexts count
      let pulled := given.2.source.pulled
      let held := given.2.held.toList
      Lexeme.spelling (given.1.map Token.lexeme) ++ held = pulled.reduceOption ∧
        (∀ token ∈ given.1, token.kind ≠ .endOfInput -> token.text ≠ "") ∧
        (∀ before behind, pulled = before ++ none :: behind ->
          exists front back, given.1 = front ++ back ∧
            Lexeme.spelling (front.map Token.lexeme) = before.reduceOption ∧
            Lexeme.spelling (back.map Token.lexeme) ++ held = behind.reduceOption) ∧
        (given.2.next.1.kind = .endOfInput ↔ given.2.held = none ∧ given.2.pull.1 = none) ∧
        given.1 = (({ source } : Lexer σ).nexts count).1) ∧
    ∀ {σ : Type} (step : σ -> Option Char × σ) (state : σ) (limit count : Nat),
      let front : Front step := { state, left := limit }
      let given := ({ source := { source := front } } : Lexer (Recorded (Front step))).nexts count
      let pulled := given.2.source.pulled
      pulled.length ≤ limit -> pulled = Front.pulls step pulled.length state := by
  constructor
  · intro σ _ source count given pulled held
    obtain ⟨events, woven, all⟩ := Lexer.exists_woven_nexts source count
    have heldHere : (held.map some).reduceOption = held := Whole.reduceOption_map_some held
    refine ⟨?_, fun token => Lexer.nonempty_nexts, fun before behind same => ?_,
      given.2.next_isEnd_iff, ?_⟩
    · rw [← woven.reduceOption, ← heldHere, ← List.reduceOption_append]
      exact congrArg List.reduceOption all.symm
    · have used : events ++ held.map some = before ++ none :: behind := all.symm.trans same
      obtain ⟨rest, here, rfl⟩ := end_before_held used
      obtain ⟨front, back, tokens, left, right⟩ := woven.split here
      exact ⟨front, back, tokens, left, by rw [right, List.reduceOption_append, heldHere]⟩
    · exact (Lexer.mirrors_nexts Recorded.agree_source ⟨⟨rfl, rfl⟩, rfl, rfl, rfl⟩ count).1
  · intro σ step state limit count front given pulled within
    exact (Front.genuine_nexts state limit count).pulled_eq within

theorem nexts_conserve_resumed :
    let resumed := ({ source := { source := Feed.ofSegments ["a-", "b"] } } :
      Lexer (Recorded Feed)).nexts 3
    let step (place : Nat) := (if place % 3 = 2 then none else some 'a', place + 1)
    let endless := ({ source := { source := { state := 0, left := 9 } } } :
      Lexer (Recorded (Front step))).nexts 2
    resumed.2.source.pulled = [some 'a', some '-', none, some 'b', none] ∧
      (exists front back, resumed.1 = front ++ back ∧
        Lexeme.spelling (front.map Token.lexeme) = ['a', '-'] ∧
        Lexeme.spelling (back.map Token.lexeme) ++ resumed.2.held.toList = ['b']) ∧
      endless.2.source.pulled = Front.pulls step 6 0 := by
  intro resumed step endless
  have record : resumed.2.source.pulled = [some 'a', some '-', none, some 'b', none] := by
    decide +kernel
  have own : endless.2.source.pulled.length = 6 := by decide +kernel
  obtain ⟨-, -, apart, -⟩ := nexts_conserve.1 (Feed.ofSegments ["a-", "b"]) 3
  refine ⟨record, apart [some 'a', some '-'] [some 'b', none] record, ?_⟩
  have drawn := nexts_conserve.2 step 0 9 2 (own.trans_le (by decide))
  exact own ▸ drawn

end Netlist
