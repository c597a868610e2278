import Netlist.Proofs.Language.Written
import Netlist.Proofs.Plain.Element

set_option autoImplicit false

namespace Netlist

namespace Tape

def rest (tape : Tape) (place : Nat) : List Lexeme :=
  (tape.tokens.drop place).map Token.lexeme

def Spelled (tape : Tape) : Prop :=
  ∀ token ∈ tape.tokens, Lexeme.Spells token.kind token.text.toList

theorem rest_of_goesOn {tape : Tape} {place : Nat} (goesOn : (tape.get place).kind ≠ .endOfInput) :
    tape.rest place = (tape.get place).lexeme :: tape.rest (place + 1) := by
  have inside := lt_of_goesOn goesOn
  rw [rest, rest, List.drop_eq_getElem_cons inside, get, List.getElem?_eq_getElem inside]
  rfl

theorem rest_of_kind {tape : Tape} {place : Nat} {kind : Token.Kind} (noEnd : kind ≠ .endOfInput)
    (same : (tape.get place).kind = kind) :
    tape.rest place = { kind, text := (tape.get place).text } :: tape.rest (place + 1) := by
  rw [rest_of_goesOn (same ▸ noEnd), Token.lexeme, same]

theorem Spelled.ne_endOfInput {tape : Tape} (spelled : tape.Spelled) {place : Nat}
    (inside : place < tape.tokens.length) : (tape.get place).kind ≠ .endOfInput := by
  rw [get, List.getElem?_eq_getElem inside]
  exact (spelled _ (List.getElem_mem inside)).ne_endOfInput

theorem Spelled.eq_cons {tape : Tape} (spelled : tape.Spelled) {place : Nat} {lexeme : Lexeme}
    {lexemes : List Lexeme} (same : tape.rest place = lexeme :: lexemes) :
    (tape.get place).lexeme = lexeme ∧ tape.rest (place + 1) = lexemes ∧
      (tape.get place).kind ≠ .endOfInput := by
  by_cases inside : place < tape.tokens.length
  · have goesOn := spelled.ne_endOfInput inside
    rw [rest_of_goesOn goesOn, List.cons.injEq] at same
    exact ⟨same.1, same.2, goesOn⟩
  · rw [rest, List.drop_eq_nil_of_le (Nat.le_of_not_lt inside)] at same
    simp at same

theorem Spelled.kind_eq_iff {tape : Tape} (spelled : tape.Spelled) {place : Nat}
    {kind : Token.Kind} (noEnd : kind ≠ .endOfInput) :
    (tape.get place).kind = kind ↔ Lexeme.front (tape.rest place) = some kind := by
  constructor
  · intro same
    rw [rest_of_goesOn (same ▸ noEnd), ← same]
    rfl
  · intro same
    cases found : tape.rest place with
    | nil =>
        rw [found] at same
        simp [Lexeme.front] at same
    | cons lexeme lexemes =>
        obtain ⟨here, -⟩ := spelled.eq_cons found
        rw [found] at same
        rw [← here] at same
        exact Option.some.inj same

theorem Spelled.rest {tape : Tape} (spelled : tape.Spelled) (place : Nat) :
    Lexeme.Spelled (tape.rest place) := by
  intro lexeme member
  obtain ⟨token, found, rfl⟩ := List.mem_map.mp member
  exact spelled token (List.mem_of_mem_drop found)

theorem Spelled.lexeme_eq_mark {tape : Tape} (spelled : tape.Spelled) {place : Nat}
    (mark : (tape.get place).kind.isMark) :
    (tape.get place).lexeme = .mark (tape.get place).kind := by
  have goesOn := Token.Kind.ne_endOfInput_of_isMark mark
  have here : (tape.get place).lexeme ∈ tape.rest place := by
    rw [rest_of_goesOn goesOn]
    exact List.mem_cons_self
  exact (spelled.rest place _ here).eq_mark mark

theorem spelled_ofText (text : String) : (ofText text).Spelled := by
  intro token member
  have scanned : token.lexeme ∈ (Token.scan text).map Token.lexeme :=
    List.mem_map_of_mem (List.mem_filter.mp member).1
  rw [Token.lexemes_scan, List.mem_append] at scanned
  cases scanned with
  | inl inside => exact Lexeme.spells_of_mem_ofText inside
  | inr ended =>
      have noEnd := Token.ne_endOfInput_of_mem_significant member
      exact absurd (congrArg Lexeme.kind (List.mem_singleton.mp ended)) noEnd

end Tape

namespace Plain

variable {α β : Type}

abbrev Shape (α : Type) : Type :=
  List Lexeme -> α -> List Lexeme -> Prop

def Reads (rule : Plain α) (shape : Shape α) : Prop :=
  ∀ tape, tape.Spelled -> ∀ place value rest,
    (exists after, rule tape place = (.ok value, after) ∧ tape.rest after = rest) ↔
      shape (tape.rest place) value rest

theorem Reads.congr_of_spells {rule : Plain α} {shape other : Shape α} (reads : Reads rule shape)
    (same : ∀ lexemes value rest, Lexeme.Spelled lexemes ->
      (shape lexemes value rest ↔ other lexemes value rest)) :
    Reads rule other :=
  fun tape spelled place value rest =>
    (reads tape spelled place value rest).trans (same _ _ _ (spelled.rest place))

theorem Reads.congr {rule : Plain α} {shape other : Shape α} (reads : Reads rule shape)
    (same : ∀ lexemes value rest, shape lexemes value rest ↔ other lexemes value rest) :
    Reads rule other :=
  reads.congr_of_spells fun lexemes value rest _ => same lexemes value rest

theorem bind_eq_ok {rule : Plain α} {continuation : α -> Plain β} {tape : Tape}
    {place after : Nat} {result : β} (step : (rule >>= continuation) tape place = (.ok result, after)) :
    exists value middle, rule tape place = (.ok value, middle) ∧
      continuation value tape middle = (.ok result, after) := by
  rw [bind_apply] at step
  split at step
  · rename_i value middle first
    exact ⟨value, middle, first, step⟩
  · simp at step

theorem Reads.bind {rule : Plain α} {continuation : α -> Plain β} {first : Shape α}
    {second : α -> Shape β} (reads : Reads rule first)
    (further : ∀ value, Reads (continuation value) (second value)) :
    Reads (rule >>= continuation) fun lexemes result rest =>
      exists value middle, first lexemes value middle ∧ second value middle result rest := by
  intro tape spelled place result rest
  constructor
  · intro accepted
    rcases accepted with ⟨after, step, rfl⟩
    obtain ⟨value, middle, before, behind⟩ := bind_eq_ok step
    exact ⟨value, tape.rest middle, (reads tape spelled _ _ _).mp ⟨middle, before, rfl⟩,
      (further value tape spelled _ _ _).mp ⟨after, behind, rfl⟩⟩
  · intro written
    rcases written with ⟨value, lexemes, before, behind⟩
    obtain ⟨middle, step, rfl⟩ := (reads tape spelled _ _ _).mpr before
    obtain ⟨after, other, rfl⟩ := (further value tape spelled _ _ _).mpr behind
    refine ⟨after, ?_, rfl⟩
    rw [bind_apply, step]
    exact other

theorem reads_pure (result : α) :
    Reads (pure result : Plain α) fun lexemes value rest => value = result ∧ rest = lexemes := by
  intro tape spelled place value rest
  constructor
  · intro accepted
    rcases accepted with ⟨after, step, rfl⟩
    rw [pure_apply] at step
    obtain ⟨rfl, rfl⟩ : result = value ∧ place = after := by simpa using step
    exact ⟨rfl, rfl⟩
  · intro written
    rcases written with ⟨rfl, rfl⟩
    exact ⟨place, rfl, rfl⟩

theorem reads_fail (diagnostic : Diagnostic) :
    Reads (fail diagnostic : Plain α) fun _ _ _ => False := by
  intro tape spelled place value rest
  simp [fail]

theorem reads_take_fail (diagnostic : Token -> Diagnostic) :
    Reads (take >>= fun token => (fail (diagnostic token) : Plain α)) fun _ _ _ => False := by
  intro tape spelled place value rest
  simp [take_bind, fail]

section Choice

variable (shape : String -> List Lexeme -> Prop) {kind : Token.Kind} {otherwise : Prop}

theorem choice_cons_iff {text : String} {lexemes : List Lexeme} :
    ((exists word middle, ({ kind, text } : Lexeme) :: lexemes = { kind, text := word } :: middle ∧
        shape word middle) ∨
      Lexeme.front ({ kind, text } :: lexemes) ≠ some kind ∧ otherwise) ↔ shape text lexemes := by
  constructor
  · intro written
    rcases written with ⟨word, middle, same, behind⟩ | ⟨away, -⟩
    · obtain ⟨head, rfl⟩ := List.cons.inj same
      rw [show text = word from congrArg Lexeme.text head]
      exact behind
    · exact absurd rfl away
  · intro behind
    exact .inl ⟨text, lexemes, rfl, behind⟩

theorem choice_away_iff {lexemes : List Lexeme} (away : Lexeme.front lexemes ≠ some kind) :
    ((exists word middle, lexemes = ({ kind, text := word } : Lexeme) :: middle ∧
        shape word middle) ∨
      Lexeme.front lexemes ≠ some kind ∧ otherwise) ↔ otherwise := by
  constructor
  · intro written
    rcases written with ⟨word, middle, rfl, -⟩ | ⟨-, behind⟩
    · exact absurd rfl away
    · exact behind
  · intro behind
    exact .inr ⟨away, behind⟩

end Choice

theorem reads_choice {kind : Token.Kind} {chosen other : Token -> Plain α} (shape : String -> Shape α)
    {otherwise : Shape α} (noEnd : kind ≠ .endOfInput)
    (reads : ∀ token, Reads (chosen token) (shape token.text))
    (others : Reads (take >>= other) otherwise) :
    Reads (take >>= fun token => if token.kind = kind then chosen token else other token)
      fun lexemes value rest =>
        (exists text middle, lexemes = { kind, text } :: middle ∧ shape text middle value rest) ∨
          Lexeme.front lexemes ≠ some kind ∧ otherwise lexemes value rest := by
  intro tape spelled place value rest
  by_cases same : (tape.get place).kind = kind
  · have here := Tape.rest_of_kind noEnd same
    rw [take_bind, if_pos same, reads _ tape spelled, here]
    exact (choice_cons_iff fun text middle => shape text middle value rest).symm
  · rw [take_bind, if_neg same]
    apply (others tape spelled place value rest).trans
    exact (choice_away_iff (fun text middle => shape text middle value rest)
      (mt (spelled.kind_eq_iff noEnd).mpr same)).symm

theorem expect_bind_eq (kind : Token.Kind) (continuation : Token -> Plain β) :
    (expect kind >>= continuation) = take >>= fun token =>
      if token.kind = kind then continuation token
      else fail (.unexpectedToken token kind.describe) := by
  funext tape place
  by_cases same : (tape.get place).kind = kind
  · rw [expect_bind_of_eq same, take_bind, if_pos same]
  · rw [expect_bind_of_ne same, take_bind, if_neg same, fail]

theorem reads_expect_bind {kind : Token.Kind} {continuation : Token -> Plain β}
    (shape : String -> Shape β) (noEnd : kind ≠ .endOfInput)
    (further : ∀ token, Reads (continuation token) (shape token.text)) :
    Reads (expect kind >>= continuation) fun lexemes value rest =>
      exists text middle, lexemes = { kind, text } :: middle ∧ shape text middle value rest := by
  rw [expect_bind_eq]
  apply (reads_choice shape noEnd further (reads_take_fail _)).congr
  intro lexemes value rest
  rw [and_false, or_false]

theorem cons_eq_mark_iff {kind : Token.Kind} {shape : List Lexeme -> Prop} {lexemes : List Lexeme}
    (mark : kind.isMark) (spelled : Lexeme.Spelled lexemes) :
    (exists text middle, lexemes = { kind, text } :: middle ∧ shape middle) ↔
      exists middle, lexemes = .mark kind :: middle ∧ shape middle := by
  constructor
  · intro accepted
    rcases accepted with ⟨text, middle, rfl, behind⟩
    -- there is but one way to spell a mark
    have same := (spelled _ List.mem_cons_self).eq_mark mark
    exact ⟨middle, by rw [same], behind⟩
  · intro written
    rcases written with ⟨middle, front, behind⟩
    exact ⟨kind.sign, middle, front, behind⟩

theorem reads_mark_choice {kind : Token.Kind} {chosen : Plain α} {other : Token -> Plain α}
    {shape otherwise : Shape α} (mark : kind.isMark) (reads : Reads chosen shape)
    (others : Reads (take >>= other) otherwise) :
    Reads (take >>= fun token => if token.kind = kind then chosen else other token)
      fun lexemes value rest =>
        (exists middle, lexemes = .mark kind :: middle ∧ shape middle value rest) ∨
          Lexeme.front lexemes ≠ some kind ∧ otherwise lexemes value rest := by
  refine (reads_choice (fun _ => shape) (Token.Kind.ne_endOfInput_of_isMark mark) (fun _ => reads)
    others).congr_of_spells fun lexemes value rest spelled => ?_
  rw [cons_eq_mark_iff mark spelled]

theorem reads_mark_bind {kind : Token.Kind} {continuation : Plain β} {shape : Shape β}
    (mark : kind.isMark) (further : Reads continuation shape) :
    Reads (expect kind >>= fun _ => continuation) fun lexemes value rest =>
      exists middle, lexemes = .mark kind :: middle ∧ shape middle value rest := by
  refine (reads_expect_bind (fun _ => shape) (Token.Kind.ne_endOfInput_of_isMark mark)
    fun _ => further).congr_of_spells fun lexemes value rest spelled => ?_
  rw [cons_eq_mark_iff mark spelled]

theorem reads_optional {kind : Token.Kind} {rule : Plain α} {absent : α} {shape : Shape α}
    (mark : kind.isMark) (reads : Reads rule shape) :
    Reads (optional kind rule absent) fun lexemes value rest =>
      (exists middle, lexemes = .mark kind :: middle ∧ shape middle value rest) ∨
        Lexeme.front lexemes ≠ some kind ∧ value = absent ∧ rest = lexemes := by
  have noEnd := Token.Kind.ne_endOfInput_of_isMark mark
  have chosen : Reads (optional kind rule absent) fun lexemes value rest =>
      (exists text middle, lexemes = { kind, text } :: middle ∧ shape middle value rest) ∨
        Lexeme.front lexemes ≠ some kind ∧ value = absent ∧ rest = lexemes := by
    intro tape spelled place value rest
    by_cases same : (tape.get place).kind = kind
    · have here := Tape.rest_of_kind noEnd same
      rw [optional_of_eq same, reads tape spelled, here]
      exact (choice_cons_iff fun _ middle => shape middle value rest).symm
    · rw [optional_of_ne same]
      apply (reads_pure absent tape spelled place value rest).trans
      exact (choice_away_iff (fun _ middle => shape middle value rest)
        (mt (spelled.kind_eq_iff noEnd).mpr same)).symm
  apply chosen.congr_of_spells
  intro lexemes value rest spelled
  rw [cons_eq_mark_iff mark spelled]

theorem ofNat_eq_iff {value : Nat} (fits : value ≤ PinRange.maxPin) (pin : UInt32) :
    pin = .ofNat value ↔ value = pin.toNat := by
  have small : value < UInt32.size := Nat.lt_of_le_pred (by decide) fits
  constructor
  · rintro rfl
    exact (UInt32.toNat_ofNat_of_lt' small).symm
  · rintro rfl
    exact (UInt32.ofNat_toNat).symm

theorem reads_pin :
    Reads pin fun lexemes pin rest =>
      exists text, lexemes = .digits text :: rest ∧ PinWritten text pin := by
  refine (reads_expect_bind (fun text lexemes pin rest => rest = lexemes ∧ PinWritten text pin)
    (by simp) fun token => ?_).congr ?_
  -- a number that is too large is written for no pin
  · by_cases fits : Nat.ofDigitChars 10 token.text.toList 0 ≤ PinRange.maxPin
    · simp only [fits, if_true]
      apply (reads_pure _).congr
      intro lexemes pin rest
      rw [ofNat_eq_iff fits, PinWritten, and_comm]
    · simp only [fits, if_false]
      apply (reads_fail _).congr
      intro lexemes pin rest
      constructor
      · exact False.elim
      · intro written
        rcases written with ⟨-, written⟩
        rw [PinWritten] at written
        exact fits (written ▸ Nat.le_pred_of_lt pin.toNat_lt_size)
  · intro lexemes pin rest
    constructor
    · intro accepted
      rcases accepted with ⟨text, middle, front, rfl, written⟩
      exact ⟨text, front, written⟩
    · intro written
      rcases written with ⟨text, front, written⟩
      exact ⟨text, rest, front, rfl, written⟩

def shapeOf (written : Option Token.Kind -> List Lexeme -> α -> Prop) : Shape α :=
  fun lexemes value rest =>
    exists front, lexemes = front ++ rest ∧ written (Lexeme.front rest) front value

theorem reads_width :
    Reads width fun lexemes pins rest =>
      exists text width, lexemes = .digits text :: .mark .rightBracket :: rest ∧
        PinWritten text width ∧ pins = .ofWidth width := by
  apply (reads_pin.bind fun width => reads_mark_bind rfl (reads_pure _)).congr
  intro lexemes pins rest
  constructor
  · intro accepted
    rcases accepted with ⟨width, middle, ⟨text, rfl, written⟩, last, rfl, rfl, rfl⟩
    exact ⟨text, width, rfl, written, rfl⟩
  · intro written
    rcases written with ⟨text, width, rfl, written, rfl⟩
    exact ⟨width, _, ⟨text, rfl, written⟩, _, rfl, rfl, rfl⟩

theorem reads_port : Reads port (shapeOf PortWritten) := by
  let behind (id : String) : Shape Port := fun lexemes port rest =>
    (exists text width,
      lexemes = .mark .leftBracket :: .digits text :: .mark .rightBracket :: rest ∧
        PinWritten text width ∧ port = .ofWidth id width) ∨
      Lexeme.front lexemes ≠ some .leftBracket ∧ port = .ofWidth id 1 ∧ rest = lexemes
  refine (reads_expect_bind behind (by simp) fun token => ?_).congr ?_
  · apply ((reads_optional rfl reads_width).bind fun pins => reads_pure _).congr
    intro lexemes port rest
    constructor
    · intro accepted
      rcases accepted with ⟨pins, middle, sized | ⟨alone, rfl, rfl⟩, rfl, rfl⟩
      · obtain ⟨_, rfl, digits, width, rfl, written, rfl⟩ := sized
        exact .inl ⟨digits, width, rfl, written, rfl⟩
      · exact .inr ⟨alone, rfl, rfl⟩
    · intro written
      rcases written with ⟨digits, width, rfl, written, rfl⟩ | ⟨alone, rfl, rfl⟩
      · exact ⟨_, _, .inl ⟨_, rfl, digits, width, rfl, written, rfl⟩, rfl, rfl⟩
      · exact ⟨_, _, .inr ⟨alone, rfl, rfl⟩, rfl, rfl⟩
  · intro lexemes port rest
    constructor
    · intro accepted
      rcases accepted with ⟨id, middle, rfl, sized | ⟨alone, rfl, rfl⟩⟩
      · obtain ⟨digits, width, rfl, written, rfl⟩ := sized
        exact ⟨_, rfl, .sized written⟩
      · exact ⟨_, rfl, .bare alone⟩
    · intro written
      rcases written with ⟨front, rfl, written⟩
      cases written with
      | bare alone => exact ⟨_, _, rfl, .inr ⟨alone, rfl, rfl⟩⟩
      | sized written => exact ⟨_, _, rfl, .inl ⟨_, _, rfl, written, rfl⟩⟩

theorem reads_part : Reads part (shapeOf fun _ => PartWritten) := by
  let behind (id : String) : Shape Part := fun lexemes part rest =>
    exists module, lexemes = .name module :: rest ∧ part = { id, module }
  refine (reads_expect_bind behind (by simp) fun id => ?_).congr ?_
  · refine (reads_expect_bind (fun module lexemes part rest =>
      part = { id := id.text, module } ∧ rest = lexemes) (by simp) fun _ => reads_pure _).congr ?_
    intro lexemes part rest
    constructor
    · intro accepted
      rcases accepted with ⟨module, middle, rfl, rfl, rfl⟩
      exact ⟨module, rfl, rfl⟩
    · intro written
      rcases written with ⟨module, rfl, rfl⟩
      exact ⟨module, _, rfl, rfl, rfl⟩
  · intro lexemes part rest
    constructor
    · intro accepted
      rcases accepted with ⟨id, middle, rfl, module, rfl, rfl⟩
      exact ⟨_, rfl, .intro⟩
    · intro written
      rcases written with ⟨front, rfl, written⟩
      cases written with
      | intro => exact ⟨_, _, rfl, _, rfl, rfl⟩

theorem reads_pinsFrom (first : UInt32) :
    Reads (pinsFrom first) fun lexemes pins rest =>
      lexemes = .mark .rightBracket :: rest ∧ pins = .single first ∨
        exists text last,
          lexemes = .mark .colon :: .digits text :: .mark .rightBracket :: rest ∧
            PinWritten text last ∧ pins = { first, last } := by
  have upTo : Reads (pin >>= fun last => expect .rightBracket >>= fun _ =>
      (pure { first, last } : Plain PinRange)) _ :=
    reads_pin.bind fun last => reads_mark_bind rfl (reads_pure _)
  refine (reads_mark_choice rfl (reads_pure _)
    (reads_mark_choice rfl upTo (reads_take_fail _))).congr fun lexemes pins rest => ?_
  constructor
  · intro accepted
    rcases accepted with ⟨middle, rfl, rfl, rfl⟩ | ⟨-, upTo | ⟨-, impossible⟩⟩
    · exact .inl ⟨rfl, rfl⟩
    · obtain ⟨_, rfl, last, _, ⟨text, rfl, written⟩, _, rfl, rfl, rfl⟩ := upTo
      exact .inr ⟨text, last, rfl, written, rfl⟩
    · exact impossible.elim
  · intro written
    rcases written with ⟨rfl, rfl⟩ | ⟨text, last, rfl, written, rfl⟩
    · exact .inl ⟨_, rfl, rfl, rfl⟩
    · exact .inr ⟨by simp [Lexeme.front, Lexeme.mark],
        .inl ⟨_, rfl, last, _, ⟨text, rfl, written⟩, _, rfl, rfl, rfl⟩⟩

theorem reads_pins :
    Reads pins fun lexemes pins rest =>
      exists front, .mark .leftBracket :: lexemes = front ++ rest ∧ PinsWritten front pins := by
  apply (reads_pin.bind reads_pinsFrom).congr
  intro lexemes pins rest
  constructor
  · intro accepted
    rcases accepted with ⟨first, _, ⟨low, rfl, left⟩, ⟨rfl, rfl⟩ | ⟨high, last, rfl, right, rfl⟩⟩
    · exact ⟨_, rfl, .single left⟩
    · exact ⟨_, rfl, .range left right⟩
  · intro written
    rcases written with ⟨front, whole, written⟩
    cases written with
    | single written =>
        obtain rfl := (List.cons.inj whole).2
        exact ⟨_, _, ⟨_, rfl, written⟩, .inl ⟨rfl, rfl⟩⟩
    | range left right =>
        obtain rfl := (List.cons.inj whole).2
        exact ⟨_, _, ⟨_, rfl, left⟩, .inr ⟨_, _, rfl, right, rfl⟩⟩

theorem reads_selector :
    Reads selector fun lexemes selector rest =>
      exists text, lexemes = .name text :: rest ∧ selector = some text := by
  refine (reads_expect_bind (fun text lexemes selector rest => selector = some text ∧ rest = lexemes)
    (by simp) fun token => reads_pure _).congr fun lexemes selector rest => ?_
  constructor
  · intro accepted
    rcases accepted with ⟨text, _, rfl, rfl, rfl⟩
    exact ⟨text, rfl, rfl⟩
  · intro written
    rcases written with ⟨text, rfl, rfl⟩
    exact ⟨text, _, rfl, rfl, rfl⟩

def endpointShape (name : String) : Shape Endpoint :=
  fun lexemes endpoint rest => shapeOf EndpointWritten (.name name :: lexemes) endpoint rest

theorem reads_endpoint (name : String) : Reads (endpoint name) (endpointShape name) := by
  refine ((reads_optional rfl reads_selector).bind fun selector =>
    (reads_optional rfl reads_pins).bind fun pins => reads_pure _).congr ?_
  intro lexemes endpoint rest
  constructor
  · intro accepted
    rcases accepted with ⟨selector, middle, ⟨_, rfl, text, rfl, rfl⟩ | ⟨noSelector, rfl, rfl⟩, pins,
      last, ⟨behind, rfl, front, whole, written⟩ | ⟨noPins, rfl, rfl⟩, rfl, rfl⟩
    · refine ⟨.name name :: .mark .dot :: .name text :: front, ?_, .both written⟩
      rw [List.cons_append, List.cons_append, List.cons_append, ← whole]
    · exact ⟨_, rfl, .selector noPins⟩
    · refine ⟨.name name :: front, ?_, .pins written⟩
      rw [List.cons_append, ← whole]
    · exact ⟨_, rfl, .bare noSelector noPins⟩
  · intro written
    rcases written with ⟨front, whole, written⟩
    cases written with
    | bare noSelector noPins =>
        obtain ⟨rfl, rfl⟩ := Lexeme.name_cons_inj whole
        exact ⟨_, _, .inr ⟨noSelector, rfl, rfl⟩, _, _, .inr ⟨noPins, rfl, rfl⟩, rfl, rfl⟩
    -- pins open with a bracket, which is no dot
    | pins written =>
        obtain ⟨tail, bracket⟩ := written.eq_cons
        obtain ⟨rfl, rfl⟩ := Lexeme.name_cons_inj whole
        rw [bracket]
        exact ⟨_, _, .inr ⟨by simp [Lexeme.front, Lexeme.mark], rfl, rfl⟩, _, _,
          .inl ⟨_, rfl, _, congrArg (· ++ rest) bracket.symm, written⟩, rfl, rfl⟩
    | selector noPins =>
        obtain ⟨rfl, rfl⟩ := Lexeme.name_cons_inj whole
        exact ⟨_, _, .inl ⟨_, rfl, _, rfl, rfl⟩, _, _, .inr ⟨noPins, rfl, rfl⟩, rfl, rfl⟩
    | both written =>
        obtain ⟨tail, bracket⟩ := written.eq_cons
        obtain ⟨rfl, rfl⟩ := Lexeme.name_cons_inj whole
        rw [bracket]
        exact ⟨_, _, .inl ⟨_, rfl, _, rfl, rfl⟩, _, _,
          .inl ⟨_, rfl, _, congrArg (· ++ rest) bracket.symm, written⟩, rfl, rfl⟩

theorem cons_name_iff {lexemes rest : List Lexeme} {endpoint : Endpoint} :
    (exists name middle, lexemes = .name name :: middle ∧ endpointShape name middle endpoint rest) ↔
      shapeOf EndpointWritten lexemes endpoint rest := by
  constructor
  · intro accepted
    rcases accepted with ⟨name, middle, rfl, written⟩
    exact written
  · intro written
    rcases written with ⟨front, rfl, written⟩
    obtain ⟨tail, rfl⟩ := written.eq_cons
    exact ⟨_, _, rfl, _, rfl, written⟩

theorem reads_wireSource :
    Reads wireSource fun lexemes source rest =>
      (exists text, lexemes = .digits text :: rest ∧ source = { name := text }) ∨
        shapeOf EndpointWritten lexemes source rest := by
  refine (reads_choice (fun text lexemes source rest => source = { name := text } ∧ rest = lexemes)
    (by simp) (fun token => reads_pure _) (reads_choice endpointShape (by simp)
      (fun token => reads_endpoint token.text) (reads_take_fail _))).congr ?_
  intro lexemes source rest
  rw [and_false, or_false, ← cons_name_iff]
  constructor
  · intro accepted
    rcases accepted with ⟨text, _, rfl, rfl, rfl⟩ | ⟨-, behind⟩
    · exact .inl ⟨text, rfl, rfl⟩
    · exact .inr behind
  · intro written
    rcases written with ⟨text, rfl, rfl⟩ | ⟨name, middle, rfl, behind⟩
    · exact .inl ⟨text, _, rfl, rfl, rfl⟩
    · exact .inr ⟨by simp [Lexeme.front, Lexeme.name], name, middle, rfl, behind⟩

theorem reads_wireTarget : Reads wireTarget (shapeOf EndpointWritten) :=
  (reads_expect_bind endpointShape (by simp) fun token => reads_endpoint token.text).congr
    fun _ _ _ => cons_name_iff

theorem reads_wire : Reads wire (shapeOf WireWritten) := by
  refine (reads_wireSource.bind fun source => reads_mark_bind rfl
    (reads_wireTarget.bind fun target => reads_pure _)).congr fun lexemes wire rest => ?_
  constructor
  · intro accepted
    rcases accepted with ⟨source, _, front, _, rfl, target, _, ⟨behind, rfl, right⟩, rfl, rfl⟩
    rcases front with ⟨text, rfl, rfl⟩ | ⟨before, rfl, left⟩
    · exact ⟨_, rfl, .constant right⟩
    · exact ⟨before ++ .mark .arrow :: behind, by simp, .driven left right⟩
  · intro written
    rcases written with ⟨front, rfl, written⟩
    cases written with
    | constant right =>
        exact ⟨_, _, .inl ⟨_, rfl, rfl⟩, _, rfl, _, _, ⟨_, rfl, right⟩, rfl, rfl⟩
    | @driven before behind source target left right =>
        refine ⟨source, .mark .arrow :: (behind ++ rest), .inr ⟨before, by simp, left⟩, _, rfl, _, _,
          ⟨_, rfl, right⟩, rfl, rfl⟩

end Plain

end Netlist
