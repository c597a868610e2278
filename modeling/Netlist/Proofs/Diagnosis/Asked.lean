import Netlist.Proofs.Language.Numbers

set_option autoImplicit false

namespace Netlist

theorem Tape.le_of_rest {tape : Tape} {first second : Nat} (inside : second ≤ tape.tokens.length)
    (same : tape.rest first = tape.rest second) : second ≤ first := by
  have lengths := congrArg List.length same
  simp only [rest, List.length_map, List.length_drop] at lengths
  omega

namespace Plain

variable {α β ι κ : Type}

/-- The number in front of `behind` is kept, or is refused since it does not fit. If anything else
is at fault, it comes later. -/
inductive Treats (fits : Prop) (keeps : α -> Prop) (literal : String) (behind : Nat) :
    Except Diagnostic α × Nat -> Prop where
  | kept {value : α} {after : Nat} (fine : fits) (further : behind ≤ after) (kept : keeps value) :
      Treats fits keeps literal behind (.ok value, after)
  | later {diagnostic : Diagnostic} {after : Nat} (fine : fits) (further : behind < after) :
      Treats fits keeps literal behind (.error diagnostic, after)
  | refused {position : Position} (exceeds : ¬ fits) :
      Treats fits keeps literal behind (.error (.pinOutOfRange literal position), behind)

theorem Treats.mono {fits other : Prop} {keeps keepsToo : α -> Prop} {literal : String}
    {behind : Nat} {outcome : Except Diagnostic α × Nat} (treats : Treats fits keeps literal behind outcome)
    (same : fits ↔ other) (weaken : ∀ value, keeps value -> keepsToo value) :
    Treats other keepsToo literal behind outcome := by
  cases treats with
  | kept fine further kept => exact .kept (same.mp fine) further (weaken _ kept)
  | later fine further => exact .later (same.mp fine) further
  | refused exceeds => exact .refused (mt same.mpr exceeds)

def Gives (rule : Plain α) (post : α -> Prop) : Prop :=
  ∀ tape place value after, rule tape place = (.ok value, after) -> post value

theorem gives_pure {value : α} {post : α -> Prop} (holds : post value) :
    Gives (pure value : Plain α) post := by
  intro tape place other after step
  rw [pure_apply] at step
  cases step
  exact holds

theorem gives_fail (diagnostic : Diagnostic) {post : α -> Prop} :
    Gives (fail diagnostic : Plain α) post := by
  intro tape place value after step
  simp [fail] at step

theorem Gives.mono {rule : Plain α} {post other : α -> Prop} (gives : Gives rule post)
    (weaken : ∀ value, post value -> other value) : Gives rule other :=
  fun tape place value after step => weaken value (gives tape place value after step)

theorem Gives.bind {rule : Plain α} {continuation : α -> Plain β} {post : β -> Prop}
    (gives : ∀ value, Gives (continuation value) post) : Gives (rule >>= continuation) post := by
  intro tape place result after step
  obtain ⟨value, middle, -, behind⟩ := bind_eq_ok step
  exact gives value tape middle result after behind

def Forward (rule : Plain α) : Prop :=
  ∀ tape place, Comes tape place (place ≤ ·) (rule tape place)

theorem Moves.forward {least : Nat} {rule : Plain α} (moves : Moves least rule) : Forward rule :=
  fun tape place => (moves tape place).weaken (Nat.le_refl place) fun _ ⟨bound, _⟩ => by omega

theorem forward_pure (value : α) : Forward (pure value : Plain α) :=
  (moves_pure value).forward

theorem Forward.bind {rule : Plain α} {continuation : α -> Plain β} (forward : Forward rule)
    (further : ∀ value, Forward (continuation value)) : Forward (rule >>= continuation) :=
  fun tape place => (forward tape place).bind fun value middle bound =>
    (further value tape middle).weaken bound fun _ more => Nat.le_trans bound more

theorem Forward.treats {rule : Plain α} (forward : Forward rule) {fits : Prop} {keeps : α -> Prop}
    {literal : String} {behind place : Nat} {tape : Tape} (further : behind ≤ place) (fine : fits)
    (gives : Gives rule keeps) : Treats fits keeps literal behind (rule tape place) := by
  have comes := forward tape place
  rcases step : rule tape place with ⟨diagnostic | value, after⟩
  · rw [step] at comes
    obtain ⟨culprit, bound, rfl, -⟩ := comes
    exact .later fine (by omega)
  · rw [step] at comes
    exact .kept fine (Nat.le_trans further comes) (gives tape place value after step)

theorem Treats.bind {fits : Prop} {keeps : α -> Prop} {keepsToo : β -> Prop} {literal : String}
    {behind : Nat} {rule : Plain α} {continuation : α -> Plain β} {tape : Tape} {place : Nat}
    (treats : Treats fits keeps literal behind (rule tape place))
    (forward : ∀ value, Forward (continuation value))
    (still : ∀ value, keeps value -> Gives (continuation value) keepsToo) :
    Treats fits keepsToo literal behind ((rule >>= continuation) tape place) := by
  rw [bind_apply]
  generalize rule tape place = outcome at treats
  cases treats with
  | kept fine further kept => exact (forward _).treats further fine (still _ kept)
  | later fine further => exact .later fine further
  | refused exceeds => exact .refused exceeds

abbrev Call (ι : Type) : Type :=
  ι -> String -> List Lexeme -> List Lexeme -> Prop

def Numbered (tape : Tape) (literal : String) (behind : Nat) : Prop :=
  exists place, behind = place + 1 ∧ (tape.get place).lexeme = .digits literal

/-- Whatever number a rule is called to take, it treats it in this way, and it tells of no pin that
is out of range unless it was called to take it. -/
structure Asks (fits : ι -> String -> Prop) (call : Call ι) (keeps : String -> ι -> α -> Prop)
    (rule : Plain α) : Prop where
  treats : ∀ tape : Tape, tape.Spelled -> ∀ place behind use literal, behind ≤ tape.tokens.length ->
    call use literal (tape.rest place) (tape.rest behind) ->
      Treats (fits use literal) (keeps literal use) literal behind (rule tape place)
  called : ∀ tape : Tape, tape.Spelled -> ∀ place after literal position,
    rule tape place = (.error (.pinOutOfRange literal position), after) ->
      Numbered tape literal after ∧ exists use, ¬ fits use literal ∧
        call use literal (tape.rest place) (tape.rest after)

variable {fits : ι -> String -> Prop} {call other : Call ι} {keeps : String -> ι -> α -> Prop}

theorem Asks.congr_of_spells {rule : Plain α} (asks : Asks fits call keeps rule)
    (same : ∀ use literal lexemes rest, Lexeme.Spelled lexemes ->
      (call use literal lexemes rest ↔ other use literal lexemes rest)) :
    Asks fits other keeps rule where
  treats tape spelled place behind use literal inside called :=
    asks.treats tape spelled place behind use literal inside
      ((same _ _ _ _ (spelled.rest place)).mpr called)
  called tape spelled place after literal position step := by
    obtain ⟨numbered, use, exceeds, called⟩ := asks.called tape spelled _ _ _ _ step
    exact ⟨numbered, use, exceeds, (same _ _ _ _ (spelled.rest place)).mp called⟩

theorem Asks.congr {rule : Plain α} (asks : Asks fits call keeps rule)
    (same : ∀ use literal lexemes rest,
      call use literal lexemes rest ↔ other use literal lexemes rest) :
    Asks fits other keeps rule :=
  asks.congr_of_spells fun use literal lexemes rest _ => same use literal lexemes rest

theorem Asks.mono {rule : Plain α} {keepsToo : String -> ι -> α -> Prop}
    (asks : Asks fits call keeps rule)
    (weaken : ∀ literal use value, keeps literal use value -> keepsToo literal use value) :
    Asks fits call keepsToo rule where
  treats tape spelled place behind use literal inside called :=
    (asks.treats tape spelled place behind use literal inside called).mono Iff.rfl
      (weaken literal use)
  called := asks.called

theorem Asks.map {rule : Plain α} (asks : Asks fits call keeps rule)
    (allowed : κ -> String -> Prop) (name : ι -> κ)
    (same : ∀ use literal, fits use literal ↔ allowed (name use) literal) :
    Asks allowed
      (fun named literal lexemes rest =>
        exists use, name use = named ∧ call use literal lexemes rest)
      (fun literal named value => exists use, name use = named ∧ keeps literal use value) rule where
  treats tape spelled place behind named literal inside called := by
    obtain ⟨use, rfl, called⟩ := called
    exact (asks.treats tape spelled place behind use literal inside called).mono
      (same use literal) fun value kept => ⟨use, rfl, kept⟩
  called tape spelled place after literal position step := by
    obtain ⟨numbered, use, exceeds, called⟩ := asks.called tape spelled _ _ _ _ step
    exact ⟨numbered, name use, mt (same use literal).mpr exceeds, use, rfl, called⟩

theorem bind_eq_error {rule : Plain α} {continuation : α -> Plain β} {tape : Tape}
    {place after : Nat} {diagnostic : Diagnostic}
    (step : (rule >>= continuation) tape place = (.error diagnostic, after)) :
    rule tape place = (.error diagnostic, after) ∨
      exists value middle, rule tape place = (.ok value, middle) ∧
        continuation value tape middle = (.error diagnostic, after) := by
  rw [bind_apply] at step
  rcases first : rule tape place with ⟨failed | value, middle⟩
  · rw [first] at step
    cases step
    exact .inl rfl
  · rw [first] at step
    exact .inr ⟨value, middle, rfl, step⟩

theorem Asks.bind {rule : Plain α} {continuation : α -> Plain β} {shape : Shape α}
    {calls : α -> Call ι} {keepsToo : String -> ι -> β -> Prop} (asks : Asks fits call keeps rule)
    (reads : Reads rule shape)
    (further : ∀ value, Asks fits (calls value) keepsToo (continuation value))
    (forward : ∀ value, Forward (continuation value))
    (still : ∀ literal use value, keeps literal use value ->
      Gives (continuation value) (keepsToo literal use)) :
    Asks fits
      (fun use literal lexemes rest => call use literal lexemes rest ∨
        exists value middle, shape lexemes value middle ∧ calls value use literal middle rest)
      keepsToo (rule >>= continuation) where
  treats tape spelled place behind use literal inside called := by
    rcases called with here | ⟨value, lexemes, before, there⟩
    · exact (asks.treats tape spelled place behind use literal inside here).bind forward
        (still literal use)
    · obtain ⟨middle, step, rfl⟩ := (reads tape spelled _ _ _).mpr before
      rw [bind_apply, step]
      exact (further value).treats tape spelled middle behind use literal inside there
  called tape spelled place after literal position step := by
    rcases bind_eq_error step with first | ⟨value, middle, first, second⟩
    · obtain ⟨numbered, use, exceeds, here⟩ := asks.called tape spelled _ _ _ _ first
      exact ⟨numbered, use, exceeds, .inl here⟩
    · obtain ⟨numbered, use, exceeds, there⟩ := (further value).called tape spelled _ _ _ _ second
      exact ⟨numbered, use, exceeds, .inr ⟨value, tape.rest middle,
        (reads tape spelled _ _ _).mp ⟨middle, first, rfl⟩, there⟩⟩

def Quiet (rule : Plain α) : Prop :=
  ∀ tape place after literal position,
    rule tape place ≠ (.error (.pinOutOfRange literal position), after)

theorem quiet_pure (value : α) : Quiet (pure value : Plain α) := by
  intro tape place after literal position step
  rw [pure_apply] at step
  simp at step

theorem quiet_expect (kind : Token.Kind) : Quiet (expect kind) := by
  intro tape place after literal position step
  by_cases same : (tape.get place).kind = kind
  · rw [expect, take_bind, if_pos same, pure_apply] at step
    simp at step
  · rw [expect, take_bind, if_neg same] at step
    simp [fail, Diagnostic.unexpectedToken] at step

theorem Quiet.bind {rule : Plain α} {continuation : α -> Plain β} (quiet : Quiet rule)
    (further : ∀ value, Quiet (continuation value)) : Quiet (rule >>= continuation) := by
  intro tape place after literal position step
  rcases bind_eq_error step with first | ⟨value, middle, -, second⟩
  · exact quiet _ _ _ _ _ first
  · exact further value _ _ _ _ _ second

theorem Quiet.optional {kind : Token.Kind} {rule : Plain α} {absent : α} (quiet : Quiet rule) :
    Quiet (optional kind rule absent) := by
  intro tape place after literal position step
  by_cases same : (tape.get place).kind = kind
  · rw [optional_of_eq same] at step
    exact quiet _ _ _ _ _ step
  · rw [optional_of_ne same] at step
    simp at step

theorem Quiet.asks {rule : Plain α} (quiet : Quiet rule) :
    Asks fits (fun _ _ _ _ => False) keeps rule where
  treats _ _ _ _ _ _ _ called := called.elim
  called _ _ _ _ _ _ step := absurd step (quiet _ _ _ _ _)

theorem Asks.bind_quiet {rule : Plain α} {continuation : α -> Plain β}
    {keepsToo : String -> ι -> β -> Prop} (asks : Asks fits call keeps rule)
    (quiet : ∀ value, Quiet (continuation value)) (forward : ∀ value, Forward (continuation value))
    (still : ∀ literal use value, keeps literal use value ->
      Gives (continuation value) (keepsToo literal use)) :
    Asks fits call keepsToo (rule >>= continuation) where
  treats tape spelled place behind use literal inside called :=
    (asks.treats tape spelled place behind use literal inside called).bind forward
      (still literal use)
  called tape spelled place after literal position step := by
    rcases bind_eq_error step with first | ⟨value, middle, -, second⟩
    · exact asks.called tape spelled _ _ _ _ first
    · exact absurd second (quiet value _ _ _ _ _)

theorem Asks.bind_pure {rule : Plain α} (asks : Asks fits call keeps rule)
    (keepsToo : String -> ι -> β -> Prop) (result : α -> β)
    (still : ∀ literal use value, keeps literal use value -> keepsToo literal use (result value)) :
    Asks fits call keepsToo (rule >>= fun value => pure (result value)) :=
  asks.bind_quiet (fun _ => quiet_pure _) (fun _ => forward_pure _) fun literal use value kept =>
    gives_pure (still literal use value kept)

theorem asks_pure {value : α} (taken : ι -> String -> Prop)
    (holds : ∀ use literal, taken use literal -> fits use literal ∧ keeps literal use value) :
    Asks fits (fun use literal lexemes rest => taken use literal ∧ lexemes = rest) keeps
      (pure value) where
  treats _ _ _ _ use literal inside called :=
    .kept (holds use literal called.1).1 (Tape.le_of_rest inside called.2)
      (holds use literal called.1).2
  called _ _ _ _ _ _ step := absurd step (quiet_pure _ _ _ _ _ _)

theorem asks_choice (kind : Token.Kind) {chosen otherwise : Token -> Plain α}
    (calls : String -> Call ι) (noEnd : kind ≠ .endOfInput)
    (asks : ∀ token, Asks fits (calls token.text) keeps (chosen token))
    (others : Asks fits other keeps (take >>= otherwise)) :
    Asks fits
      (fun use literal lexemes rest =>
        (exists text middle,
            lexemes = { kind, text } :: middle ∧ calls text use literal middle rest) ∨
          Lexeme.front lexemes ≠ some kind ∧ other use literal lexemes rest)
      keeps
      (take >>= fun token => if token.kind = kind then chosen token else otherwise token) where
  treats tape spelled place behind use literal inside called := by
    by_cases same : (tape.get place).kind = kind
    · rw [Tape.rest_of_kind noEnd same, choice_cons_iff fun text middle =>
        calls text use literal middle (tape.rest behind)] at called
      rw [take_bind, if_pos same]
      exact (asks _).treats tape spelled _ _ _ _ inside called
    · rw [choice_away_iff (fun text middle => calls text use literal middle (tape.rest behind))
        (mt (spelled.kind_eq_iff noEnd).mpr same)] at called
      rw [take_bind, if_neg same]
      exact others.treats tape spelled place behind use literal inside called
  called tape spelled place after literal position step := by
    by_cases same : (tape.get place).kind = kind
    · rw [take_bind, if_pos same] at step
      obtain ⟨numbered, use, exceeds, called⟩ := (asks _).called tape spelled _ _ _ _ step
      exact ⟨numbered, use, exceeds, .inl ⟨_, _, Tape.rest_of_kind noEnd same, called⟩⟩
    · rw [take_bind, if_neg same] at step
      obtain ⟨numbered, use, exceeds, called⟩ := others.called tape spelled _ _ _ _ step
      exact ⟨numbered, use, exceeds, .inr ⟨mt (spelled.kind_eq_iff noEnd).mpr same, called⟩⟩

theorem quiet_unexpected (expected : String) :
    Quiet (take >>= fun token => (fail (.unexpectedToken token expected) : Plain α)) := by
  intro tape place after literal position step
  simp [take_bind, fail, Diagnostic.unexpectedToken] at step

theorem asks_expect_bind (kind : Token.Kind) {continuation : Token -> Plain α}
    (calls : String -> Call ι) (noEnd : kind ≠ .endOfInput)
    (further : ∀ token, Asks fits (calls token.text) keeps (continuation token)) :
    Asks fits
      (fun use literal lexemes rest => exists text middle,
        lexemes = { kind, text } :: middle ∧ calls text use literal middle rest)
      keeps (expect kind >>= continuation) := by
  rw [expect_bind_eq]
  refine (asks_choice kind calls noEnd further (quiet_unexpected _).asks).congr ?_
  intro use literal lexemes rest
  rw [and_false, or_false]

theorem asks_mark_bind (kind : Token.Kind) {continuation : Plain α} (mark : kind.isMark)
    (further : Asks fits call keeps continuation) :
    Asks fits
      (fun use literal lexemes rest => exists middle,
        lexemes = .mark kind :: middle ∧ call use literal middle rest)
      keeps (expect kind >>= fun _ => continuation) := by
  refine (asks_expect_bind kind (fun _ => call) (Token.Kind.ne_endOfInput_of_isMark mark)
    fun _ => further).congr_of_spells fun use literal lexemes rest spelled => ?_
  rw [cons_eq_mark_iff mark spelled]

theorem asks_optional (kind : Token.Kind) {rule : Plain α} (absent : α) (mark : kind.isMark)
    (asks : Asks fits call keeps rule) :
    Asks fits
      (fun use literal lexemes rest => exists middle,
        lexemes = .mark kind :: middle ∧ call use literal middle rest)
      keeps (optional kind rule absent) where
  treats tape spelled place behind use literal inside called := by
    obtain ⟨middle, whole, called⟩ := called
    obtain ⟨here, rfl, -⟩ := spelled.eq_cons whole
    have same : (tape.get place).kind = kind := congrArg Lexeme.kind here
    rw [optional_of_eq same]
    exact asks.treats tape spelled _ _ _ _ inside called
  called tape spelled place after literal position step := by
    by_cases same : (tape.get place).kind = kind
    · rw [optional_of_eq same] at step
      obtain ⟨numbered, use, exceeds, called⟩ := asks.called tape spelled _ _ _ _ step
      have here := Tape.rest_of_goesOn (same ▸ Token.Kind.ne_endOfInput_of_isMark mark)
      rw [spelled.lexeme_eq_mark (same ▸ mark), same] at here
      exact ⟨numbered, use, exceeds, _, here, called⟩
    · rw [optional_of_ne same] at step
      simp at step

def callOf (upTo : String -> ι -> List Lexeme -> Prop) : Call ι :=
  fun use literal lexemes rest => exists front, lexemes = front ++ rest ∧ upTo literal use front

section Elements

theorem asks_pin :
    Asks (fun (_ : Unit) => PinFits)
      (fun _ literal lexemes rest => lexemes = .digits literal :: rest)
      (fun literal _ pin => PinWritten literal pin) pin where
  treats tape spelled place behind use literal inside called := by
    obtain ⟨here, rest, goesOn⟩ := spelled.eq_cons called
    obtain rfl : place + 1 = behind :=
      Nat.le_antisymm (Tape.le_of_rest (Tape.lt_of_goesOn goesOn) rest.symm)
        (Tape.le_of_rest inside rest)
    have kind : (tape.get place).kind = .digits := congrArg Lexeme.kind here
    obtain rfl : (tape.get place).text = literal := congrArg Lexeme.text here
    rw [pin, expect_bind_of_eq kind]
    by_cases fits : Nat.ofDigitChars 10 (tape.get place).text.toList 0 ≤ PinRange.maxPin
    · simp only [fits, if_true]
      exact .kept fits (Nat.le_refl _) ((ofNat_eq_iff fits _).mp rfl)
    · simp only [fits, if_false]
      exact .refused fits
  called tape spelled place after literal position step := by
    by_cases kind : (tape.get place).kind = .digits
    · rw [pin, expect_bind_of_eq kind] at step
      by_cases fits : Nat.ofDigitChars 10 (tape.get place).text.toList 0 ≤ PinRange.maxPin
      · simp [fits, pure_apply] at step
      · simp only [fits, if_false, fail, Diagnostic.pinToken] at step
        cases step
        refine ⟨⟨place, rfl, ?_⟩, (), fits, Tape.rest_of_kind (by simp) kind⟩
        rw [Token.lexeme, kind]
        rfl
    · rw [pin, expect_bind_of_ne kind] at step
      simp [Diagnostic.unexpectedToken] at step

theorem asks_width :
    Asks (fun (_ : Unit) => PinFits)
      (fun _ literal lexemes rest => lexemes = .digits literal :: rest)
      (fun literal _ pins => pins.first = 1 ∧ PinWritten literal pins.last) width :=
  asks_pin.bind_quiet (fun _ => (quiet_expect _).bind fun _ => quiet_pure _)
    (fun _ => (moves_expect (by simp)).forward.bind fun _ => forward_pure _)
    fun _ _ width written => .bind fun _ => gives_pure ⟨rfl, written⟩

theorem asks_port :
    Asks Use.Fits (callOf PortUpTo) (fun literal use port => port.Keeps literal use) port := by
  have asks := (asks_expect_bind .name (fun _ => _) (by simp) fun id =>
    (asks_optional .leftBracket (.ofWidth 1) rfl asks_width).bind_pure
      (fun literal _ port => port.Keeps literal .width)
      (fun pins => ({ id := id.text, pins } : Port)) fun _ _ _ kept => kept).map
    Use.Fits (fun _ => .width) fun _ _ => by simp [Use.Fits, Use.isPin]
  refine (asks.congr fun use literal lexemes rest => ?_).mono fun literal use port kept => ?_
  · constructor
    · intro called
      rcases called with ⟨_, rfl, id, _, rfl, _, rfl, rfl⟩
      exact ⟨_, rfl, .width⟩
    · intro called
      rcases called with ⟨front, rfl, upTo⟩
      cases upTo with
      | width => exact ⟨(), rfl, _, _, rfl, _, rfl, rfl⟩
  · obtain ⟨_, rfl, kept⟩ := kept
    exact kept

theorem quiet_part : Quiet part :=
  (quiet_expect _).bind fun _ => (quiet_expect _).bind fun _ => quiet_pure _

theorem asks_pinsFrom (first : UInt32) :
    Asks (fun (_ : Bound) => PinFits)
      (fun bound literal lexemes rest => bound = .last ∧
        lexemes = .mark .colon :: .digits literal :: rest)
      (fun literal bound pins => PinWritten literal (pins.bound bound)) (pinsFrom first) := by
  have upTo : Asks (fun (_ : Unit) => PinFits) _
      (fun literal _ pins => PinWritten literal (pins.bound .last))
      (pin >>= fun last => expect .rightBracket >>= fun _ =>
        (pure { first, last } : Plain PinRange)) :=
    asks_pin.bind_quiet (fun _ => (quiet_expect _).bind fun _ => quiet_pure _)
      (fun _ => (moves_expect (by simp)).forward.bind fun _ => forward_pure _)
      fun _ _ last written => .bind fun _ => gives_pure written
  have last := upTo.map (fun _ => PinFits) (fun _ => Bound.last) fun _ _ => Iff.rfl
  refine (asks_choice .rightBracket (fun _ _ _ _ _ => False) (by simp)
    (fun _ => (quiet_pure _).asks) (asks_choice .colon (fun _ => _) (by simp) (fun _ => last)
      (quiet_unexpected _).asks)).congr_of_spells ?_ |>.mono ?_
  · intro bound literal lexemes rest spelled
    constructor
    · intro called
      rcases called with ⟨_, _, _, impossible⟩ | ⟨-, called | ⟨-, impossible⟩⟩
      · exact impossible.elim
      · obtain ⟨_, rfl, _, rfl, rfl⟩ := (cons_eq_mark_iff rfl spelled).mp called
        exact ⟨rfl, rfl⟩
      · exact impossible.elim
    · intro called
      rcases called with ⟨rfl, rfl⟩
      exact .inr ⟨by simp [Lexeme.front, Lexeme.mark], .inl ⟨_, _, rfl, (), rfl, rfl⟩⟩
  · intro literal bound pins kept
    obtain ⟨_, rfl, written⟩ := kept
    exact written

theorem gives_pinsFrom (first : UInt32) :
    Gives (pinsFrom first) fun pins => pins.first = first := by
  refine .bind fun token => ?_
  split_ifs with bracket colon
  · exact gives_pure rfl
  · exact .bind fun last => .bind fun _ => gives_pure rfl
  · exact gives_fail _

theorem asks_pins :
    Asks (fun (_ : Bound) => PinFits)
      (fun bound literal lexemes rest => exists front,
        .mark .leftBracket :: lexemes = front ++ rest ∧ PinsUpTo literal bound front)
      (fun literal bound pins => PinWritten literal (pins.bound bound)) pins := by
  have first := asks_pin.map (fun _ => PinFits) (fun _ => Bound.first) fun _ _ => Iff.rfl
  refine (first.bind reads_pin asks_pinsFrom (fun _ => (moves_pinsFrom _).forward) ?_).congr ?_
  · intro literal bound pin kept
    obtain ⟨_, rfl, written⟩ := kept
    refine (gives_pinsFrom pin).mono fun pins same => ?_
    rw [PinRange.bound, same]
    exact written
  · intro bound literal lexemes rest
    constructor
    · intro called
      rcases called with ⟨_, rfl, rfl⟩ | ⟨_, _, ⟨low, rfl, left⟩, rfl, rfl⟩
      · exact ⟨_, rfl, .first⟩
      · exact ⟨_, rfl, .last left⟩
    · intro called
      rcases called with ⟨front, whole, upTo⟩
      cases upTo with
      | first =>
          obtain rfl := (List.cons.inj whole).2
          exact .inl ⟨(), rfl, rfl⟩
      | last left =>
          obtain rfl := (List.cons.inj whole).2
          exact .inr ⟨_, _, ⟨_, rfl, left⟩, rfl, rfl⟩

theorem quiet_selector : Quiet selector :=
  (quiet_expect _).bind fun _ => quiet_pure _

def endpointCall (name : String) : Call Bound :=
  fun bound literal lexemes rest => callOf EndpointUpTo bound literal (.name name :: lexemes) rest

theorem asks_endpoint (name : String) :
    Asks (fun (_ : Bound) => PinFits) (endpointCall name)
      (fun literal bound endpoint => PinWritten literal (endpoint.pins.bound bound))
      (endpoint name) := by
  have none' : Asks (fun (_ : Bound) => PinFits) _ (fun _ _ _ => False)
      (optional .dot selector none) := quiet_selector.optional.asks
  refine (none'.bind (reads_optional rfl reads_selector) (fun selector =>
    (asks_optional .leftBracket .unspecified rfl asks_pins).bind_pure
      (fun literal bound endpoint => PinWritten literal (endpoint.pins.bound bound))
      (fun pins => ({ name, selector, pins } : Endpoint))
      fun _ _ _ kept => kept) ?_ fun _ _ _ kept => kept.elim).congr ?_
  · intro selector
    exact (moves_optional (by simp) (moves_pins.mono (Nat.zero_le _))).forward.bind fun _ =>
      forward_pure _
  · intro bound literal lexemes rest
    constructor
    · intro called
      rcases called with impossible | ⟨_, _, ⟨_, rfl, text, rfl, rfl⟩ | ⟨-, rfl, rfl⟩, behind, rfl,
        front, whole, upTo⟩
      · exact impossible.elim
      · refine ⟨.name name :: .mark .dot :: .name text :: front, ?_, .both upTo⟩
        rw [List.cons_append, List.cons_append, List.cons_append, ← whole]
      · refine ⟨.name name :: front, ?_, .pins upTo⟩
        rw [List.cons_append, ← whole]
    · intro called
      rcases called with ⟨front, whole, upTo⟩
      cases upTo with
      | pins upTo =>
          obtain ⟨tail, rfl⟩ := upTo.eq_cons
          obtain ⟨rfl, rfl⟩ := Lexeme.name_cons_inj whole
          exact .inr ⟨_, _, .inr ⟨by simp [Lexeme.front, Lexeme.mark], rfl, rfl⟩, _, rfl, _, rfl,
            upTo⟩
      | both upTo =>
          obtain ⟨tail, rfl⟩ := upTo.eq_cons
          obtain ⟨rfl, rfl⟩ := Lexeme.name_cons_inj whole
          exact .inr ⟨_, _, .inl ⟨_, rfl, _, rfl, rfl⟩, _, rfl, _, rfl, upTo⟩

def sourceKeeps (literal : String) (use : Use) (source : Endpoint) : Prop :=
  ∀ target, ({ source, target } : Wire).Keeps literal use

def targetKeeps (literal : String) (use : Use) (target : Endpoint) : Prop :=
  ∀ source, ({ source, target } : Wire).Keeps literal use

def sourceCall : Call Use :=
  fun use literal lexemes rest =>
    use = .constant ∧ lexemes = .digits literal :: rest ∨
      exists bound, .pin .source bound = use ∧ callOf EndpointUpTo bound literal lexemes rest

def targetCall : Call Use :=
  fun use literal lexemes rest =>
    exists bound, .pin .target bound = use ∧ callOf EndpointUpTo bound literal lexemes rest

theorem endpointCall_iff {bound : Bound} {literal : String} {lexemes rest : List Lexeme} :
    (exists name middle, lexemes = .name name :: middle ∧
        endpointCall name bound literal middle rest) ↔
      callOf EndpointUpTo bound literal lexemes rest := by
  constructor
  · intro called
    rcases called with ⟨name, middle, rfl, called⟩
    exact called
  · intro called
    rcases called with ⟨front, rfl, upTo⟩
    obtain ⟨name, tail, rfl⟩ := upTo.eq_cons
    exact ⟨name, _, rfl, _, rfl, upTo⟩

theorem asks_wireTarget : Asks Use.Fits targetCall targetKeeps wireTarget := by
  have asks := (asks_expect_bind .name endpointCall (by simp)
    fun token => asks_endpoint token.text).map Use.Fits (.pin .target)
    fun _ _ => by simp [Use.Fits, Use.isPin]
  refine (asks.congr fun use literal lexemes rest => ?_).mono
    fun literal use target kept source => ?_
  · exact exists_congr fun bound => and_congr_right fun _ => endpointCall_iff
  · obtain ⟨bound, rfl, kept⟩ := kept
    exact kept

theorem asks_constant (text : String) :
    Asks Use.Fits
      (fun use literal lexemes rest => (use = .constant ∧ literal = text) ∧ lexemes = rest)
      sourceKeeps (pure { name := text } : Plain Endpoint) := by
  refine asks_pure (fun (use : Use) literal => use = .constant ∧ literal = text)
    fun use literal taken => ?_
  obtain ⟨rfl, rfl⟩ := taken
  exact ⟨by simp [Use.Fits, Use.isPin], fun _ => rfl⟩

theorem asks_wireSource : Asks Use.Fits sourceCall sourceKeeps wireSource := by
  let constant (text : String) : Call Use := fun use literal lexemes rest =>
    (use = .constant ∧ literal = text) ∧ lexemes = rest
  let behind (text : String) : Call Use := fun use literal lexemes rest =>
    exists bound, .pin .source bound = use ∧ endpointCall text bound literal lexemes rest
  have named (text : String) : Asks Use.Fits (behind text) sourceKeeps (endpoint text) := by
    refine ((asks_endpoint text).map Use.Fits (.pin .source) fun _ _ =>
      by simp [Use.Fits, Use.isPin]).mono fun literal use source kept target => ?_
    obtain ⟨bound, rfl, kept⟩ := kept
    exact kept
  refine (asks_choice .digits constant (by simp) (fun token => asks_constant token.text)
    (asks_choice .name behind (by simp) (fun token => named token.text)
      (quiet_unexpected _).asks)).congr ?_
  intro use literal lexemes rest
  constructor
  · intro called
    rcases called with ⟨_, _, rfl, ⟨rfl, rfl⟩, rfl⟩ |
      ⟨-, ⟨name, _, rfl, bound, rfl, called⟩ | ⟨-, impossible⟩⟩
    · exact .inl ⟨rfl, rfl⟩
    · exact .inr ⟨bound, rfl, called⟩
    · exact impossible.elim
  · intro called
    rcases called with ⟨rfl, rfl⟩ | ⟨bound, rfl, called⟩
    · exact .inl ⟨literal, _, rfl, ⟨rfl, rfl⟩, rfl⟩
    · obtain ⟨name, middle, rfl, called⟩ := endpointCall_iff.mpr called
      exact .inr ⟨by simp [Lexeme.front, Lexeme.name],
        .inl ⟨name, middle, rfl, bound, rfl, called⟩⟩

theorem asks_wire :
    Asks Use.Fits (callOf WireUpTo) (fun literal use wire => wire.Keeps literal use) wire := by
  have second (source : Endpoint) := asks_mark_bind .arrow rfl
    (asks_wireTarget.bind_pure (fun literal use wire => wire.Keeps literal use)
      (fun target => ({ source, target } : Wire)) fun _ _ _ kept => kept source)
  refine (asks_wireSource.bind reads_wireSource second ?_ ?_).congr ?_
  · exact fun source => (moves_expect (by simp)).forward.bind fun _ =>
      (((moves_expect (by simp)).bind fun _ => moves_endpoint _).bind fun _ => moves_pure _).forward
  · exact fun literal use source kept => .bind fun _ => .bind fun target => gives_pure (kept target)
  · intro use literal lexemes rest
    constructor
    · intro called
      rcases called with (⟨rfl, rfl⟩ | ⟨bound, rfl, front, rfl, upTo⟩) | ⟨source, _, read, _, rfl,
        bound, rfl, behind, rfl, upTo⟩
      · exact ⟨_, rfl, .constant⟩
      · exact ⟨front, rfl, .source upTo⟩
      · rcases read with ⟨text, rfl, rfl⟩ | ⟨before, rfl, left⟩
        · exact ⟨_, rfl, .ofConstant upTo⟩
        · exact ⟨before ++ .mark .arrow :: behind, by simp, .driven left upTo⟩
    · intro called
      rcases called with ⟨front, rfl, upTo⟩
      cases upTo with
      | constant => exact .inl (.inl ⟨rfl, rfl⟩)
      | source upTo => exact .inl (.inr ⟨_, rfl, front, rfl, upTo⟩)
      | ofConstant upTo =>
          exact .inr ⟨_, _, .inl ⟨_, rfl, rfl⟩, _, rfl, _, rfl, _, rfl, upTo⟩
      | @driven before behind source bound left upTo =>
          exact .inr ⟨source, .mark .arrow :: (behind ++ rest), .inr ⟨before, by simp, left⟩, _, rfl,
            _, rfl, behind, rfl, upTo⟩

end Elements

end Plain

end Netlist
