import Netlist.Proofs.Diagnosis.Asked

set_option autoImplicit false

namespace Netlist

namespace Numbers

variable {α : Type} {numbers : Numbers α} {literal : String} {number : Nat} {use : Use}
  {values : List α}

theorem Keeps.cons (kept : numbers.Keeps literal number use values) (value : α) :
    numbers.Keeps literal (number + 1) use (value :: values) :=
  kept

theorem Keeps.append_left (kept : numbers.Keeps literal number use values) (front : List α) :
    numbers.Keeps literal (front.length + number) use (front ++ values) := by
  refine kept.imp_right fun inside => ?_
  obtain ⟨value, found, kept⟩ := inside
  refine ⟨value, ?_, kept⟩
  rw [List.getElem?_append_right (Nat.le_add_right _ _), Nat.add_sub_cancel_left, found]

theorem Keeps.append_right (kept : numbers.Keeps literal number use values) (back : List α) :
    numbers.Keeps literal number use (values ++ back) := by
  refine kept.imp_right fun inside => ?_
  obtain ⟨value, found, kept⟩ := inside
  refine ⟨value, ?_, kept⟩
  obtain ⟨low, -⟩ := List.getElem?_eq_some_iff.mp found
  rw [List.getElem?_append_left low, found]

end Numbers

namespace Plain

variable {α : Type}

structure Element.Asks (element : Element α) (phrase : Phrase α) (numbers : Numbers α) : Prop where
  reads : element.Reads phrase
  asks : Plain.Asks Use.Fits (callOf numbers.upTo) numbers.keeps element.rule
  starts : ∀ literal use lexemes, numbers.upTo literal use lexemes ->
    exists lexeme tail, lexemes = lexeme :: tail ∧ phrase.opens lexeme.kind

theorem Element.asks_ports : ports.Asks Phrase.ports Numbers.ports := by
  refine ⟨Element.reads_ports, asks_port, fun literal use lexemes upTo => ?_⟩
  cases upTo with
  | width => exact ⟨_, _, rfl, rfl⟩

theorem Element.asks_parts : parts.Asks Phrase.parts Numbers.parts := by
  refine ⟨Element.reads_parts, quiet_part.asks.congr fun use literal lexemes rest => ?_,
    fun literal use lexemes upTo => upTo.elim⟩
  exact ⟨False.elim, fun called => called.choose_spec.2⟩

theorem Element.asks_wires : wires.Asks Phrase.wires Numbers.wires := by
  refine ⟨Element.reads_wires, asks_wire, fun literal use lexemes upTo => ?_⟩
  cases upTo with
  | constant => exact ⟨_, _, rfl, rfl⟩
  | source upTo =>
      obtain ⟨name, tail, rfl⟩ := upTo.eq_cons
      exact ⟨_, _, rfl, rfl⟩
  | ofConstant upTo => exact ⟨_, _, rfl, rfl⟩
  | driven left upTo =>
      obtain ⟨tail, rfl⟩ := left.eq_cons
      exact ⟨_, _, rfl, rfl⟩

theorem Element.Asks.ne_nil {element : Element α} {phrase : Phrase α} {numbers : Numbers α}
    (counts : element.Asks phrase numbers) {literal : String} {number : Nat} {use : Use}
    {lexemes : List Lexeme} (upTo : BodyUpTo phrase numbers literal number use lexemes) :
    lexemes ≠ [] := by
  cases upTo with
  | here one =>
      obtain ⟨lexeme, tail, rfl, -⟩ := counts.starts _ _ _ one
      simp
  | between noEntry => simp
  | passed noSemicolon noEntry further => simp
  | later one further =>
      obtain ⟨lexeme, tail, rfl, -⟩ := counts.reads.regular.starts _ _ _ one
      simp

section Body

variable {element : Element α} {phrase : Phrase α} {numbers : Numbers α} {tape : Tape}

theorem forward_body (element : Element α) : Forward (body element) :=
  fun tape place => Comes.weaken (closes_body element tape place) (Nat.le_refl place)
    fun _ ⟨_, low, same, _⟩ => by omega

theorem treats_body (counts : element.Asks phrase numbers) (spelled : tape.Spelled)
    {behind number : Nat} {use : Use} {literal : String} {front : List Lexeme}
    (inside : behind ≤ tape.tokens.length)
    (upTo : BodyUpTo phrase numbers literal number use front) {place : Nat}
    (whole : tape.rest place = front ++ tape.rest behind) :
    Treats (use.Fits literal) (numbers.Keeps literal number use) literal behind
      (body element tape place) := by
  have noSemicolon {kind : Token.Kind} (opens : phrase.opens kind) : kind ≠ .semicolon :=
    fun semicolon => counts.reads.regular.semicolon (semicolon ▸ opens)
  -- along the way it is written; only the entry that has the number looks into it
  induction upTo generalizing place with
  | here one =>
      obtain ⟨lexeme, tail, front, opens⟩ := counts.starts _ _ _ one
      obtain ⟨same, -, goesOn⟩ := spelled.eq_cons (front ▸ whole)
      rw [← same] at opens
      have treats := counts.asks.treats tape spelled _ _ _ _ inside ⟨_, whole, one⟩
      rw [body_of_opens (noSemicolon opens) goesOn (counts.reads.opens ▸ opens)]
      exact treats.bind (fun _ => (forward_body element).bind fun _ => forward_pure _)
        fun value kept => .bind fun values => gives_pure (.inr ⟨value, rfl, kept⟩)
  | between noEntry =>
      obtain ⟨same, left, goesOn⟩ := spelled.eq_cons whole
      have digits : (tape.get place).kind = .digits := congrArg Lexeme.kind same
      rw [← digits, ← counts.reads.opens] at noEntry
      rw [body_of_passed (by simp [digits]) goesOn noEntry]
      exact (forward_body element).treats (Tape.le_of_rest inside left)
        (by simp [Use.Fits, Use.isPin]) fun _ _ _ _ _ => .inl rfl
  | passed noSemicolon noEntry further ih =>
      obtain ⟨same, left, goesOn⟩ := spelled.eq_cons whole
      rw [← same] at noSemicolon noEntry
      rw [body_of_passed noSemicolon goesOn (by rw [counts.reads.opens]; exact noEntry)]
      exact ih left
  | @later number use lexemes rest value one further ih =>
      obtain ⟨lexeme, more, front, opens⟩ := counts.reads.regular.starts _ _ _ one
      rw [List.append_assoc] at whole
      obtain ⟨same, -, goesOn⟩ := spelled.eq_cons (front ▸ whole)
      rw [← same] at opens
      rw [← Lexeme.front_append (counts.ne_nil further) (tape.rest behind)] at one
      obtain ⟨middle, step, left⟩ :=
        (counts.reads.reads tape spelled _ _ _).mpr ⟨lexemes, whole, one⟩
      rw [body_of_opens (noSemicolon opens) goesOn (counts.reads.opens ▸ opens), bind_apply, step]
      exact (ih left).bind (fun _ => forward_pure _) fun values kept => gives_pure (kept.cons value)

theorem called_body (counts : element.Asks phrase numbers) (spelled : tape.Spelled)
    {place after : Nat} {literal : String} {position : Position}
    (step : body element tape place = (.error (.pinOutOfRange literal position), after)) :
    Numbered tape literal after ∧ exists number use, ¬ use.Fits literal ∧
      exists front, tape.rest place = front ++ tape.rest after ∧
        BodyUpTo phrase numbers literal number use front := by
  fun_induction body element tape place with
  | case1 place semicolon => simp at step
  | case2 place noSemicolon ended => simp [Diagnostic.unexpectedToken] at step
  | case3 place noSemicolon goesOn opens diagnostic last failed =>
      cases step
      obtain ⟨numbered, use, exceeds, front, whole, upTo⟩ :=
        counts.asks.called tape spelled _ _ _ _ failed
      exact ⟨numbered, 0, use, exceeds, front, whole, .here upTo⟩
  | case4 place noSemicolon goesOn opens value middle one diagnostic last failed ih =>
      cases step
      obtain ⟨numbered, number, use, exceeds, front, whole, upTo⟩ := ih failed
      obtain ⟨lexemes, here, written⟩ :=
        (counts.reads.reads tape spelled _ _ _).mp ⟨middle, one, rfl⟩
      rw [whole, Lexeme.front_append (counts.ne_nil upTo)] at written
      exact ⟨numbered, number + 1, use, exceeds, lexemes ++ front,
        by rw [here, whole, List.append_assoc], .later written upTo⟩
  | case5 place noSemicolon goesOn opens value middle one values last more ih => simp at step
  | case6 place noSemicolon goesOn passed ih =>
      obtain ⟨numbered, number, use, exceeds, front, whole, upTo⟩ := ih step
      have noEntry : ¬ phrase.opens (tape.get place).kind := counts.reads.opens ▸ passed
      refine ⟨numbered, number, use, exceeds, (tape.get place).lexeme :: front, ?_,
        .passed noSemicolon noEntry upTo⟩
      rw [Tape.rest_of_goesOn goesOn, whole, List.cons_append]

end Body

abbrev AsksList (upTo : String -> Nat -> Use -> List Lexeme -> Prop) (numbers : Numbers α)
    (rule : Plain (List α)) : Prop :=
  Asks (fun (slot : Nat × Use) => slot.2.Fits)
    (callOf fun literal slot => upTo literal slot.1 slot.2)
    (fun literal slot values => numbers.Keeps literal slot.1 slot.2 values) rule

theorem asks_body {element : Element α} {phrase : Phrase α} {numbers : Numbers α}
    (counts : element.Asks phrase numbers) :
    AsksList (BodyUpTo phrase numbers) numbers (body element) where
  treats tape spelled place behind slot literal inside called := by
    obtain ⟨front, whole, upTo⟩ := called
    exact treats_body counts spelled inside upTo whole
  called tape spelled place after literal position step := by
    obtain ⟨numbered, number, use, exceeds, front, whole, upTo⟩ := called_body counts spelled step
    exact ⟨numbered, (number, use), exceeds, front, whole, upTo⟩

section Segments

variable {tape : Tape}

theorem forward_segments : Forward segments :=
  fun tape place => Comes.weaken (ends_segments tape place) (Nat.le_refl place)
    fun _ ⟨_, low, same, _⟩ => by omega

theorem forward_segmentsBehind (values : List Wire) : Forward (segmentsBehind values) := by
  intro tape place
  by_cases opens : wires.opens (tape.get place).kind
  · rw [segmentsBehind, if_pos opens]
    exact (forward_segments.bind fun _ => forward_pure _) tape place
  · rw [segmentsBehind, if_neg opens]
    exact Nat.le_refl place

theorem gives_segmentsBehind (values : List Wire) :
    Gives (segmentsBehind values) fun all => exists more, all = values ++ more := by
  have further : Gives (segments >>= fun more => pure (values ++ more)) fun all =>
      exists more, all = values ++ more :=
    .bind fun more => gives_pure ⟨more, rfl⟩
  intro tape place all after step
  by_cases opens : wires.opens (tape.get place).kind
  · rw [segmentsBehind, if_pos opens] at step
    exact further tape place all after step
  · rw [segmentsBehind, if_neg opens] at step
    cases step
    exact ⟨[], (List.append_nil _).symm⟩

theorem SegmentsUpTo.ne_nil {literal : String} {number : Nat} {use : Use} {lexemes : List Lexeme}
    (upTo : SegmentsUpTo literal number use lexemes) : lexemes ≠ [] := by
  cases upTo with
  | one upTo => exact Element.asks_wires.ne_nil upTo
  | more written opens further => simp [written.ne_nil Phrase.regular_wires]

theorem treats_segments (spelled : tape.Spelled) {behind number : Nat} {use : Use}
    {literal : String} {front : List Lexeme} (inside : behind ≤ tape.tokens.length)
    (upTo : SegmentsUpTo literal number use front) {place : Nat}
    (whole : tape.rest place = front ++ tape.rest behind) :
    Treats (use.Fits literal) (Numbers.wires.Keeps literal number use) literal behind
      (segments tape place) := by
  induction upTo generalizing place with
  | one upTo =>
      rw [segments_eq]
      refine (treats_body Element.asks_wires spelled inside upTo whole).bind forward_segmentsBehind
        fun values kept => (gives_segmentsBehind values).mono fun all further => ?_
      obtain ⟨more, rfl⟩ := further
      exact kept.append_right more
  | @more number use lexemes rest values written opens further ih =>
      rw [List.append_assoc] at whole
      obtain ⟨middle, step, left⟩ := body_of_written Element.reads_wires spelled written whole
      rw [← Lexeme.front_append (SegmentsUpTo.ne_nil further) (tape.rest behind), ← left,
        ← opens_iff spelled] at opens
      rw [segments_eq, bind_apply, step]
      simp only [segmentsBehind, if_pos opens]
      exact (ih left).bind (fun _ => forward_pure _)
        fun more kept => gives_pure (kept.append_left values)

theorem called_segments (spelled : tape.Spelled) {place after : Nat} {literal : String}
    {position : Position}
    (step : segments tape place = (.error (.pinOutOfRange literal position), after)) :
    Numbered tape literal after ∧ exists number use, ¬ use.Fits literal ∧
      exists front, tape.rest place = front ++ tape.rest after ∧
        SegmentsUpTo literal number use front := by
  fun_induction segments tape place with
  | case1 place diagnostic last failed =>
      cases step
      obtain ⟨numbered, number, use, exceeds, front, whole, upTo⟩ :=
        called_body Element.asks_wires spelled failed
      exact ⟨numbered, number, use, exceeds, front, whole, .one upTo⟩
  | case2 place values middle found opens diagnostic last failed ih =>
      cases step
      obtain ⟨numbered, number, use, exceeds, front, whole, upTo⟩ := ih failed
      obtain ⟨lexemes, here, written⟩ := written_of_body Element.reads_wires spelled found
      rw [opens_iff spelled, whole, Lexeme.front_append (SegmentsUpTo.ne_nil upTo)] at opens
      exact ⟨numbered, values.length + number, use, exceeds, lexemes ++ front,
        by rw [here, whole, List.append_assoc], .more written opens upTo⟩
  | case3 place values middle found opens more last followed ih => simp at step
  | case4 place values middle found done => simp at step

theorem asks_segments : AsksList SegmentsUpTo Numbers.wires segments where
  treats tape spelled place behind slot literal inside called := by
    obtain ⟨front, whole, upTo⟩ := called
    exact treats_segments spelled inside upTo whole
  called tape spelled place after literal position step := by
    obtain ⟨numbered, number, use, exceeds, front, whole, upTo⟩ := called_segments spelled step
    exact ⟨numbered, (number, use), exceeds, front, whole, upTo⟩

end Segments

def statementCall (heading : Heading) (upTo : String -> Nat -> Use -> List Lexeme -> Prop) :
    Call Slot :=
  fun slot literal lexemes rest =>
    slot.heading = heading ∧ callOf (StatementUpTo upTo) slot literal lexemes rest

abbrev AsksStatement (heading : Heading) (upTo : String -> Nat -> Use -> List Lexeme -> Prop)
    (numbers : Numbers α) (rule : Plain (List α)) : Prop :=
  Asks (fun (slot : Slot) => slot.use.Fits) (statementCall heading upTo)
    (fun literal slot values => slot.heading = heading ∧
      numbers.Keeps literal slot.number slot.use values) rule

theorem asks_statement (heading : Heading) {upTo : String -> Nat -> Use -> List Lexeme -> Prop}
    {numbers : Numbers α} {entries : Plain (List α)} (asks : AsksList upTo numbers entries) :
    AsksStatement heading upTo numbers (statement heading entries) := by
  have named := (asks_mark_bind (.keyword heading) rfl (asks_mark_bind .colon rfl asks)).map
    (fun slot => slot.use.Fits) (fun slot => ({ heading, number := slot.1, use := slot.2 } : Slot))
    fun _ _ => Iff.rfl
  refine (named.congr fun slot literal lexemes rest => ?_).mono fun literal slot values kept => ?_
  · constructor
    · intro called
      rcases called with ⟨_, rfl, _, rfl, _, rfl, front, rfl, upTo⟩
      exact ⟨rfl, _, rfl, .intro upTo⟩
    · intro called
      rcases called with ⟨rfl, front, rfl, upTo⟩
      cases upTo with
      | intro inside => exact ⟨(slot.number, slot.use), rfl, _, rfl, _, rfl, _, rfl, inside⟩
  · obtain ⟨_, rfl, kept⟩ := kept
    exact ⟨rfl, kept⟩

theorem forward_statement (heading : Heading) {entries : Plain (List α)}
    (forward : Forward entries) : Forward (statement heading entries) :=
  (moves_expect (by simp)).forward.bind fun _ =>
    (moves_expect (by simp)).forward.bind fun _ => forward

theorem programCall_iff {slot : Slot} {literal : String} {lexemes rest : List Lexeme} :
    (statementCall .inputs (BodyUpTo Phrase.ports Numbers.ports) slot literal lexemes rest ∨
      exists first behind,
        shapeOfAny (StatementWritten .inputs (BodyWritten Phrase.ports)) lexemes first behind ∧
        (statementCall .outputs (BodyUpTo Phrase.ports Numbers.ports) slot literal behind rest ∨
          exists second later,
            shapeOfAny (StatementWritten .outputs (BodyWritten Phrase.ports)) behind second later ∧
            (statementCall .parts (BodyUpTo Phrase.parts Numbers.parts) slot literal later rest ∨
              exists third last,
                shapeOfAny (StatementWritten .parts (BodyWritten Phrase.parts)) later third last ∧
                statementCall .wires SegmentsUpTo slot literal last rest))) ↔
      callOf ProgramUpTo slot literal lexemes rest := by
  constructor
  · intro called
    rcases called with ⟨here, front, rfl, upTo⟩ | ⟨first, _, ⟨inputs, rfl, inputsWritten⟩,
      ⟨here, front, rfl, upTo⟩ | ⟨second, _, ⟨outputs, rfl, outputsWritten⟩,
        ⟨here, front, rfl, upTo⟩ | ⟨third, _, ⟨parts, rfl, partsWritten⟩, here, front, rfl, upTo⟩⟩⟩
    · exact ⟨front, rfl, .inputs here upTo⟩
    · exact ⟨inputs ++ front, by simp, .outputs here inputsWritten upTo⟩
    · exact ⟨inputs ++ outputs ++ front, by simp, .parts here inputsWritten outputsWritten upTo⟩
    · exact ⟨inputs ++ outputs ++ parts ++ front, by simp,
        .wires here inputsWritten outputsWritten partsWritten upTo⟩
  · intro called
    rcases called with ⟨front, rfl, upTo⟩
    cases upTo with
    | inputs here upTo => exact .inl ⟨here, front, rfl, upTo⟩
    | @outputs inputs lexemes first here inputsWritten upTo =>
        exact .inr ⟨first, _, ⟨inputs, List.append_assoc .., inputsWritten⟩,
          .inl ⟨here, lexemes, rfl, upTo⟩⟩
    | @parts inputs outputs lexemes first second here inputsWritten outputsWritten upTo =>
        exact .inr ⟨first, outputs ++ (lexemes ++ rest), ⟨inputs, by simp, inputsWritten⟩,
          .inr ⟨second, _, ⟨outputs, rfl, outputsWritten⟩, .inl ⟨here, lexemes, rfl, upTo⟩⟩⟩
    | @wires inputs outputs parts lexemes first second third here inputsWritten outputsWritten
        partsWritten upTo =>
        exact .inr ⟨first, outputs ++ (parts ++ (lexemes ++ rest)),
          ⟨inputs, by simp, inputsWritten⟩, .inr ⟨second, _, ⟨outputs, rfl, outputsWritten⟩,
            .inr ⟨third, _, ⟨parts, rfl, partsWritten⟩, here, lexemes, rfl, upTo⟩⟩⟩

theorem asks_program :
    Asks (fun (slot : Slot) => slot.use.Fits) (callOf ProgramUpTo)
      (fun literal slot program => program.Keeps literal slot) program := by
  have inputs : AsksStatement .inputs (BodyUpTo Phrase.ports Numbers.ports) Numbers.ports
      inputStatement := asks_statement .inputs (asks_body Element.asks_ports)
  have outputs : AsksStatement .outputs (BodyUpTo Phrase.ports Numbers.ports) Numbers.ports
      outputStatement := asks_statement .outputs (asks_body Element.asks_ports)
  have parts : AsksStatement .parts (BodyUpTo Phrase.parts Numbers.parts) Numbers.parts
      partStatement := asks_statement .parts (asks_body Element.asks_parts)
  have wires : AsksStatement .wires SegmentsUpTo Numbers.wires wireStatement :=
    asks_statement .wires asks_segments
  have forwardOutputs : Forward outputStatement :=
    forward_statement .outputs (forward_body Plain.ports)
  have forwardParts : Forward partStatement := forward_statement .parts (forward_body Plain.parts)
  have forwardWires : Forward wireStatement := forward_statement .wires forward_segments
  have readsInputs := reads_bodyStatement .inputs Element.reads_ports
  have readsOutputs := reads_bodyStatement .outputs Element.reads_ports
  have readsParts := reads_bodyStatement .parts Element.reads_parts
  -- from the last statement on, what comes behind the ones in front
  have last (inputs outputs : List Port) (parts : List Part) :=
    wires.bind_pure (fun literal slot (program : Netlist.Program) => program.Keeps literal slot)
      (fun wires => { inputs, outputs, parts, wires })
      fun literal slot wires kept => by simpa only [Program.Keeps, kept.1] using kept.2
  have third (inputs outputs : List Port) := parts.bind readsParts (last inputs outputs)
    (fun _ => forwardWires.bind fun _ => forward_pure _)
    fun literal slot parts kept => .bind fun _ => gives_pure (by
      simpa only [Program.Keeps, kept.1] using kept.2)
  have second (inputs : List Port) := outputs.bind readsOutputs (third inputs)
    (fun _ => forwardParts.bind fun _ => forwardWires.bind fun _ => forward_pure _)
    fun literal slot outputs kept => .bind fun _ => .bind fun _ => gives_pure (by
      simpa only [Program.Keeps, kept.1] using kept.2)
  exact (inputs.bind readsInputs second
    (fun _ => forwardOutputs.bind fun _ => forwardParts.bind fun _ =>
      forwardWires.bind fun _ => forward_pure _)
    fun literal slot inputs kept => .bind fun _ => .bind fun _ => .bind fun _ => gives_pure (by
      simpa only [Program.Keeps, kept.1] using kept.2)).congr fun _ _ _ _ => programCall_iff

end Plain

end Netlist
