import Netlist.Proofs.Diagnosis.Culprit
import Netlist.Proofs.Diagnosis.Numbers

set_option autoImplicit false

namespace Netlist

theorem Use.not_fits_iff {use : Use} {literal : String} :
    ¬ use.Fits literal ↔ use.isPin ∧ 4294967295 < Nat.ofDigitChars 10 literal.toList 0 := by
  rw [Fits, PinFits, show PinRange.maxPin = 4294967295 from rfl, Classical.not_imp, Nat.not_le]

theorem Tape.Shows.rest_eq {tape : Tape} {place : Nat} {lexemes : List Lexeme}
    (shown : tape.Shows place lexemes) :
    tape.rest place = lexemes ++ tape.rest (place + lexemes.length) := by
  have behind : tape.rest (place + lexemes.length) = (tape.rest place).drop lexemes.length := by
    simp only [Tape.rest, List.map_drop, List.drop_drop]
  obtain ⟨more, whole⟩ := shown
  rw [behind, ← whole, List.drop_left]

section Program

variable {text literal : String} {slot : Slot} {lexemes : List Lexeme}

theorem treats_of_begins (begins : Begins text lexemes) (upTo : ProgramUpTo literal slot lexemes) :
    Plain.Treats (slot.use.Fits literal) (fun program => program.Keeps literal slot) literal
      lexemes.length (Plain.program (Tape.ofText text) 0) := by
  have shown := Tape.shows_of_begins begins
  have whole := shown.rest_eq
  rw [Nat.zero_add] at whole
  have inside : lexemes.length ≤ (Tape.ofText text).tokens.length := by
    have short := shown.length_le
    simpa [Tape.rest] using short
  exact Plain.asks_program.treats _ (Tape.spelled_ofText text) 0 _ slot literal inside
    ⟨lexemes, whole, upTo⟩

theorem keeps_of_parse {program : Program} (parsed : Program.parse text = .ok program)
    (begins : Begins text lexemes) (upTo : ProgramUpTo literal slot lexemes) :
    slot.use.Fits literal ∧ program.Keeps literal slot := by
  obtain ⟨after, success⟩ := (parse_eq_ok_iff_plain text program).mp parsed
  have treats := treats_of_begins begins upTo
  rw [success] at treats
  cases treats with
  | kept fine further kept => exact ⟨fine, kept⟩

theorem written_of_parse {program : Program} (parsed : Program.parse text = .ok program) :
    ProgramWritten (Token.counted (Token.scan text)) program := by
  rw [Token.counted_scan]
  exact (parse_eq_ok_iff_meantOf text program).mp parsed

theorem fits_of_viable (viable : Viable lexemes) (upTo : ProgramUpTo literal slot lexemes) :
    slot.use.Fits literal := by
  obtain ⟨text, program, begins, parsed⟩ := viable
  exact (keeps_of_parse parsed begins upTo).1

end Program

namespace Token

theorem Stands.get_eq {text : String} {front : List Token} {token : Token}
    (stands : Stands text front token) (goesOn : token.kind ≠ .endOfInput) :
    (counted front).length < (Tape.ofText text).tokens.length ∧
      (Tape.ofText text).get (counted front).length = token := by
  obtain ⟨back, scanned⟩ := stands.scanned
  have counts := stands.counts goesOn
  have significant : (Tape.ofText text).tokens =
      front.filter isSignificant ++ token :: back.filter isSignificant := by
    rw [Tape.ofText, significant, scanned, List.filter_append, List.filter_cons_of_pos counts]
  rw [counted, List.length_map, Tape.get, significant]
  simp

theorem Stands.position_ne {text : String} {front fronts : List Token} {token later : Token}
    (stands : Stands text front token) (standsToo : Stands text fronts later)
    (some' : token.text.toList ≠ []) (before : (counted front).length < (counted fronts).length) :
    token.position ≠ later.position := by
  obtain ⟨back, scanned⟩ := stands.scanned
  obtain ⟨backs, whole⟩ := standsToo.scanned
  rw [scanned] at whole
  rcases List.append_eq_append_iff.mp whole with ⟨more, rfl, rest⟩ | ⟨more, rfl, rest⟩
  · cases more with
    | nil => simp [counted] at before
    | cons first more =>
        obtain rfl := (List.cons.inj rest).1
        rw [stands.position, standsToo.position, List.map_append, List.map_cons,
          Lexeme.spelling_append, Lexeme.spelling_cons, ← Position.foldl_after,
          ← Position.foldl_after, List.foldl_append]
        exact (Position.foldl_after_ne (by simp [lexeme, some']) _).symm
  · rw [counted_append, List.length_append] at before
    omega

end Token

theorem Diagnostic.Blames.position_eq {diagnostic : Diagnostic} {token : Token}
    (blames : diagnostic.Blames token) : diagnostic.position = token.position := by
  rcases blames with rfl | ⟨expected, rfl⟩ <;> rfl

theorem Viable.of_isPrefix {lexemes longer : List Lexeme} (viable : Viable longer)
    (front : lexemes.IsPrefix longer) : Viable lexemes := by
  obtain ⟨text, program, begins, parsed⟩ := viable
  exact ⟨text, program, front.trans begins, parsed⟩

theorem parse_eq_error_iff_plain (text : String) (diagnostic : Diagnostic) :
    Program.parse text = .error (.grammar diagnostic) ↔
      exists after, Plain.program (Tape.ofText text) 0 = (.error diagnostic, after) := by
  rw [parse_eq_plain]
  cases Plain.program (Tape.ofText text) 0 with
  | mk result after => cases result <;> simp [Except.mapError]

theorem exists_culprit {text : String} {diagnostic : Diagnostic} {after : Nat}
    (failed : Plain.program (Tape.ofText text) 0 = (.error diagnostic, after)) :
    exists culprit front, after = culprit + 1 ∧
      diagnostic.Blames ((Tape.ofText text).get culprit) ∧
      Token.Stands text front ((Tape.ofText text).get culprit) ∧
      (Token.counted front).length = culprit ∧ Viable (Token.counted front) := by
  have ends := Plain.ends_program (Tape.ofText text) 0
  have rests := Plain.steady_program (Tape.ofText text) 0
  rw [failed] at ends rests
  cases rests with
  | @error _ culprit forward inside again mends =>
      obtain ⟨place, -, same, blames⟩ := ends
      obtain rfl : culprit = place := Nat.succ.inj same
      have inside : culprit ≤ (Token.significant text).length := by simpa [Tape.ofText] using inside
      obtain ⟨front, stands, passed⟩ := Token.stands_of_le inside
      have length : (Token.counted front).length = culprit := by
        rw [passed]
        exact List.length_take_of_le (by simpa [Token.counted, Token.significant] using inside)
      exact ⟨culprit, front, rfl, blames, stands, length,
        viable_of_mends (passed ▸ List.take_prefix _ _) (length.symm ▸ mends)⟩

section Pins

variable {text literal : String} {front : List Token} {token : Token} {slot : Slot}

theorem exists_of_pinOutOfRange {position : Position}
    (failed : Program.parse text = .error (.grammar (.pinOutOfRange literal position))) :
    exists front token slot, Token.Stands text front token ∧ token.lexeme = .digits literal ∧
      token.position = position ∧ Viable (Token.counted front) ∧
      ProgramUpTo literal slot (Token.counted (front ++ [token])) ∧ ¬ slot.use.Fits literal := by
  obtain ⟨after, failed⟩ := (parse_eq_error_iff_plain text _).mp failed
  obtain ⟨culprit, front, rfl, blames, stands, length, viable⟩ := exists_culprit failed
  obtain ⟨⟨place, same, here⟩, slot, exceeds, lexemes, whole, upTo⟩ :=
    Plain.asks_program.called _ (Tape.spelled_ofText text) _ _ _ _ failed
  obtain rfl : culprit = place := Nat.succ.inj same
  have goesOn : ((Tape.ofText text).get culprit).kind ≠ .endOfInput := by
    rw [show ((Tape.ofText text).get culprit).kind = .digits from congrArg Lexeme.kind here]
    simp
  -- what was asked for ends with the culprit, and so do its tokens
  have shown := (Tape.shows_of_begins stands.begins).rest_eq
  rw [stands.counted_next goesOn, List.length_append, length, List.length_singleton,
    Nat.zero_add] at shown
  rw [← List.append_cancel_right (shown.symm.trans whole), ← stands.counted_next goesOn] at upTo
  exact ⟨front, _, slot, stands, here, blames.position_eq.symm, viable, upTo, exceeds⟩

theorem parse_of_exceeds (stands : Token.Stands text front token) (digits : token.kind = .digits)
    (upTo : ProgramUpTo literal slot (Token.counted (front ++ [token])))
    (exceeds : ¬ slot.use.Fits literal) :
    Program.parse text = .error (.grammar (.pinOutOfRange literal token.position)) := by
  have goesOn : token.kind ≠ .endOfInput := by simp [digits]
  have treats := treats_of_begins stands.begins upTo
  rcases failed : Plain.program (Tape.ofText text) 0 with ⟨diagnostic | program, after⟩
  · rw [failed] at treats
    cases treats with
    | later fine further => exact absurd fine exceeds
    | @refused position _ =>
        obtain ⟨culprit, fronts, same, blames, -⟩ := exists_culprit failed
        rw [stands.counted_next goesOn, List.length_append] at same
        obtain rfl : (Token.counted front).length = culprit := Nat.succ.inj same
        rw [(stands.get_eq goesOn).2] at blames
        obtain rfl : position = token.position := blames.position_eq
        exact (parse_eq_error_iff_plain text _).mpr ⟨_, failed⟩
  · rw [failed] at treats
    cases treats with
    | kept fine further kept => exact absurd fine exceeds

theorem passes_of_fits (stands : Token.Stands text front token) (digits : token.kind = .digits)
    (upTo : ProgramUpTo literal slot (Token.counted (front ++ [token])))
    (fits : slot.use.Fits literal) :
    Viable (Token.counted (front ++ [token])) ∧
      ∀ diagnostic, Program.parse text = .error (.grammar diagnostic) ->
        diagnostic.position ≠ token.position := by
  have goesOn : token.kind ≠ .endOfInput := by simp [digits]
  obtain ⟨inside, here⟩ := stands.get_eq goesOn
  have some' : token.text.toList ≠ [] := by
    have spells := Tape.spelled_ofText text _ (List.getElem_mem inside)
    rw [Tape.get, List.getElem?_eq_getElem inside] at here
    rw [← here]
    exact spells.ne_nil
  have treats := treats_of_begins stands.begins upTo
  rcases outcome : Plain.program (Tape.ofText text) 0 with ⟨found | program, after⟩
  · rw [outcome] at treats
    cases treats with
    | refused exceeds => exact absurd fits exceeds
    | later fine further =>
        obtain ⟨culprit, fronts, rfl, blames, standsToo, length, viable⟩ := exists_culprit outcome
        have short : (Token.counted (front ++ [token])).length ≤ (Token.counted fronts).length := by
          omega
        have begins : Begins text (Token.counted fronts) :=
          ((Token.counted_append fronts _) ▸ List.prefix_append _ _).trans standsToo.begins
        refine ⟨viable.of_isPrefix (List.prefix_of_prefix_length_le stands.begins begins short),
          fun diagnostic failed => ?_⟩
        obtain ⟨after, same⟩ := (parse_eq_error_iff_plain text diagnostic).mp failed
        rw [outcome] at same
        cases same
        rw [blames.position_eq]
        rw [stands.counted_next goesOn, List.length_append, List.length_singleton] at short
        exact (stands.position_ne standsToo some' (by omega)).symm
  · have parsed := (parse_eq_ok_iff_plain text program).mpr ⟨after, outcome⟩
    exact ⟨⟨text, program, stands.begins, parsed⟩, fun diagnostic failed => by
      simp [parsed] at failed⟩

end Pins

/-- A text is told to have a pin that is out of range just if the first token with which no program
begins is a number where a pin is due, and exceeds the largest one. Every other pin is kept as what
its digits say, and a constant as it is written. A number that is no pin is never at fault. -/
theorem parse_exact (text : String) :
    (∀ literal position,
      Program.parse text = .error (.grammar (.pinOutOfRange literal position)) ↔
        exists front token slot, Token.Stands text front token ∧ token.kind = .digits ∧
          token.text = literal ∧ token.position = position ∧
          Viable (Token.counted front) ∧ ¬ Viable (Token.counted (front ++ [token])) ∧
          ProgramUpTo literal slot (Token.counted (front ++ [token])) ∧ slot.use.isPin ∧
          4294967295 < Nat.ofDigitChars 10 literal.toList 0) ∧
    (∀ program, Program.parse text = .ok program ->
      ProgramWritten (Token.counted (Token.scan text)) program ∧
        ∀ literal slot lexemes, Begins text lexemes -> ProgramUpTo literal slot lexemes ->
          program.Keeps literal slot) ∧
    ∀ front token slot, Token.Stands text front token -> token.kind = .digits ->
      ProgramUpTo token.text slot (Token.counted (front ++ [token])) -> ¬ slot.use.isPin ->
        Viable (Token.counted (front ++ [token])) ∧
          ∀ found expected,
            Program.parse text ≠ .error (.grammar (.pinOutOfRange found token.position)) ∧
            Program.parse text ≠ .error (.grammar (.unexpected found expected token.position)) := by
  refine ⟨fun literal position => ⟨fun failed => ?_, fun found => ?_⟩,
    fun program parsed => ⟨written_of_parse parsed, fun literal slot lexemes begins upTo =>
      (keeps_of_parse parsed begins upTo).2⟩,
    fun front token slot stands digits upTo noPin => ?_⟩
  · obtain ⟨front, token, slot, stands, same, rfl, viable, upTo, exceeds⟩ :=
      exists_of_pinOutOfRange failed
    obtain ⟨pin, large⟩ := Use.not_fits_iff.mp exceeds
    exact ⟨front, token, slot, stands, congrArg Lexeme.kind same, congrArg Lexeme.text same, rfl,
      viable, fun further => exceeds (fits_of_viable further upTo), upTo, pin, large⟩
  · obtain ⟨front, token, slot, stands, digits, -, rfl, -, -, upTo, pin, large⟩ := found
    exact parse_of_exceeds stands digits upTo (Use.not_fits_iff.mpr ⟨pin, large⟩)
  · obtain ⟨viable, apart⟩ := passes_of_fits stands digits upTo fun pin => absurd pin noPin
    exact ⟨viable, fun found expected =>
      ⟨fun failed => apart _ failed rfl, fun failed => apart _ failed rfl⟩⟩

/-- The limit with zeros in front of it, passed by one or just reached. The same number may stand
between two ports, or be a constant. -/
theorem parse_exact_limit :
    let beyond := "Inputs:4294967296,a[0004294967296];"
    let within := "Inputs:a[0004294967295];Outputs:;Parts:;Wires:4294967296->a[7];"
    let wire : Wire :=
      { source := { name := "4294967296" }
        target := { name := "a", pins := { first := 7, last := 7 } } }
    let program : Program :=
      { inputs := [{ id := "a", pins := { first := 1, last := 4294967295 } }], wires := [wire] }
    Program.parse beyond =
        .error (.grammar (.pinOutOfRange "0004294967296" { line := 1, column := 21 })) ∧
      (exists front token slot, Token.Stands beyond front token ∧ token.text = "0004294967296" ∧
        Viable (Token.counted front) ∧ ¬ Viable (Token.counted (front ++ [token])) ∧
        ProgramUpTo token.text slot (Token.counted (front ++ [token])) ∧ slot.use.isPin) ∧
      Program.parse within = .ok program ∧
      ProgramWritten (Token.counted (Token.scan within)) program := by
  intro beyond within wire program
  have failed : Program.parse beyond =
      .error (.grammar (.pinOutOfRange "0004294967296" { line := 1, column := 21 })) := by
    decide +kernel
  have parsed : Program.parse within = .ok program := by decide +kernel
  obtain ⟨front, token, slot, stands, -, text, -, viable, broken, upTo, pin, -⟩ :=
    ((parse_exact beyond).1 _ _).mp failed
  exact ⟨failed, ⟨front, token, slot, stands, text, viable, broken, text ▸ upTo, pin⟩, parsed,
    ((parse_exact within).2.1 program parsed).1⟩

end Netlist
