import Netlist.Proofs.Language.Cut
import Netlist.Proofs.Lexing.Behind
import Netlist.Proofs.Streaming

set_option autoImplicit false

namespace Netlist

open Lexeme (isSignificant spelling Settled meantOf)

def Lexeme.Closing (lexemes : List Lexeme) : Prop :=
  exists front, lexemes = front ++ [.mark .semicolon] ∧
    ∀ lexeme ∈ front, lexeme.kind ≠ .semicolon

section Written

variable {α : Type}

theorem Lexeme.Closing.append {front rest : List Lexeme} (closing : Closing rest)
    (inner : ∀ lexeme ∈ front, lexeme.kind ≠ .semicolon) : Closing (front ++ rest) := by
  obtain ⟨before, rfl, noSemicolon⟩ := closing
  exact ⟨front ++ before, (List.append_assoc ..).symm,
    List.forall_mem_append.mpr ⟨inner, noSemicolon⟩⟩

def Phrase.Inner (phrase : Phrase α) : Prop :=
  ∀ next lexemes value, phrase.written next lexemes value ->
    ∀ lexeme ∈ lexemes, lexeme.kind ≠ .semicolon

theorem Phrase.inner_ports : ports.Inner := by
  intro next lexemes port written
  cases written with
  | bare alone => simp [Lexeme.name]
  | sized pin => simp [Lexeme.name, Lexeme.digits, Lexeme.mark]

theorem Phrase.inner_parts : parts.Inner := by
  intro next lexemes part written
  cases written with
  | intro => simp [Lexeme.name]

theorem BodyWritten.closing {phrase : Phrase α} (inner : phrase.Inner) {lexemes : List Lexeme}
    {values : List α} (written : BodyWritten phrase lexemes values) : Lexeme.Closing lexemes := by
  induction written with
  | ended => exact ⟨[], rfl, by simp⟩
  | @passed lexeme rest values noSemicolon noEntry further ih =>
      have alone : ∀ other ∈ [lexeme], other.kind ≠ .semicolon := by simpa using noSemicolon
      exact ih.append alone
  | entry one further ih => exact ih.append (inner _ _ _ one)

theorem StatementWritten.closing {phrase : Phrase α} (inner : phrase.Inner) {heading : Heading}
    {lexemes : List Lexeme} {values : List α}
    (written : StatementWritten heading (BodyWritten phrase) lexemes values) :
    Lexeme.Closing lexemes := by
  cases written with
  | @intro lexemes values written =>
      have opening : ∀ lexeme ∈ [Lexeme.mark (.keyword heading), .mark .colon],
          lexeme.kind ≠ .semicolon := by simp [Lexeme.mark]
      exact (written.closing inner).append opening

end Written

section Tape

variable {tape : Tape} {place after : Nat}

theorem Plain.closing_of_bind_pure {α β : Type} {element : Element α} {phrase : Phrase α}
    (reads : element.Reads phrase) (inner : phrase.Inner) (heading : Heading)
    (result : List α -> β) (spelled : tape.Spelled) {answer : β}
    (step : (statement heading (body element) >>= fun values => pure (result values)) tape place =
      (.ok answer, after)) :
    exists front, Lexeme.Closing front ∧ tape.rest place = front ++ tape.rest after ∧
      ∀ (other : Tape) (start : Nat) (rest : List Lexeme), other.Spelled ->
        other.rest start = front ++ rest ->
          exists last, (statement heading (body element) >>= fun values => pure (result values))
            other start = (.ok answer, last) ∧ other.rest last = rest := by
  have reads := reads_bodyStatement heading reads
  obtain ⟨values, middle, first, second⟩ := bind_eq_ok step
  obtain ⟨rfl, rfl⟩ : result values = answer ∧ middle = after := by
    simpa [pure_apply] using second
  obtain ⟨front, whole, written⟩ := (reads tape spelled place values _).mp ⟨middle, first, rfl⟩
  refine ⟨front, written.closing inner, whole, fun other start rest spelled same => ?_⟩
  exact reads.bind_pure result spelled ⟨front, same, written⟩

theorem Call.closing_of_plain {heading : Heading} (noWires : heading ≠ .wires)
    (spelled : tape.Spelled) {answer : Answer}
    (step : (Call.statement heading).plain tape place = (.ok answer, after)) :
    exists front, Lexeme.Closing front ∧ tape.rest place = front ++ tape.rest after ∧
      ∀ (other : Tape) (start : Nat) (rest : List Lexeme), other.Spelled ->
        other.rest start = front ++ rest ->
          exists last, (Call.statement heading).plain other start = (.ok answer, last) ∧
            other.rest last = rest := by
  cases heading with
  | inputs =>
      exact Plain.closing_of_bind_pure Plain.Element.reads_ports Phrase.inner_ports .inputs _
        spelled step
  | outputs =>
      exact Plain.closing_of_bind_pure Plain.Element.reads_ports Phrase.inner_ports .outputs _
        spelled step
  | parts =>
      exact Plain.closing_of_bind_pure Plain.Element.reads_parts Phrase.inner_parts .parts _
        spelled step
  | wires => exact absurd rfl noWires

theorem Call.le_of_plain {call : Call} {answer : Answer}
    (step : call.plain tape place = (.ok answer, after)) : after ≤ tape.tokens.length := by
  have semicolon : exists last, after = last + 1 ∧ (tape.get last).kind = .semicolon := by
    have stops := call.stops_plain tape place
    rw [step] at stops
    match call with
    | .statement .inputs | .statement .outputs | .statement .parts | .statement .wires | .program =>
        obtain ⟨last, -, same, semicolon, -⟩ := stops
        exact ⟨last, same, semicolon⟩
  obtain ⟨last, rfl, semicolon⟩ := semicolon
  exact Tape.lt_of_goesOn (by simp [semicolon])

end Tape

section Text

structure Splits (text : String) (inside : List Lexeme) (rest : String) : Prop where
  whole : text.toList = spelling (inside ++ [.mark .semicolon]) ++ rest.toList
  settled : Settled (inside ++ [.mark .semicolon] ++ Lexeme.ofText rest.toList)

namespace Splits

variable {text rest : String} {inside front back : List Lexeme} {place : Nat}

theorem filter_semicolon (inside : List Lexeme) :
    List.filter isSignificant (inside ++ [.mark .semicolon]) =
      inside.filter isSignificant ++ [.mark .semicolon] := by
  rw [List.filter_append]
  rfl

theorem exists_of_meantOf (whole : meantOf text.toList = front ++ [.mark .semicolon] ++ back) :
    exists inside rest, Splits text inside rest ∧ inside.filter isSignificant = front ∧
      meantOf rest.toList = back := by
  rw [Lexeme.meantOf_eq_filter, ← List.append_cons] at whole
  obtain ⟨inside, behind, pieces, -, counts, meant⟩ := exists_of_filter whole
  have settled := Lexeme.settled_ofText text.toList
  rw [pieces, List.append_cons] at settled
  have again : Lexeme.ofText (spelling behind) = behind := Lexeme.ofText_spelling settled.of_append
  refine ⟨inside, String.ofList (spelling behind), ⟨?_, ?_⟩, counts, ?_⟩
  · rw [String.toList_ofList, ← Lexeme.spelling_append, ← List.append_cons, ← pieces,
      Lexeme.spelling_ofText]
  · rwa [String.toList_ofList, again]
  · rwa [String.toList_ofList, Lexeme.meantOf_eq_filter, again]

variable (splits : Splits text inside rest)

include splits

theorem meantOf_eq : meantOf text.toList =
    inside.filter isSignificant ++ [.mark .semicolon] ++ meantOf rest.toList := by
  rw [splits.whole, Lexeme.meantOf_behind_semicolon splits.settled, filter_semicolon]

theorem replace (other : String) :
    Splits (String.ofList (spelling (inside ++ [.mark .semicolon])) ++ other) inside other := by
  refine ⟨?_, splits.settled.behind_semicolon other.toList⟩
  rw [String.toList_append, String.toList_ofList]

theorem eq_append : text = String.ofList (spelling (inside ++ [.mark .semicolon])) ++ rest := by
  apply String.toList_inj.mp
  rw [String.toList_append, String.toList_ofList]
  exact splits.whole

theorem ofText_eq :
    Lexeme.ofText (String.ofList (spelling (inside ++ [.mark .semicolon]))).toList =
      inside ++ [.mark .semicolon] := by
  have alone := (splits.replace "").settled
  have nothing : Lexeme.ofText "".toList = [] := by rw [Lexeme.ofText.eq_def]; rfl
  rw [nothing, List.append_nil] at alone
  rw [String.toList_ofList, Lexeme.ofText_spelling alone]

theorem place_eq (within : place ≤ (Tape.ofText text).tokens.length)
    (behind : (Tape.ofText text).rest place = meantOf rest.toList) :
    place = (inside.filter isSignificant).length + 1 := by
  have all : (Tape.ofText text).rest 0 = _ :=
    (Token.lexemes_significant text).trans splits.meantOf_eq
  have total := congrArg List.length all
  have left := congrArg List.length behind
  simp only [Tape.rest, List.length_map, List.length_drop, List.length_append,
    List.length_singleton] at total left
  omega

theorem exists_after : exists (left : Lexer Feed) (finish : Position),
    ({ source := Feed.ofText text } : Lexer Feed).after
        ((inside.filter isSignificant).length + 1) = left ∧
      left.source = Feed.ofText rest ∧ left.held = none ∧ left.Faces rest.toList finish := by
  have faces := Lexer.faces_ofText text
  rw [splits.whole] at faces
  exact ⟨_, _, rfl, Lexer.after_semicolon splits.settled faces⟩

end Splits

end Text

structure Cursor.Rests (cursor : Cursor Feed) (rest : String) : Prop where
  source : cursor.lexer.source = Feed.ofText rest
  held : cursor.lexer.held = none
  returned : cursor.returned = none

/-- Of `rest` the first token that is no layout was looked at, and what lies behind it is still to
come. At most its first character was read. -/
def Cursor.LooksInto (cursor : Cursor Feed) (rest : String) : Prop :=
  exists skipped found behind, (Token.scan rest).map Token.lexeme = skipped ++ found :: behind ∧
    (∀ lexeme ∈ skipped, lexeme.kind.isLayout) ∧ ¬ found.kind.isLayout ∧
    cursor.returned.map Token.lexeme = some found ∧
    cursor.lexer.held.toList.map some ++ cursor.lexer.source.events = (spelling behind).map some

namespace Splits

variable {text rest : String} {inside : List Lexeme} {place : Nat} {cursor : Cursor Feed}
  (splits : Splits text inside rest) (within : place ≤ (Tape.ofText text).tokens.length)
  (behind : (Tape.ofText text).rest place = meantOf rest.toList)

include splits within behind

theorem rests (past : cursor.Past { source := Feed.ofText text } place) : cursor.Rests rest := by
  obtain rfl := splits.place_eq within behind
  obtain ⟨left, finish, same, source, held, -⟩ := splits.exists_after
  have lexer := past.lexer
  rw [same] at lexer
  exact ⟨lexer.source.trans source, lexer.held.trans held, past.returned⟩

theorem looksInto (peeked : cursor.Peeked { source := Feed.ofText text } place) :
    cursor.LooksInto rest := by
  obtain rfl := splits.place_eq within behind
  obtain ⟨left, finish, same, -, -, faces⟩ := splits.exists_after
  obtain ⟨skipped, behind, tokens, layout, further⟩ := Lexer.nextMeant_splits faces
  have lexer := peeked.lexer
  have returned := peeked.returned
  rw [Lexer.after_succ, same] at lexer
  rw [Lexer.token, same] at returned
  refine ⟨skipped, left.nextMeant.1.lexeme, behind, ?_, layout, left.not_isLayout_nextMeant, ?_, ?_⟩
  · rw [Token.lexemes_scan, ← tokens, Lexer.tokens_eq_lexemes faces]
    rfl
  · rw [returned]
    rfl
  · rw [lexer.held, lexer.source]
    exact further.upcoming

end Splits

section Calls

variable {text : String}

theorem Call.simulates_past {σ : Type} [Source σ] {start : Lexer σ} {tape : Tape}
    (describes : ∀ place, start.token place = tape.get place) {heading : Heading}
    (noWires : heading ≠ .wires) :
    Rule.Simulates start tape (Cursor.At start) (Cursor.Past start)
      (Call.statement heading).rule (Call.statement heading).plain := by
  cases heading with
  | inputs => exact (Rule.simulates_inputStatement describes).bind fun _ => Rule.simulates_pure _ _
  | outputs => exact (Rule.simulates_outputStatement describes).bind fun _ => Rule.simulates_pure _ _
  | parts => exact (Rule.simulates_partStatement describes).bind fun _ => Rule.simulates_pure _ _
  | wires => exact absurd rfl noWires

theorem Call.exists_splits {heading : Heading} (noWires : heading ≠ .wires) {answer : Answer}
    {cursor : Cursor Feed}
    (step : (Call.statement heading).rule (Cursor.ofSource (Feed.ofText text)) =
      (.ok answer, cursor)) :
    exists inside rest, Splits text inside rest ∧
      (∀ lexeme ∈ inside, lexeme.kind ≠ .semicolon) ∧ cursor.Rests rest ∧
      ∀ (whole other : String), Splits whole inside other ->
        exists last, (Call.statement heading).rule (Cursor.ofSource (Feed.ofText whole)) =
          (.ok answer, last) ∧ last.Rests other := by
  have agree (text : String) := Call.simulates_past (Tape.describes_ofText text) noWires 0 _
    (.inl (Cursor.past_ofSource (Feed.ofText text)))
  have here := agree text
  rw [step] at here
  obtain ⟨after, plain, past⟩ := here.exists_of_ok
  obtain ⟨front, ⟨before, rfl, noSemicolon⟩, all, again⟩ :=
    Call.closing_of_plain noWires (Tape.spelled_ofText text) plain
  have meant : meantOf text.toList = _ := (Token.lexemes_significant text).symm.trans all
  obtain ⟨inside, rest, splits, rfl, behind⟩ := Splits.exists_of_meantOf meant
  refine ⟨inside, rest, splits, fun lexeme member semicolon => ?_,
    splits.rests (Call.le_of_plain plain) behind.symm past, fun whole other splits => ?_⟩
  · have counts : isSignificant lexeme := by
      rw [isSignificant, semicolon]
      rfl
    exact noSemicolon lexeme (List.mem_filter.mpr ⟨member, counts⟩) semicolon
  · have start : (Tape.ofText whole).rest 0 = _ :=
      (Token.lexemes_significant whole).trans splits.meantOf_eq
    obtain ⟨last, plain, left⟩ := again _ 0 _ (Tape.spelled_ofText whole) start
    have there := agree whole
    rw [plain] at there
    obtain ⟨cursor, step, past⟩ := there.of_ok
    exact ⟨cursor, step, splits.rests (Call.le_of_plain plain) left past⟩

theorem exists_splits_of_parse {program : Program} (parsed : Program.parse text = .ok program) :
    exists inside rest, Splits text inside rest ∧
      ¬ (Lexeme.front (meantOf rest.toList)).any Phrase.wires.opens ∧
      (exists statements wires, List.filter isSignificant (inside ++ [.mark .semicolon]) =
        statements ++ wires ∧ StatementWritten .wires SegmentsWritten wires program.wires) ∧
      ∀ (whole other : String), Splits whole inside other ->
        ¬ (Lexeme.front (meantOf other.toList)).any Phrase.wires.opens ->
          exists last, Grammar.program (Cursor.ofSource (Feed.ofText whole)) = (.ok program, last) ∧
            last.LooksInto other := by
  rw [parse_eq_ok_iff_meantOf] at parsed
  generalize meant : meantOf text.toList = lexemes at parsed
  cases parsed with
  | @intro inputs outputs parts wires rest _ first second third fourth stops =>
      obtain ⟨init, rfl⟩ := fourth.eq_append fun _ _ => SegmentsWritten.eq_append
      rw [← List.append_assoc (inputs ++ outputs ++ parts)] at meant
      obtain ⟨inside, rest, splits, counts, rfl⟩ := Splits.exists_of_meantOf meant
      refine ⟨inside, rest, splits, stops, ⟨inputs ++ outputs ++ parts, _, ?_, fourth⟩,
        fun whole other splits noWire => ?_⟩
      · rw [Splits.filter_semicolon, counts, List.append_assoc]
      · have start : (Tape.ofText whole).rest 0 = _ :=
          (Token.lexemes_significant whole).trans splits.meantOf_eq
        rw [counts, List.append_assoc (inputs ++ outputs ++ parts)] at start
        obtain ⟨after, plain, left⟩ := (Plain.reads_statements _ (Tape.spelled_ofText whole) 0 program
          _).mpr ⟨inputs, outputs, parts, _, start, first, second, third, fourth, noWire⟩
        have call : Call.program.plain (Tape.ofText whole) 0 = (.ok (.program program), after) := by
          rw [Call.plain, Plain.bind_apply, plain]
          rfl
        have there := Rule.simulates_program (Tape.describes_ofText whole) 0 _
          (.inl (Cursor.past_ofSource (Feed.ofText whole)))
        rw [plain] at there
        obtain ⟨cursor, step, peeked⟩ := there.of_ok
        exact ⟨cursor, step, splits.looksInto (Call.le_of_plain call) left peeked⟩

theorem noWire_of_head? {text : String}
    (other : ∀ token ∈ (Token.significant text).head?, token.kind ≠ .name ∧ token.kind ≠ .digits) :
    ¬ (Lexeme.front (meantOf text.toList)).any Phrase.wires.opens := by
  rw [← Token.lexemes_significant]
  cases found : Token.significant text with
  | nil => simp [Lexeme.front]
  | cons token tokens => simpa [found, Lexeme.front, Phrase.wires, Token.lexeme] using other

end Calls

/-- A call takes up the text through its semicolon and leaves the source right behind it, whatever
stands there. For a program the next token is looked at as well, and only a name or a number there
would make a difference. -/
theorem calls_local :
    (∀ heading, heading ≠ .wires -> ∀ text answer cursor,
      (Call.statement heading).rule (Cursor.ofSource (Feed.ofText text)) = (.ok answer, cursor) ->
      exists front rest, text = front ++ rest ∧ Lexeme.Closing (Lexeme.ofText front.toList) ∧
        cursor.Rests rest ∧
        ∀ other, exists last,
          (Call.statement heading).rule (Cursor.ofSource (Feed.ofText (front ++ other))) =
            (.ok answer, last) ∧ last.Rests other) ∧
    ∀ text program, Program.parse text = .ok program ->
      exists front rest, text = front ++ rest ∧
        (Lexeme.ofText front.toList).getLast? = some (.mark .semicolon) ∧
        (exists statements wires, meantOf front.toList = statements ++ wires ∧
          StatementWritten .wires SegmentsWritten wires program.wires) ∧
        (Grammar.program (Cursor.ofSource (Feed.ofText text))).2.LooksInto rest ∧
        ∀ other, (∀ token ∈ (Token.significant other).head?,
            token.kind ≠ .name ∧ token.kind ≠ .digits) ->
          Program.parse (front ++ other) = .ok program ∧
            (Grammar.program (Cursor.ofSource (Feed.ofText (front ++ other)))).2.LooksInto other := by
  constructor
  · intro heading noWires text answer cursor step
    obtain ⟨inside, rest, splits, noSemicolon, rests, again⟩ := Call.exists_splits noWires step
    exact ⟨_, rest, splits.eq_append, ⟨inside, splits.ofText_eq, noSemicolon⟩, rests,
      fun other => again _ other (splits.replace other)⟩
  · intro text program parsed
    obtain ⟨inside, rest, splits, noWire, wires, again⟩ := exists_splits_of_parse parsed
    refine ⟨_, rest, splits.eq_append, ?_, ?_, ?_, fun other opens => ?_⟩
    · rw [splits.ofText_eq, List.getLast?_concat]
    · rwa [Lexeme.meantOf_eq_filter, splits.ofText_eq]
    · obtain ⟨cursor, step, looksInto⟩ := again text rest splits noWire
      rw [step]
      exact looksInto
    · obtain ⟨cursor, step, looksInto⟩ := again _ other (splits.replace other) (noWire_of_head? opens)
      refine ⟨?_, by rw [step]; exact looksInto⟩
      rw [Program.parse, Reading.ofText, step]
      rfl

theorem calls_local_behind :
    (exists front rest, "Inputs:a;-b" = front ++ rest ∧
      Lexeme.Closing (Lexeme.ofText front.toList) ∧
      exists last, (Call.statement .inputs).rule (Cursor.ofSource (Feed.ofText (front ++ "/"))) =
        (.ok (.statement (.inputs [.ofWidth "a" 1])), last) ∧ last.Rests "/") ∧
    exists front rest, "Inputs:;Outputs:;Parts:;Wires:;a->b;//" = front ++ rest ∧
      Program.parse (front ++ ";c->d;") =
        .ok { wires := [{ source := { name := "a" }, target := { name := "b" } }] } ∧
      (Grammar.program (Cursor.ofSource (Feed.ofText (front ++ ";c->d;")))).2.LooksInto ";c->d;" := by
  constructor
  · have ports : (Grammar.inputStatement (Cursor.ofSource (Feed.ofText "Inputs:a;-b"))).1 =
        .ok [.ofWidth "a" 1] := by decide +kernel
    have step : (Call.statement .inputs).rule (Cursor.ofSource (Feed.ofText "Inputs:a;-b")) =
        (.ok (.statement (.inputs [.ofWidth "a" 1])),
          (Grammar.inputStatement (Cursor.ofSource (Feed.ofText "Inputs:a;-b"))).2) := by
      rw [Call.rule, Rule.bind_apply, ← Prod.eta (Grammar.inputStatement _), ports]
      rfl
    obtain ⟨front, rest, whole, closing, -, again⟩ := calls_local.1 .inputs (by simp) _ _ _ step
    exact ⟨front, rest, whole, closing, again "/"⟩
  · have parsed : Program.parse "Inputs:;Outputs:;Parts:;Wires:;a->b;//" =
        .ok { wires := [{ source := { name := "a" }, target := { name := "b" } }] } := by
      decide +kernel
    obtain ⟨front, rest, whole, -, -, -, again⟩ := calls_local.2 _ _ parsed
    have other : ∀ token ∈ (Token.significant ";c->d;").head?,
        token.kind ≠ .name ∧ token.kind ≠ .digits := by decide +kernel
    exact ⟨front, rest, whole, again _ other⟩

end Netlist
