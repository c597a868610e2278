import Netlist.Proofs.Diagnosis.Statement
import Netlist.Proofs.Journal.Account
import Netlist.Proofs.Journal.Lines
import Netlist.Proofs.Language.Program
import Netlist.Proofs.Lexing.Place

set_option autoImplicit false

namespace Netlist

namespace Tape

theorem filter_scan (text : String) :
    (Token.scan text).filter (fun token => !token.kind.isLayout) =
      (ofText text).tokens ++ [Token.ending (ofText text).finish] := by
  obtain ⟨tokens, whole, lexemes⟩ := Lexer.tokens_eq_append (Lexer.faces_ofText text)
  rw [ofText, Token.significant_eq_filter whole lexemes, Lexer.scan_eq_tokens, whole,
    List.filter_append]
  rfl

theorem map_get_range {tape : Tape} {count : Nat} (inside : count ≤ tape.tokens.length + 1) :
    (List.range count).map tape.get = (tape.tokens ++ [Token.ending tape.finish]).take count := by
  refine List.ext_getElem (by simp; omega) fun place low high => ?_
  rw [List.getElem_map, List.getElem_range, List.getElem_take]
  by_cases within : place < tape.tokens.length
  · rw [List.getElem_append_left within, get, List.getElem?_eq_getElem within]
    rfl
  · rw [get_of_length_le (Nat.le_of_not_lt within),
      List.getElem_append_right (Nat.le_of_not_lt within)]
    simp

theorem exists_split {tape : Tape} {place : Nat} (inside : place ≤ tape.tokens.length) :
    exists back, tape.tokens ++ [Token.ending tape.finish] =
      tape.tokens.take place ++ tape.get place :: back := by
  rcases Nat.lt_or_eq_of_le inside with further | rfl
  · refine ⟨tape.tokens.drop (place + 1) ++ [Token.ending tape.finish], ?_⟩
    have here : tape.get place = tape.tokens[place] := by
      rw [get, List.getElem?_eq_getElem further]
      rfl
    rw [here, ← List.cons_append, ← List.append_assoc, ← List.drop_eq_getElem_cons further,
      List.take_append_drop]
  · rw [List.take_length, get_of_length_le (Nat.le_refl _)]
    exact ⟨[], rfl⟩

theorem Apart.place_eq {tape : Tape} (apart : tape.Apart) (spelled : tape.Spelled)
    {first second : Nat} (inside : first ≤ tape.tokens.length)
    (insideToo : second ≤ tape.tokens.length) (same : tape.get first = tape.get second) :
    first = second := by
  rcases Nat.lt_trichotomy first second with before | here | behind
  · exact absurd same (apart first second before (spelled.ne_endOfInput (by omega)))
  · exact here
  · exact absurd same.symm (apart second first behind (spelled.ne_endOfInput (by omega)))

theorem apart_ofText (text : String) : (ofText text).Apart := by
  have faces := Lexer.faces_ofText text
  obtain ⟨tokens, whole, lexemes⟩ := Lexer.tokens_eq_append faces
  have positions : ((ofText text).tokens.map Token.position).Nodup := by
    have sublist : ((ofText text).tokens ++ [Token.ending (ofText text).finish]).Sublist
        (tokens ++ [Token.ending (ofText text).finish]) := by
      rw [← filter_scan, Lexer.scan_eq_tokens]
      exact whole ▸ List.filter_sublist
    have inside := (List.append_sublist_append_right _).mp sublist
    exact (Lexer.nodup_positions_of_faces faces whole lexemes).sublist (inside.map _)
  intro first second before goesOn same
  have low := lt_of_goesOn goesOn
  have high : second < (ofText text).tokens.length := lt_of_goesOn (same ▸ goesOn)
  rw [get, get, List.getElem?_eq_getElem low, List.getElem?_eq_getElem high] at same
  have never := List.pairwise_iff_getElem.mp positions first second (by simpa using low)
    (by simpa using high) before
  rw [List.getElem_map, List.getElem_map] at never
  exact never (congrArg Token.position same)

end Tape

theorem Looks.isPrefix {tape : Tape} (apart : tape.Apart) {place times : Nat} {seen : List Token}
    (looks : Looks tape place times seen) :
    (seen.destutter (· ≠ ·)).IsPrefix (tape.tokens ++ [Token.ending tape.finish]) := by
  have inside := looks.place_le
  rw [looks.destutter apart, Tape.map_get_range (by omega)]
  exact List.take_prefix _ _

def Statement.records (statement : Statement) : List Record :=
  [.opening statement.heading, .completed statement.heading statement.size]

section Session

variable {σ : Type} [Source σ] {start : Lexer σ} {tape : Tape} {told : List Record}

theorem account_session (describes : ∀ place, start.token place = tape.get place)
    {cursor : Cursor σ} (within : Within start tape told 1 cursor) {headings : List Heading}
    {front back : List (Except Diagnostic Answer × Cursor σ)}
    {step : Except Diagnostic Answer × Cursor σ}
    (whole : cursor.session (headings.map Call.statement) = front ++ step :: back)
    {statements : List Statement}
    (succeeded : front.map Prod.fst = statements.map fun found => .ok (.statement found)) :
    exists heading later, headings = statements.map Statement.heading ++ heading :: later ∧
      Rule.Meets
        (fun answer cursor => exists found : Statement, answer = .statement found ∧
          found.heading = heading ∧
            Within start tape (told ++ statements.flatMap Statement.records ++ found.records) 1
              cursor)
        (Blamed tape (told ++ statements.flatMap Statement.records ++ [.opening heading]))
        step := by
  induction front generalizing cursor told headings statements with
  | nil =>
      obtain rfl : statements = [] := by simpa using succeeded
      cases headings with
      | nil => simp [Cursor.session] at whole
      | cons heading headings =>
          obtain ⟨rfl, -⟩ := List.cons.inj whole
          refine ⟨heading, headings, rfl, ?_⟩
          rw [List.flatMap_nil, List.append_nil]
          refine ((Rule.triple_call describes heading).gives ?_) cursor within
          rintro _ _ ⟨found, rfl, rfl, within⟩
          exact ⟨found, rfl, rfl, within⟩
  | cons first front ih =>
      cases headings with
      | nil => simp [Cursor.session] at whole
      | cons heading headings =>
          obtain ⟨rfl, rest⟩ := List.cons.inj whole
          cases statements with
          | nil => simp at succeeded
          | cons statement statements =>
              obtain ⟨came, others⟩ := List.cons.inj succeeded
              have meets := Rule.triple_call describes heading cursor within
              generalize (Call.statement heading).rule cursor = outcome at came meets rest
              obtain ⟨result, middle⟩ := outcome
              obtain rfl : result = .ok (.statement statement) := came
              obtain ⟨found, same, rfl, within⟩ := meets.of_ok
              obtain rfl := Answer.statement.inj same
              obtain ⟨next, later, rfl, accounts⟩ := ih within rest others
              refine ⟨next, later, rfl, ?_⟩
              rw [List.flatMap_cons, ← List.append_assoc]
              exact accounts

theorem looks_of_peeked (describes : ∀ place, start.token place = tape.get place)
    (apart : tape.Apart) (spelled : tape.Spelled) {cursor : Cursor σ}
    (within : Within start tape told 1 cursor) {place : Nat} (inside : place ≤ tape.tokens.length)
    (peeked : cursor.Peeked start place) : Looks tape place 1 cursor.journal.met := by
  obtain ⟨other, times, few, past, peekedToo, looks, -⟩ := within
  have looked : times ≠ 0 := fun never => by
    have none' := (past never).returned
    rw [peeked.returned] at none'
    nomatch none'
  have same := (peekedToo looked).returned.symm.trans peeked.returned
  rw [describes, describes, Option.some.injEq] at same
  obtain rfl := apart.place_eq spelled looks.place_le inside same
  obtain rfl : times = 1 := by omega
  exact looks

end Session

theorem program_session {σ : Type} [Source σ] (cursor : Cursor σ) :
    exists front answer last back,
      cursor.session (Heading.all.map Call.statement) = front ++ (answer, last) :: back ∧
      exists statements : List Statement,
        front.map Prod.fst = statements.map (fun found => .ok (.statement found)) ∧
        ((exists diagnostic, answer = .error diagnostic ∧
            Grammar.program cursor = (.error diagnostic, last)) ∨
          exists program, statements ++ [.wires program.wires] = program.statements ∧
            answer = .ok (.statement (.wires program.wires)) ∧
            Grammar.program cursor = (.ok program, last)) := by
  simp only [Heading.all, List.map_cons, List.map_nil, Cursor.session, Call.rule, Grammar.program,
    Rule.bind_apply, Rule.pure_apply]
  rcases Grammar.inputStatement cursor with ⟨diagnostic | inputs, first⟩
  · exact ⟨[], _, _, _, rfl, [], rfl, .inl ⟨diagnostic, rfl, rfl⟩⟩
  dsimp only
  rcases Grammar.outputStatement first with ⟨diagnostic | outputs, second⟩
  · exact ⟨[_], _, _, _, rfl, [.inputs inputs], rfl, .inl ⟨diagnostic, rfl, rfl⟩⟩
  dsimp only
  rcases Grammar.partStatement second with ⟨diagnostic | parts, third⟩
  · exact ⟨[_, _], _, _, _, rfl, [.inputs inputs, .outputs outputs], rfl,
      .inl ⟨diagnostic, rfl, rfl⟩⟩
  dsimp only
  rcases Grammar.wireStatement third with ⟨diagnostic | wires, last⟩
  · exact ⟨[_, _, _], _, _, _, rfl, [.inputs inputs, .outputs outputs, .parts parts], rfl,
      .inl ⟨diagnostic, rfl, rfl⟩⟩
  · exact ⟨[_, _, _], _, _, _, rfl, [.inputs inputs, .outputs outputs, .parts parts], rfl,
      .inr ⟨{ inputs, outputs, parts, wires }, rfl, rfl, rfl⟩⟩

def Program.Spells (program : Program) (lexemes : List Lexeme) : Prop :=
  exists inputs outputs parts wires,
    lexemes = inputs ++ outputs ++ parts ++ wires ∧
    StatementWritten .inputs (BodyWritten Phrase.ports) inputs program.inputs ∧
    StatementWritten .outputs (BodyWritten Phrase.ports) outputs program.outputs ∧
    StatementWritten .parts (BodyWritten Phrase.parts) parts program.parts ∧
    StatementWritten .wires SegmentsWritten wires program.wires

theorem Plain.spells_of_program {text : String} {program : Program} {after : Nat}
    (step : Plain.program (Tape.ofText text) 0 = (.ok program, after)) :
    after ≤ (Tape.ofText text).tokens.length ∧
      program.Spells (((Tape.ofText text).tokens.take after).map Token.lexeme) := by
  have rests := steady_program (Tape.ofText text) 0
  rw [step] at rests
  cases rests with
  | ok forward inside again =>
      refine ⟨by simpa using inside, ?_⟩
      obtain ⟨inputs, outputs, parts, wires, whole, first, second, third, fourth, -⟩ :=
        (reads_statements _ (Tape.spelled_ofText text) 0 _ _).mp ⟨after, step, rfl⟩
      refine ⟨inputs, outputs, parts, wires, ?_, first, second, third, fourth⟩
      rw [Tape.rest, Tape.rest, List.drop_zero] at whole
      refine List.append_cancel_right ((?_ : _ = _).trans whole)
      rw [← List.map_append, List.take_append_drop]

/-- The journal of a parse tells of the tokens of the text in their order, each of them looked at up
to three times, and ends with the token at fault, or with the one behind the wires. It tells of each
statement that it was begun, and how many entries it has if it came out. -/
theorem journal_accounts (text : String) :
    let journal := (Reading.ofText text).journal
    let tokens := (Token.scan text).filter fun token => !token.kind.isLayout
    let answers := ((Cursor.ofSource (Feed.ofText text)).session
      (Heading.all.map Call.statement)).map Prod.fst
    journal.traced = journal.met.map .met ∧
    (∀ record ∈ journal.toList, ∀ other, record.level ≠ .warn -> record.level = other.level ->
      record.text = other.text -> record = other) ∧
    (journal.met.destutter (· ≠ ·)).IsPrefix tokens ∧
    (∀ token, journal.met.count token ≤ 3) ∧
    match Program.parse text with
    | .ok program =>
        journal.told = program.statements.flatMap Statement.records ∧
        exists front last back, tokens = front ++ last :: back ∧
          program.Spells (front.map Token.lexeme) ∧ journal.met.getLast? = some last
    | .error failure =>
        exists diagnostic culprit, failure = .grammar diagnostic ∧ diagnostic.Blames culprit ∧
          journal.met.getLast? = some culprit ∧
          exists (statements : List Statement) (heading : Heading) (later : List Heading),
            Heading.all = statements.map Statement.heading ++ heading :: later ∧
            journal.told = statements.flatMap Statement.records ++ [.opening heading] ∧
            exists further, answers =
              statements.map (fun found => .ok (.statement found)) ++
                .error diagnostic :: further := by
  intro journal tokens answers
  refine ⟨journal.traced_eq, fun record _ other => Record.eq_of_text, ?_⟩
  have describes := Tape.describes_ofText text
  have apart := Tape.apart_ofText text
  have begun := Cursor.past_ofSource (Feed.ofText text)
  obtain ⟨front, answer, last, back, whole, statements, succeeded, outcome⟩ :=
    program_session (Cursor.ofSource (Feed.ofText text))
  obtain ⟨heading, later, headings, meets⟩ := account_session describes
    ⟨0, 0, by omega, fun _ => begun, fun never => absurd rfl never, .start, rfl⟩ whole succeeded
  have parsed : Program.parse text =
      (Grammar.program (Cursor.ofSource (Feed.ofText text))).1.mapError .grammar := rfl
  have written : journal = (Grammar.program (Cursor.ofSource (Feed.ofText text))).2.journal := rfl
  have counted : tokens = (Tape.ofText text).tokens ++ [Token.ending (Tape.ofText text).finish] :=
    Tape.filter_scan text
  rw [counted, parsed]
  rcases outcome with ⟨diagnostic, rfl, failed⟩ | ⟨program, came, rfl, success⟩
  · rw [failed] at written ⊢
    obtain ⟨⟨place, times, looks, blames⟩, told⟩ := meets.of_error
    rw [← written] at looks told
    refine ⟨looks.isPrefix apart, (looks.count apart).2, diagnostic, _, rfl, blames,
      looks.getLast?_eq, statements, heading, later, headings, told, back.map Prod.fst, ?_⟩
    change List.map Prod.fst (Cursor.session _ _) = _
    rw [whole, List.map_append, succeeded, List.map_cons]
  · rw [success] at written ⊢
    obtain ⟨found, same, rfl, within⟩ := meets.of_ok
    obtain rfl := Answer.statement.inj same
    have agree := Rule.simulates_program describes 0 _ (.inl begun)
    rw [success] at agree
    obtain ⟨after, plain, peeked⟩ := agree.exists_of_ok
    obtain ⟨inside, spells⟩ := Plain.spells_of_program plain
    have looks := looks_of_peeked describes apart (Tape.spelled_ofText text) within inside peeked
    obtain ⟨-, -, -, -, -, -, told⟩ := within
    rw [← written] at looks told
    obtain ⟨back, split⟩ := Tape.exists_split inside
    refine ⟨looks.isPrefix apart, (looks.count apart).2, ?_, _, _, back, split, spells,
      looks.getLast?_eq⟩
    rw [told, ← came, List.flatMap_append, List.flatMap_singleton]
    rfl

end Netlist
