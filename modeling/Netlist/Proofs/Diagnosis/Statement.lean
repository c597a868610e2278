import Netlist.Proofs.Diagnosis.Steady
import Netlist.Proofs.Plain.Statement

set_option autoImplicit false

namespace Netlist.Plain

variable {α β : Type}

section Elements

variable {follow : Token.Kind -> Prop} (closes : ∀ kind, follow kind -> ¬ opensClause kind)

include closes

theorem steady_expect_bind {sample : Lexeme} {continuation : Token -> Plain α}
    (rest : String -> Plain α) (same : ∀ token, continuation token = rest token.text)
    (meant : Lexeme.Meant [sample]) (closed : ¬ opensClause sample.kind)
    (steady : ∀ text, Steady follow (rest text)) :
    Steady follow (expect sample.kind >>= continuation) := by
  have reacts (text : String) : Accepts follow (fun token =>
      if token.kind = sample.kind then continuation token
      else fail (.unexpectedToken token sample.kind.describe)) { kind := sample.kind, text } := by
    refine ⟨rest text, steady text, fun position => ?_⟩
    simp [Lexeme.token, same]
  rw [expect_bind_eq]
  refine steady_take closes sample meant closed (reacts sample.text) fun lexeme => ?_
  obtain ⟨kind, text⟩ := lexeme
  by_cases wanted : kind = sample.kind
  · subst wanted
    exact .inl ⟨(meant _ List.mem_cons_self).1.ne_endOfInput, reacts text⟩
  · refine .inr ⟨.unexpected text sample.kind.describe {}, fun position => ?_⟩
    simp [Lexeme.token, wanted, Diagnostic.unexpectedToken, Diagnostic.moved]

theorem steady_name_bind {continuation : Token -> Plain α} (rest : String -> Plain α)
    (same : ∀ token, continuation token = rest token.text)
    (steady : ∀ text, Steady follow (rest text)) :
    Steady follow (expect .name >>= continuation) :=
  steady_expect_bind closes rest same (Lexeme.meant_name isName_a)
    (by simp [opensClause, Lexeme.name]) steady

theorem steady_mark_bind {kind : Token.Kind} {continuation : Plain α} (isMark : kind.isMark)
    (closed : ¬ opensClause kind) (steady : Steady follow continuation) :
    Steady follow (expect kind >>= fun _ => continuation) :=
  steady_expect_bind closes (fun _ => continuation) (fun _ => rfl) (Lexeme.meant_mark isMark) closed
    fun _ => steady

theorem steady_pin : Steady follow pin := by
  rw [pin, expect_bind_eq]
  apply steady_take closes (.digits "0") (Lexeme.meant_digits isNumber_zero)
    (by simp [opensClause, Lexeme.digits])
  · refine ⟨pure 0, steady_pure follow 0, fun position => ?_⟩
    simp [Lexeme.token, Lexeme.digits, Nat.ofDigitChars]
  · intro lexeme
    obtain ⟨kind, text⟩ := lexeme
    by_cases digits : kind = .digits
    · by_cases fits : Nat.ofDigitChars 10 text.toList 0 ≤ PinRange.maxPin
      · refine .inl ⟨by simp [digits], pure (.ofNat (Nat.ofDigitChars 10 text.toList 0)),
          steady_pure follow _, fun position => ?_⟩
        simp only [Lexeme.token, digits, fits, if_true]
      · refine .inr ⟨.pinOutOfRange text {}, fun position => ?_⟩
        simp only [Lexeme.token, digits, fits, if_true, if_false]
        rfl
    · refine .inr ⟨.unexpected text Token.Kind.digits.describe {}, fun position => ?_⟩
      simp only [Lexeme.token, digits, if_false]
      rfl

theorem steady_width : Steady follow width :=
  .bind closes (steady_pin fun _ closed => closed) fun _ =>
    steady_mark_bind closes rfl (by simp [opensClause]) (steady_pure follow _)

theorem steady_port : Steady follow port :=
  steady_name_bind closes _ (fun _ => rfl) fun _ =>
    .bind_pure (steady_optional closes (.inr rfl) (steady_width closes)) _

theorem steady_part : Steady follow part :=
  steady_name_bind closes _ (fun _ => rfl) fun _ =>
    steady_name_bind closes _ (fun _ => rfl) fun _ => steady_pure follow _

theorem steady_pinsFrom (first : UInt32) : Steady follow (pinsFrom first) := by
  have upTo : Steady follow (pin >>= fun last => expect .rightBracket >>= fun _ =>
      (pure { first, last } : Plain PinRange)) :=
    .bind closes (steady_pin fun _ closed => closed) fun last =>
      steady_mark_bind closes rfl (by simp [opensClause]) (steady_pure follow _)
  apply steady_take closes (.mark .rightBracket) (Lexeme.meant_mark rfl)
    (by simp [opensClause, Lexeme.mark])
  · exact ⟨pure (.single first), steady_pure follow _, fun _ => rfl⟩
  · intro lexeme
    obtain ⟨kind, text⟩ := lexeme
    by_cases bracket : kind = .rightBracket
    · refine .inl ⟨by simp [bracket], pure (.single first), steady_pure follow _, ?_⟩
      intro position
      simp only [Lexeme.token, bracket, if_true]
    · by_cases colon : kind = .colon
      · refine .inl ⟨by simp [colon], _, upTo, fun position => ?_⟩
        simp [Lexeme.token, colon]
      · refine .inr ⟨.unexpected text ": or ]" {}, fun position => ?_⟩
        simp only [Lexeme.token, bracket, colon, if_false]
        rfl

theorem steady_pins : Steady follow pins :=
  .bind closes (steady_pin fun _ closed => closed) fun first => steady_pinsFrom closes first

theorem steady_selector : Steady follow selector :=
  steady_name_bind closes _ (fun _ => rfl) fun _ => steady_pure follow _

theorem steady_endpoint (name : String) : Steady follow (endpoint name) :=
  .bind closes (steady_optional (fun _ closed => closed) (.inl rfl)
      (steady_selector fun _ closed => closed)) fun _ =>
    .bind_pure (steady_optional closes (.inr rfl) (steady_pins closes)) _

theorem steady_wireSource : Steady follow wireSource := by
  apply steady_take closes (.digits "0") (Lexeme.meant_digits isNumber_zero)
    (by simp [opensClause, Lexeme.digits])
  · exact ⟨pure { name := "0" }, steady_pure follow _, fun _ => rfl⟩
  · intro lexeme
    obtain ⟨kind, text⟩ := lexeme
    by_cases digits : kind = .digits
    · refine .inl ⟨by simp [digits], pure { name := text }, steady_pure follow _, ?_⟩
      intro position
      simp only [Lexeme.token, digits, if_true]
    · by_cases name : kind = .name
      · refine .inl ⟨by simp [name], endpoint text, steady_endpoint closes text, fun position => ?_⟩
        simp [Lexeme.token, name]
      · refine .inr ⟨.unexpected text "digit or identifier" {}, fun position => ?_⟩
        simp only [Lexeme.token, digits, name, if_false]
        rfl

theorem steady_wireTarget : Steady follow wireTarget :=
  steady_name_bind closes endpoint (fun _ => rfl) (steady_endpoint closes)

theorem steady_wire : Steady follow wire :=
  .bind closes (steady_wireSource fun _ closed => closed) fun _ =>
    steady_mark_bind closes rfl (by simp [opensClause]) (.bind_pure (steady_wireTarget closes) _)

end Elements

section Body

variable {element : Element α} {tape : Tape} {place : Nat}

theorem mends_body (element : Element α) (tape : Tape) (place : Nat) :
    Mends (fun kind => ¬ opensClause kind) tape place place fun other =>
      body element other place := by
  refine ⟨[.mark .semicolon], [], Lexeme.meant_mark rfl, fun other alike shown follows => ?_⟩
  have semicolon : (other.get place).kind = .semicolon := congrArg Lexeme.kind shown.head
  exact ⟨by simp [opensClause, semicolon], body_of_semicolon semicolon⟩

theorem rests_body_of_end (ended : (tape.get place).kind = .endOfInput) :
    Rests (fun kind => ¬ opensClause kind) tape place (fun other => body element other place)
      (body element tape place) := by
  rw [body_of_end ended]
  refine .error (Nat.le_refl place) (Nat.le_max_left _ _) (fun other alike => ?_)
    (mends_body element tape place)
  have same := alike place (Nat.le_refl place) (Nat.lt_succ_self place)
  have text : (tape.get place).text = (other.get place).text := congrArg Lexeme.text same
  have kind : (tape.get place).kind = (other.get place).kind := congrArg Lexeme.kind same
  rw [body_of_end (kind ▸ ended), Diagnostic.unexpectedToken, Diagnostic.unexpectedToken, text]
  rfl

theorem rests_body_of_opens (steady : Steady (fun kind => ¬ opensClause kind) element.rule)
    (noSemicolon : (tape.get place).kind ≠ .semicolon)
    (goesOn : (tape.get place).kind ≠ .endOfInput) (opens : element.opens (tape.get place).kind)
    (later : ∀ middle, place < middle -> Rests (fun kind => ¬ opensClause kind) tape middle
      (fun other => body element other middle) (body element tape middle)) :
    Rests (fun kind => ¬ opensClause kind) tape place (fun other => body element other place)
      (body element tape place) := by
  have entry : Rests (fun kind => ¬ opensClause kind) tape place
      (fun other => (element.rule >>= fun value => body element >>= fun values =>
        pure (value :: values)) other place)
      ((element.rule >>= fun value => body element >>= fun values => pure (value :: values))
        tape place) := by
    refine .bind (fun _ closed => closed) steady (fun value middle one => ?_) fun value start => ?_
    · exact (later middle (lt_of_moves element.moves one)).bind_pure _
    · obtain ⟨ending, values, meant, mends⟩ := mends_body element tape start
      refine ⟨ending, value :: values, meant, fun other alike shown follows => ?_⟩
      obtain ⟨closed, success⟩ := mends other alike shown follows
      exact ⟨closed, by simp only [bind_apply, success, pure_apply]⟩
  rw [← body_of_opens noSemicolon goesOn opens] at entry
  refine entry.under (fun values after step => body_ok_lt step) (mends_body element tape place) ?_
  intro other alike
  have same := alike.kind (Nat.le_refl place) (Nat.lt_succ_self place)
  exact body_of_opens (same ▸ noSemicolon) (same ▸ goesOn) (same ▸ opens)

theorem steady_body (steady : Steady (fun kind => ¬ opensClause kind) element.rule) :
    Steady (fun kind => ¬ opensClause kind) (body element) := by
  intro tape place
  induction ahead : tape.tokens.length - place using Nat.strongRecOn generalizing place with
  | ind ahead ih =>
  by_cases semicolon : (tape.get place).kind = .semicolon
  · have inside : place < tape.tokens.length := Tape.lt_of_goesOn (by simp [semicolon])
    rw [body_of_semicolon semicolon]
    refine .ok (Nat.le_succ place) (by omega) fun other alike _ => body_of_semicolon ?_
    rw [← alike.kind (Nat.le_refl place) (Nat.lt_succ_self place), semicolon]
  by_cases ended : (tape.get place).kind = .endOfInput
  · exact rests_body_of_end ended
  have inside := Tape.lt_of_goesOn ended
  have later : ∀ middle, place < middle -> Rests (fun kind => ¬ opensClause kind) tape middle
      (fun other => body element other middle) (body element tape middle) :=
    fun middle low => ih (tape.tokens.length - middle) (by omega) middle rfl
  by_cases opens : element.opens (tape.get place).kind
  · exact rests_body_of_opens steady semicolon ended opens later
  · rw [body_of_passed semicolon ended opens]
    refine (later (place + 1) (Nat.lt_succ_self place)).behind (fun _ closed => closed)
      (Nat.le_succ place) (by omega) fun other alike _ => ?_
    have same := alike.kind (Nat.le_refl place) (Nat.lt_succ_self place)
    exact body_of_passed (same ▸ semicolon) (same ▸ ended) (same ▸ opens)

end Body

theorem closed_end {kind : Token.Kind} (ended : kind = .endOfInput) : ¬ opensClause kind := by
  simp [opensClause, ended]

theorem mends_segmentsBehind (values : List Wire) (tape : Tape) (place : Nat) :
    Mends (· = .endOfInput) tape place place fun other => segmentsBehind values other place := by
  refine ⟨[], values, by simp [Lexeme.Meant], fun other alike shown ended => ?_⟩
  have ended : (other.get place).kind = .endOfInput := ended
  exact ⟨closed_end ended, if_neg (by rw [ended]; exact not_opensWire_end)⟩

theorem rests_segmentsBehind {tape : Tape} {place : Nat} (values : List Wire)
    (more : wires.opens (tape.get place).kind -> Rests (· = .endOfInput) tape place
      (fun other => segments other place) (segments tape place)) :
    Rests (· = .endOfInput) tape place (fun other => segmentsBehind values other place)
      (segmentsBehind values tape place) := by
  by_cases opens : wires.opens (tape.get place).kind
  · have behind := (more opens).bind_pure (values ++ ·)
    rw [show segmentsBehind values tape place = _ from if_pos opens]
    refine behind.under (fun all after step => ?_) (mends_segmentsBehind values tape place) ?_
    · obtain ⟨others, last, followed, step⟩ := bind_eq_ok step
      cases step
      exact segments_ok_lt followed
    · intro other alike
      rw [alike.kind (Nat.le_refl place) (Nat.lt_succ_self place)] at opens
      exact if_pos opens
  · rw [show segmentsBehind values tape place = _ from if_neg opens]
    refine .ok (Nat.le_refl place) (Nat.le_max_left _ _) fun other alike next => if_neg ?_
    rcases next with same | ended
    · have same : (tape.get place).kind = (other.get place).kind := congrArg Lexeme.kind same
      exact same ▸ opens
    · have ended : (other.get place).kind = .endOfInput := ended
      exact ended ▸ not_opensWire_end

theorem steady_segments : Steady (· = .endOfInput) segments := by
  intro tape place
  -- behind each list there are fewer tokens left
  induction ahead : tape.tokens.length - place using Nat.strongRecOn generalizing place with
  | ind ahead ih =>
  rw [segments_eq]
  refine .bind (fun _ => closed_end) (steady_body (steady_wire fun _ closed => closed))
    (fun values middle one => rests_segmentsBehind values fun opens => ?_)
    fun values start => mends_segmentsBehind values tape start
  have inside := lt_of_opensWire opens
  have low := body_ok_lt one
  exact ih (tape.tokens.length - middle) (by omega) middle rfl

theorem steady_statement {follow : Token.Kind -> Prop}
    (closes : ∀ kind, follow kind -> ¬ opensClause kind) (heading : Heading) {entries : Plain (List α)} (steady : Steady follow entries) :
    Steady follow (statement heading entries) :=
  steady_mark_bind closes rfl (by simp [opensClause])
    (steady_mark_bind closes rfl (by simp [opensClause]) steady)

theorem steady_program : Steady (· = .endOfInput) program := by
  have ends : ∀ kind : Token.Kind, kind = .endOfInput -> ¬ opensClause kind := fun _ => closed_end
  have inside : ∀ kind, ¬ opensClause kind -> ¬ opensClause kind := fun _ closed => closed
  have listsPorts := @steady_body _ ports (steady_port inside)
  have listsParts := @steady_body _ parts (steady_part inside)
  exact .bind ends (steady_statement inside .inputs listsPorts) fun _ =>
    .bind ends (steady_statement inside .outputs listsPorts) fun _ =>
      .bind ends (steady_statement inside .parts listsParts) fun _ =>
        (steady_statement ends .wires steady_segments).bind_pure _

end Netlist.Plain
