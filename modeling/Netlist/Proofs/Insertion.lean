import Netlist.Proofs.Diagnosis.Culprit
import Netlist.Proofs.Language.Ends
import Netlist.Proofs.Lexing.Insertion

set_option autoImplicit false

namespace Netlist

structure Layout (text : String) : Prop where
  noMeaning : Token.significant text = []
  -- the end of input comes last
  noComment : ∀ token ∈ (Token.scan text).dropLast.getLast?, token.kind ≠ .comment

/-- Layout that begins with a blank or a line feed and does not end within a comment. -/
structure Spacing (text : String) : Prop where
  starts : ∃ c ∈ [' ', '\t', '\n'], text.toList.head? = some c
  noMeaning : Token.significant text = []
  -- the end of input comes last
  noComment : ∀ token ∈ (Token.scan text).dropLast.getLast?, token.kind ≠ .comment

def SameOutcome : Except Failure Program -> Except Failure Program -> Prop
  | .ok program, .ok other => program = other
  | .error (.grammar diagnostic), .error (.grammar other) =>
      exists position, other = diagnostic.moved position
  | _, _ => False

theorem SameOutcome.eq_ok {outcome : Except Failure Program} {program : Program}
    (same : SameOutcome outcome (.ok program)) : outcome = .ok program := by
  cases outcome with
  | ok other => exact congrArg Except.ok same
  | error failure => cases failure <;> exact same.elim

theorem Tape.lexeme_get (tape : Tape) (place : Nat) :
    (tape.get place).lexeme =
      (tape.tokens.map Token.lexeme)[place]?.getD { kind := .endOfInput, text := "" } := by
  rw [get, List.getElem?_map]
  cases tape.tokens[place]? <;> rfl

theorem sameOutcome_of_counted {text other : String}
    (same : Token.counted (Token.scan text) = Token.counted (Token.scan other)) :
    SameOutcome (Program.parse text) (Program.parse other) := by
  have alike (bound : Nat) : (Tape.ofText text).Alike (Tape.ofText other) 0 bound := by
    intro between _ _
    rw [Tape.lexeme_get, Tape.lexeme_get]
    exact congrArg (fun lexemes : List Lexeme => lexemes[between]?.getD _) same
  have rests := Plain.steady_program (Tape.ofText text) 0
  rw [parse_eq_plain, parse_eq_plain]
  generalize Plain.program (Tape.ofText text) 0 = outcome at rests
  cases rests with
  | @ok program after forward inside again =>
      have next := alike (after + 1) after (Nat.zero_le _) (Nat.lt_succ_self after)
      rw [again _ (alike after) (.inl next)]
      rfl
  | error forward inside again mends =>
      rw [again _ (alike _)]
      exact ⟨_, rfl⟩

namespace Token

def inside (tokens : List Token) : List Lexeme :=
  (tokens.map lexeme).filter fun lexeme => lexeme.kind ≠ .endOfInput

theorem inside_append (front back : List Token) :
    inside (front ++ back) = inside front ++ inside back := by
  rw [inside, List.map_append, List.filter_append]
  rfl

theorem counted_eq_filter (tokens : List Token) :
    counted tokens = (inside tokens).filter fun lexeme => !lexeme.kind.isLayout := by
  rw [inside, List.filter_filter, List.filter_map, counted]
  exact congrArg _ (List.filter_congr fun token _ => token.kind.isSignificant_eq)

theorem inside_scan (text : String) : inside (scan text) = Lexeme.ofText text.toList := by
  rw [inside, lexemes_scan, List.filter_append, List.filter_cons_of_neg (by simp), List.filter_nil,
    List.append_nil, List.filter_eq_self]
  intro lexeme member
  simpa using (Lexeme.spells_of_mem_ofText member).ne_endOfInput

theorem text_of_end {text : String} {token : Token} (member : token ∈ scan text)
    (ended : token.kind = .endOfInput) : token.text = "" := by
  have found : token.lexeme ∈ (scan text).map lexeme := List.mem_map_of_mem member
  rw [lexemes_scan, List.mem_append, List.mem_singleton] at found
  rcases found with inside | same
  · exact absurd ended (Lexeme.spells_of_mem_ofText inside).ne_endOfInput
  · exact congrArg Lexeme.text same

theorem spelling_inside {text : String} {tokens : List Token} (scanned : tokens ⊆ scan text) :
    Lexeme.spelling (inside tokens) = Lexeme.spelling (tokens.map lexeme) := by
  induction tokens with
  | nil => rfl
  | cons token tokens ih =>
      obtain ⟨here, others⟩ := List.cons_subset.mp scanned
      have rest := ih others
      by_cases ended : token.kind = .endOfInput
      · simp_all [inside, Lexeme.spelling, lexeme, text_of_end here ended]
      · simp_all [inside, Lexeme.spelling, lexeme]

end Token

theorem Token.lexemes_dropLast_scan (text : String) :
    (scan text).dropLast.map lexeme = Lexeme.ofText text.toList := by
  rw [List.map_dropLast, lexemes_scan, List.dropLast_concat]

theorem Lexeme.meantOf_of_noMeaning {text : String} (noMeaning : Token.significant text = []) :
    meantOf text.toList = [] := by
  rw [← Token.lexemes_significant, noMeaning, List.map_nil]

theorem Layout.skipped {text : String} (layout : Layout text) : Lexeme.Skipped text.toList := by
  have noMeaning := Lexeme.meantOf_of_noMeaning layout.noMeaning
  have skipped := Lexeme.skipped_of_settled (Lexeme.settled_ofText text.toList)
    (by simpa using List.filter_eq_nil_iff.mp noMeaning) fun lexeme found => by
      rw [← Token.lexemes_dropLast_scan, List.getLast?_map, Option.mem_def,
        Option.map_eq_some_iff] at found
      obtain ⟨token, found, rfl⟩ := found
      exact layout.noComment token found
  rwa [Lexeme.spelling_ofText] at skipped

theorem Spacing.skipped {text : String} (spacing : Spacing text) :
    Lexeme.Skipped text.toList :=
  Layout.skipped ⟨spacing.noMeaning, spacing.noComment⟩

theorem Spacing.starts_layout {text : String} (spacing : Spacing text) :
    ∀ c ∈ text.toList.head?, Lexer.isBlank c ∨ Lexer.isLineFeed c := by
  obtain ⟨first, member, whole⟩ := spacing.starts
  intro c found
  rw [whole, Option.mem_some_iff] at found
  subst found
  simp only [List.mem_cons, List.not_mem_nil, or_false] at member
  rcases member with rfl | rfl | rfl <;> simp [Lexer.isBlank, Lexer.isLineFeed]

theorem counted_insert_layout {before layout behind : String} {front back : List Token}
    (scanned : Token.scan (before ++ behind) = front ++ back)
    (boundary : before.toList = Lexeme.spelling (front.map Token.lexeme))
    (spacing : Spacing layout) :
    Token.counted (Token.scan (before ++ layout ++ behind)) =
      Token.counted (Token.scan (before ++ behind)) := by
  have whole := Token.inside_scan (before ++ behind)
  have frontText := Token.spelling_inside (scanned ▸ List.subset_append_left front back)
  have settled := Lexeme.settled_ofText (before ++ behind).toList
  have text := Lexeme.spelling_ofText (before ++ behind).toList
  rw [← whole, scanned, Token.inside_append] at settled text
  rw [Lexeme.spelling_append, String.toList_append, frontText, ← boundary,
    List.append_cancel_left_eq] at text
  rw [Token.counted_scan, Token.counted_scan, String.toList_append, String.toList_append,
    String.toList_append, boundary, ← frontText, ← text]
  exact Lexeme.meantOf_insert spacing.skipped spacing.starts_layout settled

/-- The tokens in `front` are those of a text up to the last one of an element. -/
structure Item.EndsAt (item : Item) (program : Program) (text : String) (front back : List Token) :
    Prop where
  scanned : Token.scan text = front ++ back
  ends : ItemEnds program item (Token.counted front) (Token.counted back)
  last : ∀ token ∈ front.getLast?, token.isSignificant

theorem Lexeme.EndsElement.stops_comma {lexeme : Lexeme} (ends : lexeme.EndsElement) :
    continues lexeme.kind lexeme.text.toList ',' = false := by
  rcases ends with name | bracket
  · rw [name]
    rfl
  · rw [bracket]
    rfl

section Comma

variable {item : Item} {program : Program} {text : String}

theorem Item.EndsAt.getLast?_inside {front back : List Token}
    (ends : item.EndsAt program text front back) :
    ∀ lexeme ∈ (Token.inside front).getLast?, lexeme.EndsElement := by
  obtain ⟨init, last, counted, endsElement⟩ := ends.ends.last
  rcases List.eq_nil_or_concat front with rfl | ⟨others, token, rfl⟩
  · simp [Token.counted] at counted
  · have counts : token.isSignificant := ends.last token (by simp)
    rw [List.concat_eq_append] at counted ⊢
    rw [Token.counted_append, Token.counted_of_isSignificant counts, List.append_singleton_inj]
      at counted
    have noEnd := (Token.isSignificant_iff.mp counts).2
    have alone : Token.inside [token] = [token.lexeme] := by
      simp [Token.inside, Token.lexeme, noEnd]
    intro lexeme found
    rw [Token.inside_append, alone, List.getLast?_concat, Option.mem_some_iff] at found
    rwa [← found, counted.2]

theorem Item.EndsAt.parse_insert_comma {front back : List Token}
    (ends : item.EndsAt program text front back) :
    Program.parse (String.ofList (Lexeme.spelling (front.map Token.lexeme) ++
      ',' :: Lexeme.spelling (back.map Token.lexeme))) = .ok program := by
  have settled := Lexeme.settled_ofText text.toList
  rw [← Token.inside_scan, ends.scanned, Token.inside_append] at settled
  have comma : Lexeme.Settled (Token.inside front ++ .mark .comma :: Token.inside back) := by
    have alone : Lexeme.Settled (.mark .comma :: Token.inside back) :=
      .cons (Lexeme.spells_sign rfl) (fun c _ => rfl) settled.of_append
    refine settled.replace alone ?_
    intro lexeme found c first
    obtain rfl : ',' = c := by simpa [Lexeme.spelling, Lexeme.mark, Token.Kind.sign] using first
    exact (ends.getLast?_inside lexeme found).stops_comma
  have frontText := Token.spelling_inside (ends.scanned ▸ List.subset_append_left front back)
  have backText := Token.spelling_inside (ends.scanned ▸ List.subset_append_right front back)
  have whole := Lexeme.ofText_insert comma
  have one : (Lexeme.mark .comma).text.toList = [','] := rfl
  rw [frontText, backText, one, List.append_assoc, List.singleton_append] at whole
  have written := ends.ends.written_comma
  rw [Token.counted_eq_filter, Token.counted_eq_filter] at written
  rw [parse_eq_ok_iff_meantOf, String.toList_ofList, Lexeme.meantOf, whole, List.filter_append]
  exact written

theorem Item.exists_endsAt (parsed : Program.parse text = .ok program) (has : program.Has item) :
    exists front back, item.EndsAt program text front back := by
  rw [parse_eq_ok_iff_meantOf, ← Token.counted_scan] at parsed
  obtain ⟨before, behind, whole, ends⟩ := ItemEnds.exists_of_written parsed has
  obtain ⟨init, last, rfl, -⟩ := ends.last
  -- the token that stands for the last lexeme, and behind it whatever there is
  rw [List.append_assoc, List.singleton_append, Token.counted] at whole
  obtain ⟨first, others, split, rfl, rest⟩ := List.map_eq_append_iff.mp whole
  obtain ⟨token, later, rfl, rfl, rfl⟩ := List.map_eq_cons_iff.mp rest
  obtain ⟨front, back, scanned, counts, rfl, rfl⟩ := exists_of_filter split
  refine ⟨front ++ [token], back, by simpa using scanned, ?_, by simpa using counts⟩
  rwa [Token.counted_append, Token.counted_of_isSignificant counts]

end Comma

/-- Neither layout between two tokens counts nor a comma behind an element. -/
theorem parse_insert :
    (∀ before layout behind : String, ∀ front back,
      Token.scan (before ++ behind) = front ++ back ->
      before.toList = Lexeme.spelling (front.map Token.lexeme) -> Spacing layout ->
        SameOutcome (Program.parse (before ++ layout ++ behind))
          (Program.parse (before ++ behind))) ∧
    ∀ text program item, Program.parse text = .ok program -> program.Has item ->
      (exists front back, item.EndsAt program text front back) ∧
      ∀ front back, item.EndsAt program text front back ->
        Program.parse (String.ofList (Lexeme.spelling (front.map Token.lexeme) ++
          ',' :: Lexeme.spelling (back.map Token.lexeme))) = .ok program := by
  refine ⟨fun before layout behind front back scanned boundary spacing => ?_, ?_⟩
  · exact sameOutcome_of_counted (counted_insert_layout scanned boundary spacing)
  · intro text program item parsed has
    exact ⟨Item.exists_endsAt parsed has, fun front back ends => ends.parse_insert_comma⟩

theorem parse_insert_comment :
    let before := "Inputs:a[2]"
    let layout := "\t// two pins\n"
    let behind := ",b;Outputs:;Parts:;Wires:;"
    let pair : Port := { id := "a", pins := { first := 1, last := 2 } }
    let bare : Port := { id := "b", pins := { first := 1, last := 1 } }
    let program : Program := { inputs := [pair, bare] }
    Program.parse (before ++ behind) = .ok program ∧
      Program.parse (before ++ layout ++ behind) = .ok program ∧
      exists front back, (Item.input 1).EndsAt program (before ++ behind) front back ∧
        Program.parse (String.ofList (Lexeme.spelling (front.map Token.lexeme) ++
          ',' :: Lexeme.spelling (back.map Token.lexeme))) = .ok program := by
  intro before layout behind pair bare program
  have parsed : Program.parse (before ++ behind) = .ok program := by decide +kernel
  have spacing : Spacing layout :=
    { starts := ⟨'\t', by simp, by decide +kernel⟩
      noMeaning := by decide +kernel
      noComment := by decide +kernel }
  have scanned := (List.take_append_drop 6 (Token.scan (before ++ behind))).symm
  have boundary : before.toList =
      Lexeme.spelling (((Token.scan (before ++ behind)).take 6).map Token.lexeme) := by
    decide +kernel
  have same := parse_insert.1 before layout behind _ _ scanned boundary spacing
  obtain ⟨⟨front, back, ends⟩, inserted⟩ := parse_insert.2 _ _ (.input 1) parsed Nat.one_lt_two
  exact ⟨parsed, (parsed ▸ same).eq_ok, front, back, ends, inserted front back ends⟩

end Netlist
