import Netlist.Proofs.Lexing.Meant

set_option autoImplicit false

namespace Netlist.Lexeme

open Lexer (isBlank isLineFeed)

section Layout

theorem skipped_blanks {word text : List Char} (blanks : ∀ c ∈ word, isBlank c)
    (skipped : Skipped text) : Skipped (word ++ text) := by
  induction word with
  | nil => exact skipped
  | cons c word ih =>
      obtain ⟨blank, blanks⟩ := List.forall_mem_cons.mp blanks
      exact .blank blank (ih blanks)

theorem skipped_lineFeeds {word text : List Char} (feeds : ∀ c ∈ word, isLineFeed c)
    (skipped : Skipped text) : Skipped (word ++ text) := by
  induction word with
  | nil => exact skipped
  | cons c word ih =>
      obtain ⟨feed, feeds⟩ := List.forall_mem_cons.mp feeds
      have same : c = '\n' := by simpa [isLineFeed] using feed
      exact same ▸ .lineFeed (ih feeds)

theorem Spells.skipped_or_comment {kind : Token.Kind} {word : List Char}
    (spells : Spells kind word) (layout : kind.isLayout) :
    (∀ text, Skipped text -> Skipped (word ++ text)) ∨
      kind = .comment ∧ exists line, word = '/' :: '/' :: line ∧ ∀ c ∈ line, !isLineFeed c := by
  cases spells with
  | blank blank blanks =>
      exact .inl fun _ => skipped_blanks (List.forall_mem_cons.mpr ⟨blank, blanks⟩)
  | newline feed feeds =>
      exact .inl fun _ => skipped_lineFeeds (List.forall_mem_cons.mpr ⟨feed, feeds⟩)
  | comment line => exact .inr ⟨rfl, _, rfl, line⟩
  | word letter more =>
      unfold Token.Kind.ofWord at layout
      split at layout <;> simp [Token.Kind.isLayout] at layout
  | lone lone =>
      unfold Lexer.delimiter? at layout
      split at layout <;> simp [Token.Kind.isLayout] at layout
  | _ => simp [Token.Kind.isLayout] at layout

theorem eq_cons_of_stops_comment {text word : List Char} (some' : text ≠ [])
    (stops : ∀ c ∈ text.head?, continues .comment word c = false) :
    exists rest, text = '\n' :: rest := by
  cases text with
  | nil => exact absurd rfl some'
  | cons c rest =>
      have feed : c = '\n' := by simpa [continues, isLineFeed] using stops c rfl
      exact ⟨rest, by rw [feed]⟩

theorem skipped_of_settled {lexemes : List Lexeme} (settled : Settled lexemes)
    (layout : ∀ lexeme ∈ lexemes, lexeme.kind.isLayout)
    (noComment : ∀ lexeme ∈ lexemes.getLast?, lexeme.kind ≠ .comment) :
    Skipped (spelling lexemes) := by
  induction settled with
  | nil => exact .nil
  | @cons lexeme rest spells stops settled ih =>
      obtain ⟨here, others⟩ := List.forall_mem_cons.mp layout
      have behind : Skipped (spelling rest) := by
        refine ih others fun last found => noComment last ?_
        rw [List.getLast?_cons, Option.mem_def.mp found]
        rfl
      rw [spelling_cons]
      rcases spells.skipped_or_comment here with skipped | ⟨comment, line, word, noFeed⟩
      · exact skipped _ behind
      · have some' : spelling rest ≠ [] := by
          cases settled with
          | nil => exact absurd comment (noComment lexeme rfl)
          | cons spells stops settled => simp [spelling_cons, spells.ne_nil]
        -- another lexeme follows, and only a line feed can stop the comment
        rw [comment] at stops
        obtain ⟨text, whole⟩ := eq_cons_of_stops_comment some' stops
        rw [whole] at behind ⊢
        rw [word]
        exact .comment noFeed behind

theorem not_isLineFeed_of_isBlank {c : Char} (blank : isBlank c) : !isLineFeed c := by
  simp only [isBlank, Bool.or_eq_true, decide_eq_true_eq] at blank
  rcases blank with rfl | rfl <;> decide

theorem meantOf_dropWhile_of_skipped {layout text : List Char} (skipped : Skipped layout)
    (feed : ∀ c ∈ text.head?, isLineFeed c) :
    meantOf ((layout ++ text).dropWhile fun c => !isLineFeed c) = meantOf text := by
  induction skipped with
  | nil =>
      cases text with
      | nil => rfl
      | cons c text => rw [List.nil_append, List.dropWhile_cons_of_neg (by simp [feed c rfl])]
  | blank blank further ih =>
      have passed := not_isLineFeed_of_isBlank blank
      exact (congrArg meantOf (List.dropWhile_cons_of_pos passed)).trans ih
  | lineFeed further ih =>
      rw [List.cons_append, List.dropWhile_cons_of_neg (by decide)]
      exact meantOf_of_skipped (.lineFeed further) text
  | @comment line rest noFeed further ih =>
      have slash : !isLineFeed '/' := by decide
      have passed : ∀ c ∈ '/' :: '/' :: line, !isLineFeed c :=
        List.forall_mem_cons.mpr ⟨slash, List.forall_mem_cons.mpr ⟨slash, noFeed⟩⟩
      rw [List.append_assoc]
      exact (congrArg meantOf (dropWhile_line passed (rest ++ text))).trans
        (meantOf_of_skipped further text)

end Layout

theorem Settled.of_append {front back : List Lexeme} (settled : Settled (front ++ back)) :
    Settled back := by
  induction front with
  | nil => exact settled
  | cons lexeme front ih => exact ih (settled_cons_iff.mp settled).2.2

theorem Settled.stops_behind {lexeme next : Lexeme} {rest : List Lexeme}
    (settled : Settled (lexeme :: next :: rest)) (text : List Char) :
    ∀ c ∈ (next.text.toList ++ text).head?,
      continues lexeme.kind lexeme.text.toList c = false := by
  obtain ⟨-, stops, settled⟩ := settled_cons_iff.mp settled
  obtain ⟨spells, -, -⟩ := settled_cons_iff.mp settled
  rw [head?_spelling_cons spells] at stops
  rwa [head?_append_of_spells spells]

theorem Settled.replace {front back other : List Lexeme} (settled : Settled (front ++ back))
    (further : Settled other)
    (stops : ∀ lexeme ∈ front.getLast?, ∀ c ∈ (spelling other).head?,
      continues lexeme.kind lexeme.text.toList c = false) :
    Settled (front ++ other) := by
  induction front with
  | nil => exact further
  | cons lexeme front ih =>
      obtain ⟨spells, -, later⟩ := settled_cons_iff.mp settled
      cases front with
      | nil => exact .cons spells (stops lexeme rfl) further
      | cons next front =>
          have others := ih later fun last found => stops last (by simpa using found)
          exact .cons spells (settled.stops_behind _) others

theorem ofText_insert {front back : List Lexeme} {lexeme : Lexeme}
    (settled : Settled (front ++ lexeme :: back)) :
    ofText (spelling front ++ lexeme.text.toList ++ spelling back) = front ++ lexeme :: back := by
  have whole := ofText_spelling settled
  rwa [spelling_append, spelling_cons, ← List.append_assoc] at whole

section Insertion

variable {layout : List Char} (skipped : Skipped layout)
  (starts : ∀ c ∈ layout.head?, isBlank c ∨ isLineFeed c)

include skipped starts

theorem meantOf_insert_behind {lexeme : Lexeme} {text : List Char}
    (spells : Spells lexeme.kind lexeme.text.toList)
    (stops : ∀ c ∈ text.head?, continues lexeme.kind lexeme.text.toList c = false) :
    meantOf (lexeme.text.toList ++ layout ++ text) = meantOf (lexeme.text.toList ++ text) := by
  rw [List.append_assoc]
  by_cases counts : lexeme.kind.isLayout
  · rcases spells.skipped_or_comment counts with before | ⟨comment, line, word, noFeed⟩
    -- blanks and line feeds do not count either, wherever they end
    · have before := before [] .nil
      rw [List.append_nil] at before
      rw [meantOf_of_skipped before, meantOf_of_skipped before, meantOf_of_skipped skipped]
    · have feed : ∀ c ∈ text.head?, isLineFeed c := by simpa [comment, continues] using stops
      rw [word, List.cons_append, List.cons_append, List.cons_append, List.cons_append,
        meantOf_comment, meantOf_comment, List.dropWhile_append_of_pos noFeed,
        List.dropWhile_append_of_pos noFeed, meantOf_dropWhile_of_skipped skipped feed]
      exact (meantOf_dropWhile_of_skipped .nil feed).symm
  · rw [meantOf_append spells stops, meantOf_append spells, meantOf_of_skipped skipped]
    cases layout with
    | nil => exact stops
    | cons c rest =>
        intro d found
        rw [List.cons_append, List.head?_cons, Option.mem_some_iff] at found
        exact continues_layout counts (starts d (by simp [found]))

theorem meantOf_insert {front back : List Lexeme} (settled : Settled (front ++ back)) :
    meantOf (spelling front ++ layout ++ spelling back) =
      meantOf (spelling front ++ spelling back) := by
  induction front with
  | nil => exact meantOf_of_skipped skipped _
  | cons lexeme front ih =>
      obtain ⟨spells, stops, later⟩ := settled_cons_iff.mp settled
      rw [spelling_cons]
      -- the lexeme is complete where the next one begins, and that may be behind the layout
      cases front with
      | nil => simpa [spelling_nil] using meantOf_insert_behind skipped starts spells stops
      | cons next front =>
          have stops (text : List Char) : ∀ c ∈ (spelling (next :: front) ++ text).head?,
              continues lexeme.kind lexeme.text.toList c = false := by
            rw [spelling_cons, List.append_assoc]
            exact settled.stops_behind _
          rw [List.append_assoc, List.append_assoc, List.append_assoc,
            meantOf_append spells (stops _), meantOf_append spells (stops _),
            ← List.append_assoc, ih later]

end Insertion

end Netlist.Lexeme
