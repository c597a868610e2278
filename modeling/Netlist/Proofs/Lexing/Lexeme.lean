import Mathlib.Data.List.TakeWhile
import Mathlib.Tactic.SplitIfs
import Netlist.Lexer

set_option autoImplicit false

namespace Netlist

structure Lexeme where
  kind : Token.Kind
  text : String
deriving DecidableEq

def Token.lexeme (token : Token) : Lexeme :=
  { kind := token.kind, text := token.text }

namespace Lexeme

open Lexer (isBlank isLineFeed delimiter?)

def isLone (c : Char) : Bool :=
  !(isBlank c || isLineFeed c || c.isDigit || c.isAlpha || c = '-' || c = '/')

inductive Spells : Token.Kind -> List Char -> Prop where
  | blank {first : Char} {word : List Char} (blank : isBlank first)
      (blanks : ∀ c ∈ word, isBlank c) : Spells .blank (first :: word)
  | newline {first : Char} {word : List Char} (feed : isLineFeed first)
      (feeds : ∀ c ∈ word, isLineFeed c) : Spells .newline (first :: word)
  | digits {first : Char} {word : List Char} (digit : first.isDigit)
      (digits : ∀ c ∈ word, c.isDigit) : Spells .digits (first :: word)
  | word {first : Char} {word : List Char} (letter : first.isAlpha)
      (more : ∀ c ∈ word, c.isAlphanum) :
      Spells (.ofWord (String.ofList (first :: word))) (first :: word)
  | arrow : Spells .arrow ['-', '>']
  | dash : Spells .invalid ['-']
  | comment {word : List Char} (line : ∀ c ∈ word, !isLineFeed c) :
      Spells .comment ('/' :: '/' :: word)
  | slash : Spells .invalid ['/']
  -- a delimiter, or a character that starts nothing
  | lone {c : Char} (lone : isLone c) : Spells ((delimiter? c).getD .invalid) [c]

/-- Whether `c` right behind a lexeme would belong to it. -/
def continues (kind : Token.Kind) (word : List Char) (c : Char) : Bool :=
  match kind with
  | .blank => isBlank c
  | .newline => isLineFeed c
  | .digits => c.isDigit
  | .name | .keyword _ => c.isAlphanum
  | .comment => !isLineFeed c
  | .invalid => word = ['-'] && c = '>' || word = ['/'] && c = '/'
  | _ => false

def cutDash : List Char -> Token.Kind × List Char × List Char
  | '>' :: rest => (.arrow, ['-', '>'], rest)
  | text => (.invalid, ['-'], text)

def cutSlash : List Char -> Token.Kind × List Char × List Char
  | '/' :: rest =>
      (.comment, '/' :: '/' :: rest.takeWhile fun c => !isLineFeed c,
        rest.dropWhile fun c => !isLineFeed c)
  | text => (.invalid, ['/'], text)

def cut (first : Char) (text : List Char) : Token.Kind × List Char × List Char :=
  if isBlank first then (.blank, first :: text.takeWhile isBlank, text.dropWhile isBlank)
  else if isLineFeed first then
    (.newline, first :: text.takeWhile isLineFeed, text.dropWhile isLineFeed)
  else if first.isDigit then
    (.digits, first :: text.takeWhile Char.isDigit, text.dropWhile Char.isDigit)
  else if first.isAlpha then
    (.ofWord (String.ofList (first :: text.takeWhile Char.isAlphanum)),
      first :: text.takeWhile Char.isAlphanum, text.dropWhile Char.isAlphanum)
  else if first = '-' then cutDash text
  else if first = '/' then cutSlash text
  else ((delimiter? first).getD .invalid, [first], text)

theorem continues_ofWord (text : String) (word : List Char) (c : Char) :
    continues (.ofWord text) word c = c.isAlphanum := by
  unfold Token.Kind.ofWord
  cases Heading.ofWord? text <;> rfl

theorem continues_lone {first : Char} (lone : isLone first) (c : Char) :
    continues ((delimiter? first).getD .invalid) [first] c = false := by
  have noDash : first ≠ '-' := by rintro rfl; simp [isLone] at lone
  have noSlash : first ≠ '/' := by rintro rfl; simp [isLone] at lone
  unfold delimiter?
  split <;> simp [continues, noDash, noSlash]

theorem not_layout_of_isAlphanum {c : Char} (alphanum : c.isAlphanum) :
    ¬ isBlank c ∧ ¬ isLineFeed c := by
  constructor
  · intro blank
    simp only [isBlank, Bool.or_eq_true, decide_eq_true_eq] at blank
    rcases blank with rfl | rfl <;> simp at alphanum
  · intro feed
    simp only [isLineFeed, decide_eq_true_eq] at feed
    subst feed
    simp at alphanum

theorem not_isDigit_of_isAlpha {c : Char} (letter : c.isAlpha) : ¬ c.isDigit := by
  intro digit
  -- both classes as bounds on the code point
  have letters : (decide ('A'.val ≤ c.val ∧ c.val ≤ 'Z'.val) ||
      (decide ('a'.val ≤ c.val) && decide (c.val ≤ 'z'.val))) = true := letter
  have digits : (decide ('0'.val ≤ c.val) && decide (c.val ≤ '9'.val)) = true := digit
  simp only [Bool.or_eq_true, Bool.and_eq_true, decide_eq_true_eq, UInt32.le_iff_toNat_le]
    at letters digits
  have nine : '9'.val.toNat = 57 := rfl
  have upper : 'A'.val.toNat = 65 := rfl
  have lower : 'a'.val.toNat = 97 := rfl
  omega

theorem takeWhile_dropWhile_of_stop {accept : Char -> Bool} {word rest : List Char}
    (inside : ∀ c ∈ word, accept c) (stop : ∀ c ∈ rest.head?, accept c = false) :
    (word ++ rest).takeWhile accept = word ∧ (word ++ rest).dropWhile accept = rest := by
  rw [List.takeWhile_append_of_pos inside, List.dropWhile_append_of_pos inside]
  cases rest with
  | nil => simp
  | cons c tail => simp [stop c rfl]

theorem stop_dropWhile (accept : Char -> Bool) (text : List Char) :
    ∀ c ∈ (text.dropWhile accept).head?, accept c = false := by
  intro c found
  induction text with
  | nil => simp at found
  | cons d rest ih =>
      by_cases accepted : accept d
      · rw [List.dropWhile_cons_of_pos accepted] at found
        exact ih found
      · rw [List.dropWhile_cons_of_neg accepted, List.head?_cons, Option.mem_some_iff] at found
        simpa [← found] using accepted

theorem cutDash_cons {c : Char} (other : c ≠ '>') (rest : List Char) :
    cutDash (c :: rest) = (.invalid, ['-'], c :: rest) := by
  rw [cutDash]
  intro _ same
  exact other (List.cons.inj same).1

theorem cutSlash_cons {c : Char} (other : c ≠ '/') (rest : List Char) :
    cutSlash (c :: rest) = (.invalid, ['/'], c :: rest) := by
  rw [cutSlash]
  intro _ same
  exact other (List.cons.inj same).1

theorem cut_append (first : Char) (text : List Char) :
    (cut first text).2.1 ++ (cut first text).2.2 = first :: text := by
  unfold cut
  split_ifs with blank feed digit letter dash slash
  · simp
  · simp
  · simp
  · simp
  · subst dash
    fun_cases cutDash text <;> rfl
  · subst slash
    fun_cases cutSlash text <;> simp
  · rfl

theorem spells_cut (first : Char) (text : List Char) :
    Spells (cut first text).1 (cut first text).2.1 := by
  have run (accept : Char -> Bool) (word : List Char) : ∀ c ∈ word.takeWhile accept, accept c :=
    fun _ member => List.mem_takeWhile_imp member
  unfold cut
  split_ifs with blank feed digit letter dash slash
  · exact Spells.blank blank (run isBlank text)
  · exact Spells.newline feed (run isLineFeed text)
  · exact Spells.digits digit (run Char.isDigit text)
  · exact Spells.word letter (run Char.isAlphanum text)
  · fun_cases cutDash text with
    | case1 rest => exact Spells.arrow
    | case2 other => exact Spells.dash
  · fun_cases cutSlash text with
    | case1 rest => exact Spells.comment (run (fun c => !isLineFeed c) rest)
    | case2 other => exact Spells.slash
  · exact Spells.lone (by simp [isLone, blank, feed, digit, letter, dash, slash])

theorem Spells.ne_nil {kind : Token.Kind} {word : List Char} (spells : Spells kind word) :
    word ≠ [] := by
  cases spells <;> simp

theorem Spells.ne_endOfInput {kind : Token.Kind} {word : List Char} (spells : Spells kind word) :
    kind ≠ .endOfInput := by
  cases spells with
  | word letter more =>
      unfold Token.Kind.ofWord
      split <;> simp
  | lone lone =>
      unfold delimiter?
      split <;> simp
  | _ => simp

theorem length_cut_le (first : Char) (text : List Char) :
    (cut first text).2.2.length ≤ text.length := by
  have whole := congrArg List.length (cut_append first text)
  have positive := List.length_pos_iff.mpr (spells_cut first text).ne_nil
  simp only [List.length_append, List.length_cons] at whole
  omega

theorem stops_cut (first : Char) (text : List Char) :
    ∀ c ∈ (cut first text).2.2.head?,
      continues (cut first text).1 (cut first text).2.1 c = false := by
  unfold cut
  split_ifs with blank feed digit letter dash slash
  · exact stop_dropWhile isBlank text
  · exact stop_dropWhile isLineFeed text
  · exact stop_dropWhile Char.isDigit text
  · simpa only [continues_ofWord] using stop_dropWhile Char.isAlphanum text
  · cases text with
    | nil => simp [cutDash]
    | cons d rest =>
        by_cases arrow : d = '>'
        · simp [arrow, cutDash, continues]
        · simp [cutDash_cons arrow, continues, arrow]
  · cases text with
    | nil => simp [cutSlash]
    | cons d rest =>
        by_cases comment : d = '/'
        · subst comment
          exact stop_dropWhile (fun c => !isLineFeed c) rest
        · simp [cutSlash_cons comment, continues, comment]
  · intro c _
    exact continues_lone (by simp [isLone, blank, feed, digit, letter, dash, slash]) c

theorem cut_of_spells {kind : Token.Kind} {first : Char} {word rest : List Char}
    (spells : Spells kind (first :: word))
    (stops : ∀ c ∈ rest.head?, continues kind (first :: word) c = false) :
    cut first (word ++ rest) = (kind, first :: word, rest) := by
  cases spells with
  | blank blank blanks =>
      obtain ⟨taken, dropped⟩ := takeWhile_dropWhile_of_stop blanks stops
      rw [cut, if_pos blank, taken, dropped]
  | newline feed feeds =>
      -- the classes do not overlap, so `cut` gets as far as its own branch
      have blank : ¬ isBlank first := by
        have same : first = '\n' := by simpa [isLineFeed] using feed
        rw [same]
        decide
      obtain ⟨taken, dropped⟩ := takeWhile_dropWhile_of_stop feeds stops
      rw [cut, if_neg blank, if_pos feed, taken, dropped]
  | digits digit digits =>
      have ⟨blank, feed⟩ := not_layout_of_isAlphanum (c := first) (by simp [Char.isAlphanum, digit])
      obtain ⟨taken, dropped⟩ := takeWhile_dropWhile_of_stop digits stops
      rw [cut, if_neg blank, if_neg feed, if_pos digit, taken, dropped]
  | word letter more =>
      have ⟨blank, feed⟩ := not_layout_of_isAlphanum (c := first) (by simp [Char.isAlphanum, letter])
      have digit : ¬ first.isDigit := not_isDigit_of_isAlpha letter
      simp only [continues_ofWord] at stops
      obtain ⟨taken, dropped⟩ := takeWhile_dropWhile_of_stop more stops
      rw [cut, if_neg blank, if_neg feed, if_neg digit, if_pos letter, taken, dropped]
  | arrow => rfl
  -- a dash alone is a lexeme only where no arrow begins
  | dash =>
      cases rest with
      | nil => rfl
      | cons c rest =>
          have arrow : c ≠ '>' := by simpa [continues] using stops c rfl
          exact cutDash_cons arrow rest
  | comment line =>
      rename_i line
      obtain ⟨taken, dropped⟩ := takeWhile_dropWhile_of_stop line stops
      change cutSlash ('/' :: (_ ++ rest)) = _
      rw [cutSlash, taken, dropped]
  | slash =>
      cases rest with
      | nil => rfl
      | cons c rest =>
          have comment : c ≠ '/' := by simpa [continues] using stops c rfl
          exact cutSlash_cons comment rest
  | lone lone =>
      simp only [isLone, Bool.not_eq_true', Bool.or_eq_false_iff, decide_eq_false_iff_not] at lone
      obtain ⟨⟨⟨⟨⟨blank, feed⟩, digit⟩, letter⟩, dash⟩, slash⟩ := lone
      simp [cut, blank, feed, digit, letter, dash, slash]

end Lexeme

end Netlist
