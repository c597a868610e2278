import Netlist.Proofs.Lexing.Pulled
import Netlist.Proofs.Stream.Characters

set_option autoImplicit false

namespace Netlist

class Streamed (σ : Type) extends Source σ where
  reader : σ -> ByteReader
  replace : σ -> ByteReader -> σ

instance : Streamed ByteReader where
  reader := id
  replace _ reader := reader

instance {σ : Type} [Streamed σ] : Streamed (Recorded σ) where
  reader recorded := Streamed.reader recorded.source
  replace recorded reader :=
    { recorded with source := Streamed.replace recorded.source reader }

inductive Request where
  | token
  -- from the reader underneath, whatever is held
  | character
  | fault
  | takeFault

inductive Reply where
  | token (token : Token)
  | character (found : Option Char)
  | fault (kept : Option Fault)
  | taken (kept : Option Fault)

def Reply.faults : Reply -> List Fault
  | .taken kept => kept.toList
  | _ => []

namespace Lexer

theorem source_pull {σ : Type} [Source σ] (lexer : Lexer σ) :
    lexer.pull.2.source = (Source.pull lexer.source).2 := by
  unfold pull
  split <;> rename_i step <;> rw [step]

theorem next_of_end {σ : Type} [Source σ] {lexer : Lexer σ} (held : lexer.held = none)
    (nothing : lexer.pull.1 = none) :
    lexer.next = (Token.ending lexer.position, lexer.pull.2) := by
  have read : lexer.read = (none, lexer.pull.2) := by
    rw [Lexer.read, held]
    cases step : lexer.pull with
    | mk found rest =>
        rw [step] at nothing
        cases nothing
        rfl
  rw [next, read]
  rfl

section Requests

variable {σ τ : Type} [Streamed σ] [Streamed τ]

def answer (lexer : Lexer σ) : Request -> Reply × Lexer σ
  | .token =>
      let (token, rest) := lexer.next
      (.token token, rest)
  | .character =>
      let (found, rest) := lexer.pull
      (.character found, rest)
  | .fault => (.fault (Streamed.reader lexer.source).kept, lexer)
  | .takeFault =>
      let (kept, reader) := (Streamed.reader lexer.source).takeFault
      (.taken kept, { lexer with source := Streamed.replace lexer.source reader })

def serve (lexer : Lexer σ) : List Request -> List Reply × Lexer σ
  | [] => ([], lexer)
  | request :: requests =>
      let (reply, rest) := lexer.answer request
      let (replies, last) := rest.serve requests
      (reply :: replies, last)

theorem serve_cons (lexer : Lexer σ) (request : Request) (requests : List Request) :
    lexer.serve (request :: requests) =
      ((lexer.answer request).1 :: ((lexer.answer request).2.serve requests).1,
        ((lexer.answer request).2.serve requests).2) := rfl

theorem exists_of_serve {lexer : Lexer σ} {requests : List Request} {reply : Reply}
    {front back : List Reply} (replies : (lexer.serve requests).1 = front ++ reply :: back) :
    exists before request after,
      let middle := (lexer.serve before).2
      (middle.answer request).1 = reply ∧ ((middle.answer request).2.serve after).1 = back := by
  induction requests generalizing lexer front with
  | nil => simp [serve] at replies
  | cons request requests ih =>
      rw [serve_cons] at replies
      cases front with
      | nil =>
          obtain ⟨here, behind⟩ := List.cons.inj replies
          exact ⟨[], request, requests, here, behind⟩
      | cons first front =>
          obtain ⟨before, asked, after, here, behind⟩ := ih (List.cons.inj replies).2
          exact ⟨request :: before, asked, after, here, behind⟩

def SameKept (same : Origin σ -> Origin τ -> Prop) : Prop :=
  ∀ left right, same left right ->
    (Streamed.reader left.1).kept = (Streamed.reader right.1).kept ∧
      same (Streamed.replace left.1 (Streamed.reader left.1).takeFault.2, left.2)
        (Streamed.replace right.1 (Streamed.reader right.1).takeFault.2, right.2)

theorem mirrors_serve {same : Origin σ -> Origin τ -> Prop} (agree : Origin.Agree same)
    (sameKept : SameKept same) {left : Lexer σ} {right : Lexer τ}
    (mirrors : left.Mirrors same right)
    (requests : List Request) :
    (left.serve requests).1 = (right.serve requests).1 ∧
      (left.serve requests).2.Mirrors same (right.serve requests).2 := by
  induction requests generalizing left right with
  | nil => exact ⟨rfl, mirrors⟩
  | cons request requests ih =>
      have step : (left.answer request).1 = (right.answer request).1 ∧
          (left.answer request).2.Mirrors same (right.answer request).2 := by
        obtain ⟨kept, taken⟩ := sameKept _ _ mirrors.origin
        cases request with
        | token =>
            obtain ⟨after, other, further⟩ := mirrors_next agree mirrors
            rw [answer, answer, other]
            exact ⟨rfl, further⟩
        | character =>
            obtain ⟨after, other, further⟩ := mirrors_pull agree mirrors
            rw [answer, answer, other]
            exact ⟨rfl, further⟩
        | fault => exact ⟨congrArg Reply.fault kept, mirrors⟩
        | takeFault =>
            exact ⟨congrArg Reply.taken kept,
              ⟨taken, mirrors.held, mirrors.position, mirrors.previous⟩⟩
      obtain ⟨replies, last⟩ := ih step.2
      rw [serve_cons, serve_cons, step.1, replies]
      exact ⟨rfl, last⟩

end Requests

end Lexer

/-- How far a recorded reader has got in a script of these characters and this ending. In front of
the end nothing is kept. From the end on no read is issued, and the ending is kept or was taken. -/
inductive Stands (chars : List Char) (ending : Option Fault) (taken : List Fault) :
    Recorded ByteReader -> Prop where
  | running {front rest : List Char} {script : List Read} (none' : taken = [])
      (whole : chars = front ++ rest) (decoded : Utf8.characters script = (rest, ending)) :
      Stands chars ending taken { source := { script }, pulled := front.map some }
  | ended {script : List Read} {kept : Option Fault} (count : Nat)
      (accounted : taken ++ kept.toList = ending.toList) :
      Stands chars ending taken
        { source := { script, kept, finished := true }
          pulled := chars.map some ++ List.replicate (count + 1) none }

namespace Stands

variable {chars : List Char} {ending : Option Fault} {taken : List Fault}
  {recorded : Recorded ByteReader}

theorem pull (stands : Stands chars ending taken recorded) :
    Stands chars ending taken (Source.pull recorded).2 := by
  cases stands with
  | @ended script kept count accounted =>
      have again : Stands chars ending taken
          { source := { script, kept, finished := true }
            pulled := chars.map some ++ List.replicate (count + 2) none } :=
        .ended (count + 1) accounted
      rw [List.replicate_succ', ← List.append_assoc] at again
      exact again
  | @running front rest script none' whole decoded =>
      have step : (Source.pull ({ source := { script }, pulled := front.map some } :
          Recorded ByteReader)).2 =
          { source := (ByteReader.pull { script }).2
            pulled := front.map some ++ [(ByteReader.pull { script }).1.char?] } := rfl
      rw [step, ByteReader.pull, if_neg Bool.false_ne_true]
      -- the script ends, fails or goes on with the next of its characters
      rcases found : Utf8.decode script with ⟨fault | none'' | c, left⟩
      · rw [Utf8.characters_of_fault found] at decoded
        obtain ⟨rfl, rfl⟩ := Prod.mk.inj decoded
        rw [whole, List.append_nil]
        exact .ended 0 (by simp [none'])
      · rw [Utf8.characters_of_end found] at decoded
        obtain ⟨rfl, rfl⟩ := Prod.mk.inj decoded
        rw [whole, List.append_nil]
        exact .ended 0 (by simp [none'])
      · rw [Utf8.characters_of_char found] at decoded
        obtain ⟨rfl, rfl⟩ := Prod.mk.inj decoded
        have further : Stands chars _ taken
            { source := { script := left }, pulled := (front ++ [c]).map some } :=
          .running none' (whole.trans (List.append_cons ..)) rfl
        rw [List.map_append] at further
        exact further

theorem takeFault (stands : Stands chars ending taken recorded) :
    Stands chars ending (taken ++ recorded.source.kept.toList)
      { recorded with source := recorded.source.takeFault.2 } := by
  cases stands with
  | running none' whole decoded => exact .running (by simp [none']) whole decoded
  | ended count accounted => exact .ended count (by simpa using accounted)

theorem finished_of_kept (stands : Stands chars ending taken recorded)
    (keeps : recorded.source.kept ≠ none) : recorded.source.finished := by
  cases stands with
  | running none' whole decoded => exact absurd rfl keeps
  | ended count accounted => rfl

theorem finished_iff (stands : Stands chars ending taken recorded) :
    recorded.source.finished ↔ none ∈ recorded.pulled := by
  cases stands with
  | running none' whole decoded => simp
  | ended count accounted => simp

theorem pulled_eq (stands : Stands chars ending taken recorded) :
    recorded.pulled = (List.range recorded.pulled.length).map fun place => chars[place]? := by
  refine List.ext_getElem (by simp) fun place inside _ => ?_
  rw [List.getElem_map, List.getElem_range]
  cases stands with
  | @running front rest script none' whole decoded =>
      have within : place < front.length := by simpa using inside
      rw [whole, List.getElem?_append_left within]
      simp
  | @ended script kept count accounted =>
      by_cases within : place < chars.length
      · simp [within]
      · simp [within, List.getElem_append]

theorem accounted (stands : Stands chars ending taken recorded) :
    taken ++ recorded.source.kept.toList =
      if none ∈ recorded.pulled then ending.toList else [] := by
  cases stands with
  | running none' whole decoded => simp [none']
  | ended count accounted => simpa using accounted

end Stands

namespace Lexer

variable {lexer : Lexer (Recorded ByteReader)}

section Finished

theorem pull_finished {recorded : Recorded ByteReader} (finished : recorded.source.finished) :
    Source.pull recorded =
      (.stop, { recorded with pulled := recorded.pulled ++ [none] }) := by
  change Recorded.pull recorded = _
  have stop : Source.pull recorded.source = (.stop, recorded.source) := if_pos finished
  rw [Recorded.pull, stop]
  rfl

theorem pull_of_finished (finished : lexer.source.source.finished) : lexer.pull.1 = none := by
  rw [pull, pull_finished finished]

theorem finished_answer (finished : lexer.source.source.finished) (request : Request) :
    (lexer.answer request).2.source.source.finished := by
  have pulls (recorded : Recorded ByteReader) (finished : recorded.source.finished) :
      (Source.pull recorded).2.source.finished := by
    rw [pull_finished finished]
    exact finished
  cases request with
  | token => exact keeps_nexts pulls finished 1
  | character =>
      change lexer.pull.2.source.source.finished
      rw [source_pull]
      exact pulls lexer.source finished
  | fault => exact finished
  | takeFault => exact finished

theorem character_of_finished (finished : lexer.source.source.finished) {requests : List Request}
    {found : Option Char} (member : .character found ∈ (lexer.serve requests).1) :
    found = none := by
  induction requests generalizing lexer with
  | nil => simp [serve] at member
  | cons request requests ih =>
      rw [serve_cons, List.mem_cons] at member
      rcases member with here | later
      · cases request with
        | character =>
            obtain rfl := Reply.character.inj here
            exact pull_of_finished finished
        | _ => nomatch here
      · exact ih (finished_answer finished request) later

structure Exhausted (lexer : Lexer (Recorded ByteReader)) (place : Position) : Prop where
  finished : lexer.source.source.finished
  held : lexer.held = none
  position : lexer.position = place

theorem Exhausted.next {place : Position} (exhausted : lexer.Exhausted place) :
    lexer.next = (Token.ending place, lexer.pull.2) := by
  rw [next_of_end exhausted.held (pull_of_finished exhausted.finished), exhausted.position]

theorem Exhausted.answer {place : Position} (exhausted : lexer.Exhausted place)
    (request : Request) :
    (lexer.answer request).2.Exhausted place := by
  have finished := finished_answer exhausted.finished request
  have pulled : lexer.pull.2.held = none ∧ lexer.pull.2.position = place :=
    ⟨lexer.pull_size_le.2.trans exhausted.held, lexer.position_pull.trans exhausted.position⟩
  cases request with
  | token =>
      have step : (lexer.answer .token).2 = lexer.pull.2 := by rw [Lexer.answer, exhausted.next]
      exact ⟨finished, step ▸ pulled.1, step ▸ pulled.2⟩
  | character => exact ⟨finished, pulled.1, pulled.2⟩
  | fault => exact exhausted
  | takeFault => exact ⟨finished, exhausted.held, exhausted.position⟩

theorem Exhausted.token {place : Position} (exhausted : lexer.Exhausted place)
    {requests : List Request} {token : Token} (member : .token token ∈ (lexer.serve requests).1) :
    token = Token.ending place := by
  induction requests generalizing lexer with
  | nil => simp [serve] at member
  | cons request requests ih =>
      rw [serve_cons, List.mem_cons] at member
      rcases member with here | later
      · cases request with
        | token =>
            rw [Lexer.answer, exhausted.next] at here
            exact Reply.token.inj here
        | _ => nomatch here
      · exact ih (exhausted.answer request) later

theorem next_of_answer {request : Request} {token : Token}
    (reply : (lexer.answer request).1 = .token token) :
    request = .token ∧ lexer.next = (token, (lexer.answer request).2) := by
  cases request with
  | token => exact ⟨rfl, Prod.ext (Reply.token.inj reply) rfl⟩
  | _ => nomatch reply

theorem pull_of_answer {request : Request} {found : Option Char}
    (reply : (lexer.answer request).1 = .character found) :
    request = .character ∧ lexer.pull = (found, (lexer.answer request).2) := by
  cases request with
  | character => exact ⟨rfl, Prod.ext (Reply.character.inj reply) rfl⟩
  | _ => nomatch reply

def rescripted (lexer : Lexer (Recorded ByteReader)) (script : List Read) :
    Lexer (Recorded ByteReader) :=
  { lexer with
    source :=
      { lexer.source with source := { lexer.source.source with script } } }

theorem serve_rescripted (finished : lexer.source.source.finished) (script : List Read)
    (requests : List Request) :
    ((lexer.rescripted script).serve requests).1 = (lexer.serve requests).1 ∧
      ((lexer.rescripted script).serve requests).2.source.source.script = script := by
  let same (left right : Origin (Recorded ByteReader)) : Prop :=
    left.1.source.finished ∧ right.1.source = { left.1.source with script } ∧ left.2 = right.2
  have agree : Origin.Agree same := by
    rintro ⟨left, faults⟩ ⟨right, _⟩ ⟨finished, other, rfl⟩
    have finished' : right.source.finished := by rw [other]; exact finished
    rw [Origin.pull, Origin.pull]
    simp only [pull_finished finished, pull_finished finished']
    exact ⟨trivial, finished, other, rfl⟩
  have sameKept : SameKept same := by
    rintro ⟨left, faults⟩ ⟨⟨_, pulled⟩, _⟩ ⟨finished, rfl, rfl⟩
    exact ⟨rfl, finished, rfl, rfl⟩
  have mirrors : lexer.Mirrors same (lexer.rescripted script) :=
    ⟨⟨finished, rfl, rfl⟩, rfl, rfl, rfl⟩
  obtain ⟨replies, last⟩ := mirrors_serve agree sameKept mirrors requests
  refine ⟨replies.symm, ?_⟩
  have source := last.origin.2.1
  exact congrArg ByteReader.script source

end Finished

section Standing

variable {chars : List Char} {ending : Option Fault} {taken : List Fault}

theorem stands_answer (stands : Stands chars ending taken lexer.source) (request : Request) :
    Stands chars ending (taken ++ (lexer.answer request).1.faults)
      (lexer.answer request).2.source := by
  cases request with
  | token =>
      rw [show (lexer.answer .token).1.faults = [] from rfl, List.append_nil]
      exact keeps_nexts (fun _ => Stands.pull) stands 1
  | character =>
      rw [show (lexer.answer .character).1.faults = [] from rfl, List.append_nil]
      have further := stands.pull
      rwa [← source_pull] at further
  | fault =>
      rw [show (lexer.answer .fault).1.faults = [] from rfl, List.append_nil]
      exact stands
  | takeFault => exact stands.takeFault

theorem stands_serve (stands : Stands chars ending taken lexer.source) (requests : List Request) :
    Stands chars ending (taken ++ (lexer.serve requests).1.flatMap Reply.faults)
      (lexer.serve requests).2.source := by
  induction requests generalizing lexer taken with
  | nil => simpa [serve] using stands
  | cons request requests ih =>
      have further := ih (stands_answer stands request)
      rwa [List.append_assoc, ← List.flatMap_cons] at further

variable (stands : Stands chars ending taken lexer.source)

include stands

theorem finished_of_pull (nothing : lexer.pull.1 = none) :
    lexer.pull.2.source.source.finished := by
  have further := stands.pull
  rw [← source_pull] at further
  rw [further.finished_iff, lexer.pulled_pull.1, nothing]
  exact List.mem_append_right _ (List.mem_singleton_self none)

theorem exhausted_of_next (ended : lexer.next.1.kind = .endOfInput) :
    lexer.next.1 = Token.ending lexer.position ∧ lexer.next.2.Exhausted lexer.position := by
  obtain ⟨held, nothing⟩ := lexer.next_isEnd_iff.mp ended
  rw [next_of_end held nothing]
  exact ⟨rfl, finished_of_pull stands nothing, lexer.pull_size_le.2.trans held, lexer.position_pull⟩

end Standing

end Lexer

/-- Whatever is asked of a lexer over a byte reader, and of the reader underneath, in whatever
order: the reader brings the characters of its script up to the first end or failure, and then the
end for ever, whatever may follow in the script. The failure is kept from then on, and can be taken
once. Behind an end of input there is nothing but that end of input, at its place. -/
theorem serve_final (script : List Read) (requests : List Request) :
    let start : Lexer (Recorded ByteReader) := { source := { source := { script } } }
    let (replies, lexer) := start.serve requests
    let reader := lexer.source.source
    let pulled := lexer.source.pulled
    let (chars, ending) := Utf8.characters script
    (({ source := { script } } : Lexer ByteReader).serve requests).1 = replies ∧
    (reader.kept ≠ none -> reader.finished) ∧
    pulled = (List.range pulled.length).map (fun place => chars[place]?) ∧
    (none ∈ pulled ->
      ∀ more further,
        ((lexer.rescripted more).serve further).1 = (lexer.serve further).1 ∧
          ((lexer.rescripted more).serve further).2.source.source.script = more) ∧
    replies.flatMap Reply.faults ++ reader.kept.toList =
      (if none ∈ pulled then ending.toList else []) ∧
    (∀ front last back, replies = front ++ .token last :: back -> last.kind = .endOfInput ->
      ∀ token, .token token ∈ back -> token = last) ∧
    ∀ front back, replies = front ++ .character none :: back ->
      ∀ found, .character found ∈ back -> found = none := by
  intro start
  have fresh : Stands (Utf8.characters script).1 (Utf8.characters script).2 [] start.source :=
    @Stands.running _ _ _ [] _ _ rfl rfl rfl
  have standing (asked : List Request) := Lexer.stands_serve fresh asked
  have stands := standing requests
  have plain : start.Mirrors (fun left right => left.1.source = right.1 ∧ left.2 = right.2)
      ({ source := { script } } : Lexer ByteReader) :=
    ⟨⟨rfl, rfl⟩, rfl, rfl, rfl⟩
  refine ⟨?_, stands.finished_of_kept, stands.pulled_eq, fun met more further => ?_,
    stands.accounted, fun front last back whole ended token member => ?_,
    fun front back whole found member => ?_⟩
  · refine (Lexer.mirrors_serve Recorded.agree_source ?_ plain requests).1.symm
    rintro ⟨recorded, faults⟩ ⟨_, _⟩ ⟨rfl, rfl⟩
    exact ⟨rfl, rfl, rfl⟩
  · exact Lexer.serve_rescripted (stands.finished_iff.mpr met) more further
  · obtain ⟨before, request, after, reply, behind⟩ := Lexer.exists_of_serve whole
    obtain ⟨rfl, next⟩ := Lexer.next_of_answer reply
    obtain ⟨here, exhausted⟩ := Lexer.exhausted_of_next (standing before) (by rwa [next])
    rw [next] at here exhausted
    rw [← behind] at member
    exact (exhausted.token member).trans here.symm
  · obtain ⟨before, request, after, reply, behind⟩ := Lexer.exists_of_serve whole
    obtain ⟨rfl, pulled⟩ := Lexer.pull_of_answer reply
    have finished := Lexer.finished_of_pull (standing before) (by rw [pulled])
    rw [pulled] at finished
    rw [← behind] at member
    exact Lexer.character_of_finished finished member

example :
    let fault : Fault := .truncated
    (({ source := { script := [.byte 65, .failed fault, .byte 66] } } : Lexer ByteReader).serve
        [.character, .fault, .character, .takeFault, .takeFault, .token, .character, .token]).1 =
      [.character (some 'A'), .fault none, .character none, .taken (some fault), .taken none,
        .token (Token.ending {}), .character none, .token (Token.ending {})] := by
  rfl

end Netlist
