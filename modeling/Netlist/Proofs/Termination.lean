import Mathlib.Data.List.TakeDrop
import Netlist.Proofs.Pushback
import Netlist.Source.Utf8

set_option autoImplicit false

namespace Netlist

/-- A reader of bytes, of which it is not known that it has an end. -/
structure ByteSource (ρ : Type) where
  reader : ρ
  kept : Option Fault := none
  finished : Bool := false

namespace ByteSource

noncomputable section Definitions

variable {ρ : Type} (read : ρ -> Read × ρ)

def attempt (reader : ρ) : Outcome (Round ρ (Except Fault (Option UInt8) × ρ)) :=
  match read reader with
  | (.byte b, rest) => some (.ok (.done (.ok (some b), rest)))
  | (.ended, rest) => some (.ok (.done (.ok none, rest)))
  | (.failed fault, rest) =>
      if fault.kind = .interrupted then some (.ok (.again rest))
      else some (.ok (.done (.error fault, rest)))

def nextByte (reader : ρ) : Outcome (Except Fault (Option UInt8) × ρ) :=
  Outcome.iterate (attempt read) reader

def take : Nat -> ρ -> Outcome (Except Fault (List UInt8) × ρ)
  | 0, reader => some (.ok (.ok [], reader))
  | count + 1, reader =>
      (nextByte read reader).andThen fun
        | (.error fault, rest) => some (.ok (.error fault, rest))
        | (.ok none, rest) => some (.ok (.error .truncated, rest))
        | (.ok (some b), rest) =>
            (take count rest).andThen fun (bytes, rest) =>
              some (.ok (bytes.map (b :: ·), rest))

def decode (reader : ρ) : Outcome (Except Fault (Option Char) × ρ) :=
  (nextByte read reader).andThen fun
    | (.error fault, rest) => some (.ok (.error fault, rest))
    | (.ok none, rest) => some (.ok (.ok none, rest))
    | (.ok (some lead), rest) =>
        match Utf8.followers lead with
        | none => some (.ok (.error (.strayByte lead), rest))
        | some count =>
            (take read count rest).andThen fun
              | (.error fault, rest) => some (.ok (.error fault, rest))
              | (.ok bytes, rest) => some (.ok ((Utf8.character lead bytes).map some, rest))

def pull (source : ByteSource ρ) : Outcome (Pull × ByteSource ρ) :=
  if source.finished then some (.ok (.stop, source))
  else
    (decode read source.reader).andThen fun
      | (.ok (some c), rest) => some (.ok (.char c, { source with reader := rest }))
      | (.ok none, rest) => some (.ok (.stop, { source with reader := rest, finished := true }))
      | (.error fault, rest) =>
          some (.ok (.failed fault, { reader := rest, kept := some fault, finished := true }))

end Definitions

def scripted : List Read -> Read × List Read
  | [] => (.ended, [])
  | read :: rest => (read, rest)

theorem nextByte_scripted (script : List Read) :
    nextByte scripted script = some (.ok (Utf8.nextByte script)) := by
  fun_induction Utf8.nextByte script with
  | case4 fault rest retried ih =>
      have again : attempt scripted (.failed fault :: rest) = some (.ok (.again rest)) := by
        simp [attempt, scripted, retried]
      rw [nextByte, Outcome.iterate_of_again again]
      exact ih
  | case5 fault rest kept =>
      exact Outcome.iterate_of_done (by simp [attempt, scripted, kept])
  | _ => exact Outcome.iterate_of_done rfl

theorem take_scripted (count : Nat) (script : List Read) :
    take scripted count script = some (.ok (Utf8.take count script)) := by
  induction count generalizing script with
  | zero => rfl
  | succ count ih =>
      rw [take, nextByte_scripted, Utf8.take]
      rcases Utf8.nextByte script with ⟨fault | _ | b, rest⟩
      · rfl
      · rfl
      · simp only [Outcome.andThen, ih rest]
        rcases Utf8.take count rest with ⟨fault | bytes, rest⟩ <;> rfl

theorem decode_scripted (script : List Read) :
    decode scripted script = some (.ok (Utf8.decode script)) := by
  rw [decode, nextByte_scripted, Utf8.decode]
  rcases Utf8.nextByte script with ⟨fault | _ | lead, rest⟩
  · rfl
  · rfl
  · simp only [Outcome.andThen, take_scripted]
    cases Utf8.followers lead with
    | none => rfl
    | some count =>
        dsimp only
        rcases Utf8.take count rest with ⟨fault | bytes, rest⟩ <;> rfl

def ofByteReader (reader : ByteReader) : ByteSource (List Read) :=
  { reader := reader.script, kept := reader.kept, finished := reader.finished }

theorem pull_scripted (reader : ByteReader) :
    pull scripted (ofByteReader reader) =
      some (.ok (reader.pull.1, ofByteReader reader.pull.2)) := by
  obtain ⟨script, kept, finished⟩ := reader
  unfold pull ByteReader.pull ofByteReader
  cases finished with
  | true => rfl
  | false =>
      simp only [decode_scripted]
      rcases Utf8.decode script with ⟨fault | _ | c, rest⟩ <;> rfl

end ByteSource

namespace Guarded

open Grammar (Turn)

variable {σ α ι : Type} [Supply σ]

/-- After every round that another one follows, there is less to come. -/
def Descends (round : ι -> Guarded σ (Round ι α)) : Prop :=
  ∀ (state further : ι) (cursor rest : Cursor σ), cursor.Sound ->
    round state cursor = some (.ok (.ok (.again further), rest)) ->
    rest.Sound ∧ ∀ most, cursor.remaining = some most ->
      exists less, rest.remaining = some less ∧ less < most

theorem descends_of_runs {good : Cursor σ -> α -> Cursor σ -> Prop}
    {round : ι -> Guarded σ (Round ι α)} {one : ι -> Source σ -> Rule σ (Round ι α)}
    (rounds : ∀ state (cursor : Cursor σ), cursor.Sound ->
      Runs cursor (Advances good cursor) (fun source => one state source cursor)
        (round state cursor)) :
    Descends round := by
  intro state further cursor rest sound run
  have brings := (rounds state cursor sound).brings _ run
  refine ⟨brings.sound, fun most bounded => ?_⟩
  have uses : Uses cursor further rest := brings.good _ rfl
  exact uses most bounded

theorem descends_next : Descends (nextRound : Unit -> Guarded σ (Round Unit Token)) :=
  descends_of_runs runs_nextRound

theorem descends_body {element : Element σ α} {plain : (source : Source σ) -> Netlist.Element σ α}
    (tracks : ElementTracks element plain) : Descends (bodyRound element) :=
  descends_of_runs fun found => (tracks_bodyRound tracks found).advances

theorem descends_wireLists :
    Descends (wireListsRound : Array Wire -> Guarded σ (Round (Array Wire) (Array Wire))) :=
  descends_of_runs fun found => (tracks_wireListsRound found).advances

end Guarded

section Iterated

open Iterated (EndsBehind)

variable {σ : Type} {step : σ -> Option Char × σ}

theorem Cursor.remaining_eq_some_iff {cursor : Cursor (Iterated step)} {most : Nat} :
    cursor.remaining = some most ↔
      exists left, IsLeast { count | EndsBehind step count cursor.lexer.source.state } left ∧
        left + cursor.lexer.held.toList.length +
          (cursor.returned.elim 0 fun token => token.text.length) = most := by
  have bounds (left : Nat) : Supply.bound cursor.lexer.source = some left ↔ _ :=
    Iterated.bound_eq_some_iff
  simp only [Cursor.remaining, Lexer.remaining, Option.map_map, Option.map_eq_some_iff, bounds]
  rfl

theorem Lexer.remaining_isSome_iff {lexer : Lexer (Iterated step)} :
    lexer.remaining.isSome ↔ exists count, EndsBehind step count lexer.source.state := by
  rw [Lexer.remaining, Option.isSome_map, Option.isSome_iff_exists]
  constructor
  · rintro ⟨most, bounded⟩
    exact ⟨most, (Iterated.bound_eq_some_iff.mp bounded).1⟩
  · rintro ⟨count, ends⟩
    obtain ⟨most, bounded, -⟩ := Iterated.exists_bound ends
    exact ⟨most, bounded⟩

theorem Cursor.Reached.call_returns {cursor : Cursor (Iterated step)} (reached : cursor.Reached)
    {count : Nat} (ends : EndsBehind step count cursor.lexer.source.state) (call : Call) :
    exists result rest, Guarded.call call cursor = some (.ok (result, rest)) ∧
      exists count, EndsBehind step count rest.lexer.source.state := by
  have runs := Guarded.tracks_call call cursor reached.sound
  have bounded : cursor.remaining.isSome := by
    rw [Cursor.remaining, Option.isSome_map]
    exact Lexer.remaining_isSome_iff.mpr ⟨count, ends⟩
  obtain ⟨⟨result, rest⟩, run, brings⟩ := runs.exists_of_ends bounded
  have left := brings.keeps.isSome bounded
  rw [Cursor.remaining, Option.isSome_map] at left
  exact ⟨result, rest, run, Lexer.remaining_isSome_iff.mp left⟩

end Iterated

open Guarded in
/-- Where there are only ends from some pull on, every call returns, and so will every later one. In
each further round of a loop less is left: characters and ends still to be pulled, the character
held and the text of the token taken back. -/
theorem calls_return :
    (∀ {σ : Type} {step : σ -> Option Char × σ} {count : Nat} (cursor : Cursor (Iterated step)),
      cursor.Reached -> Iterated.EndsBehind step count cursor.lexer.source.state -> ∀ asked : Call,
        exists result rest, call asked cursor = some (.ok (result, rest)) ∧
          exists count, Iterated.EndsBehind step count rest.lexer.source.state) ∧
    (∀ {σ : Type} {step : σ -> Option Char × σ} (cursor : Cursor (Iterated step)) (most : Nat),
      cursor.remaining = some most ↔
        exists left,
          IsLeast { count | Iterated.EndsBehind step count cursor.lexer.source.state } left ∧
            left + cursor.lexer.held.toList.length +
              (cursor.returned.elim 0 fun token => token.text.length) = most) ∧
    (∀ {σ : Type} [Supply σ],
      Descends (nextRound : Unit -> Guarded σ (Round Unit Token)) ∧
        Descends (bodyRound (ports : Guarded.Element σ Port)) ∧
        Descends (bodyRound (parts : Guarded.Element σ Part)) ∧
        Descends (bodyRound (wires : Guarded.Element σ Wire)) ∧
        Descends (wireListsRound : Array Wire -> Guarded σ (Round (Array Wire) (Array Wire)))) ∧
    (∀ {σ : Type} [Source σ] (cursor : Cursor σ), cursor.Reached -> ∀ asked : Call,
      call asked cursor = some (.ok (asked.rule cursor))) ∧
    ∀ reader : ByteReader,
      ByteSource.pull ByteSource.scripted (.ofByteReader reader) =
        some (.ok (reader.pull.1, .ofByteReader reader.pull.2)) :=
  ⟨fun _ reached ends asked => reached.call_returns ends asked,
    fun _ _ => Cursor.remaining_eq_some_iff,
    ⟨descends_next, descends_body elementTracks_ports, descends_body elementTracks_parts,
      descends_body elementTracks_wires, descends_wireLists⟩,
    fun _ reached asked => reached.call_eq asked, ByteSource.pull_scripted⟩

theorem calls_return_resumed :
    let step (events : List (Option Char)) := (events.head?.join, events.tail)
    let events := "Wires:a-".toList.map some ++ none :: ">b;".toList.map some
    let cursor : Cursor (Iterated step) := { lexer := { source := { state := events } } }
    cursor.Reached ∧ Iterated.EndsBehind step 12 events ∧
      exists result rest, Guarded.call (.statement .wires) cursor = some (.ok (result, rest)) ∧
        exists count, Iterated.EndsBehind step count rest.lexer.source.state := by
  intro step events cursor
  have reached : cursor.Reached := .fresh _
  have ends : Iterated.EndsBehind step 12 events := by
    intro more le
    have left : Iterated.after step more events = events.drop more := List.tail_iterate events more
    have short : events.length ≤ more := le
    simp [step, left, List.drop_of_length_le short]
  exact ⟨reached, ends, calls_return.1 cursor reached ends _⟩

end Netlist
