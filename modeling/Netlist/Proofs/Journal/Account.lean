import Netlist.Proofs.Session
import Netlist.Proofs.Journal.Looks

set_option autoImplicit false

namespace Netlist

namespace Rule

variable {σ α β : Type}

inductive Meets (post : α -> Cursor σ -> Prop) (fails : Diagnostic -> Cursor σ -> Prop) :
    Except Diagnostic α × Cursor σ -> Prop where
  | ok {value : α} {cursor : Cursor σ} (holds : post value cursor) :
      Meets post fails (.ok value, cursor)
  | error {diagnostic : Diagnostic} {cursor : Cursor σ} (failed : fails diagnostic cursor) :
      Meets post fails (.error diagnostic, cursor)

theorem Meets.of_ok {post : α -> Cursor σ -> Prop} {fails : Diagnostic -> Cursor σ -> Prop}
    {value : α} {cursor : Cursor σ} (meets : Meets post fails (.ok value, cursor)) :
    post value cursor := by
  cases meets with
  | ok holds => exact holds

theorem Meets.of_error {post : α -> Cursor σ -> Prop} {fails : Diagnostic -> Cursor σ -> Prop}
    {diagnostic : Diagnostic} {cursor : Cursor σ}
    (meets : Meets post fails (.error diagnostic, cursor)) : fails diagnostic cursor := by
  cases meets with
  | error failed => exact failed

def Triple (pre : Cursor σ -> Prop) (rule : Rule σ α) (post : α -> Cursor σ -> Prop)
    (fails : Diagnostic -> Cursor σ -> Prop) : Prop :=
  ∀ cursor, pre cursor -> Meets post fails (rule cursor)

variable {pre : Cursor σ -> Prop} {fails : Diagnostic -> Cursor σ -> Prop}

theorem Triple.bind {mid : α -> Cursor σ -> Prop} {post : β -> Cursor σ -> Prop} {rule : Rule σ α}
    {continuation : α -> Rule σ β} (first : Triple pre rule mid fails)
    (second : ∀ value, Triple (mid value) (continuation value) post fails) :
    Triple pre (rule >>= continuation) post fails := by
  intro cursor holds
  have meets := first cursor holds
  rw [bind_apply]
  generalize rule cursor = outcome at meets
  cases meets with
  | ok holds => exact second _ _ holds
  | error failed => exact .error failed

theorem Triple.of {weaker : Cursor σ -> Prop} {post : α -> Cursor σ -> Prop} {rule : Rule σ α}
    (triple : Triple pre rule post fails) (weaken : ∀ cursor, weaker cursor -> pre cursor) :
    Triple weaker rule post fails :=
  fun cursor holds => triple cursor (weaken cursor holds)

theorem Triple.gives {post other : α -> Cursor σ -> Prop} {rule : Rule σ α}
    (triple : Triple pre rule post fails)
    (weaken : ∀ value cursor, post value cursor -> other value cursor) :
    Triple pre rule other fails := by
  intro cursor holds
  have meets := triple cursor holds
  generalize rule cursor = outcome at meets
  cases meets with
  | ok holds => exact .ok (weaken _ _ holds)
  | error failed => exact .error failed

theorem triple_pure (value : α) : Triple pre (pure value) (fun _ => pre) fails :=
  fun _ holds => .ok holds

end Rule

section Accounts

variable {σ : Type} [Source σ] (start : Lexer σ) (tape : Tape) (told : List Record)

/-- The cursor stands behind `place` tokens. The looks at these are on record, and so many looks at
the next one, which was taken back each time. -/
structure Account (place times : Nat) (cursor : Cursor σ) : Prop where
  past : times = 0 -> cursor.Past start place
  peeked : times ≠ 0 -> cursor.Peeked start place
  looks : Looks tape place times cursor.journal.met
  told : cursor.journal.told = told

structure Sees (place times : Nat) (token : Token) (cursor : Cursor σ) : Prop where
  token : token = tape.get place
  past : cursor.Past start (place + 1)
  taken : cursor.giveBack.Peeked start place
  looks : Looks tape place (times + 1) cursor.journal.met
  told : cursor.journal.told = told

def Within (most : Nat) (cursor : Cursor σ) : Prop :=
  exists place times, times ≤ most ∧ Account start tape told place times cursor

def Met (most : Nat) (token : Token) (cursor : Cursor σ) : Prop :=
  exists place times, times ≤ most ∧ Sees start tape told place times token cursor

def Blamed (diagnostic : Diagnostic) (cursor : Cursor σ) : Prop :=
  (exists place times, Looks tape place (times + 1) cursor.journal.met ∧
    diagnostic.Blames (tape.get place)) ∧ cursor.journal.told = told

variable {start tape told} {most : Nat} {cursor : Cursor σ} {token : Token}

theorem Within.mono {more : Nat} (within : Within start tape told most cursor) (le : most ≤ more) :
    Within start tape told more cursor := by
  obtain ⟨place, times, few, account⟩ := within
  exact ⟨place, times, Nat.le_trans few le, account⟩

theorem Within.note (within : Within start tape told most cursor) {record : Record}
    (debug : record.level = .debug) :
    Within start tape (told ++ [record]) most (cursor.note record) := by
  obtain ⟨place, times, few, past, peeked, looks, same⟩ := within
  have noFault : record.fault? = none := by cases record <;> simp_all [Record.level, Record.fault?]
  have met : (cursor.note record).journal.met = cursor.journal.met := by
    simp [Journal.met, Journal.traced, Cursor.journal, Cursor.note, debug]
  have said : (cursor.note record).journal.told = told ++ [record] := by
    rw [← same]
    simp [Journal.told, Cursor.journal, Cursor.note, debug]
  exact ⟨place, times, few, fun never => (past never).note noFault,
    fun looked => (peeked looked).note noFault, met ▸ looks, said⟩

theorem Sees.returned {place times : Nat} (sees : Sees start tape told place times token cursor) :
    Account start tape told place (times + 1) cursor.giveBack :=
  ⟨fun never => absurd never (Nat.succ_ne_zero _), fun _ => sees.taken, sees.looks, sees.told⟩

namespace Met

variable (met : Met start tape told most token cursor)

include met

theorem passed (goesOn : token.kind ≠ .endOfInput) : Within start tape told 0 cursor := by
  obtain ⟨place, times, few, rfl, past, taken, looks, told⟩ := met
  exact ⟨place + 1, 0, Nat.le_refl 0, fun _ => past, fun never => absurd rfl never,
    looks.pass goesOn, told⟩

theorem returned : Within start tape told (most + 1) cursor.giveBack := by
  obtain ⟨place, times, few, sees⟩ := met
  exact ⟨place, times + 1, Nat.succ_le_succ few, sees.returned⟩

theorem blamed {diagnostic : Diagnostic} (blames : diagnostic.Blames token) :
    Blamed tape told diagnostic cursor := by
  obtain ⟨place, times, few, rfl, past, taken, looks, told⟩ := met
  exact ⟨⟨place, times, looks, blames⟩, told⟩

end Met

end Accounts

namespace Rule

section Elements

variable {σ α : Type} [Source σ] {start : Lexer σ} {tape : Tape} {told : List Record} {most : Nat}
  (few : most ≤ 2) (describes : ∀ place, start.token place = tape.get place)
  {post : α -> Cursor σ -> Prop}

include few describes

theorem sees_next {place times : Nat} {cursor : Cursor σ} (bound : times ≤ most)
    (account : Account start tape told place times cursor) :
    exists rest, cursor.next = (tape.get place, rest) ∧
      Sees start tape told place times (tape.get place) rest := by
  have stands : cursor.At start place := by
    by_cases never : times = 0
    · exact .inl (account.past never)
    · exact .inr (account.peeked never)
  obtain ⟨rest, step, past, taken⟩ := next_of_at describes stands
  obtain ⟨met, same⟩ := cursor.journal_next
  rw [step] at met same
  refine ⟨rest, step, rfl, past, taken, ?_, same.trans account.told⟩
  rw [met]
  exact account.looks.look (by omega)

theorem triple_next :
    Triple (Within start tape told most) next (Met start tape told most) (Blamed tape told) := by
  rintro cursor ⟨place, times, bound, account⟩
  obtain ⟨rest, step, sees⟩ := sees_next few describes bound account
  rw [next, step]
  exact .ok ⟨place, times, bound, sees⟩

theorem triple_expect (kind : Token.Kind) :
    Triple (Within start tape told most) (expect kind)
      (fun token cursor => Met start tape told most token cursor ∧ token.kind = kind)
      (Blamed tape told) := by
  refine (triple_next few describes).bind fun token cursor met => ?_
  by_cases same : token.kind = kind
  · rw [if_pos same]
    exact .ok ⟨met, same⟩
  · rw [if_neg same]
    exact .error (met.blamed (.inr ⟨_, rfl⟩))

theorem triple_expect_bind {kind : Token.Kind} (goesOn : kind ≠ .endOfInput)
    {continuation : Token -> Rule σ α}
    (further : ∀ token,
      Triple (Within start tape told 0) (continuation token) post (Blamed tape told)) :
    Triple (Within start tape told most) (expect kind >>= continuation) post (Blamed tape told) :=
  (triple_expect few describes kind).bind fun token =>
    (further token).of fun _ ⟨met, same⟩ => met.passed (same ▸ goesOn)

omit few in
theorem triple_lookahead {choose : Token.Kind -> Option (Rule σ α)} {absent : α}
    (chosen : ∀ kind rule, choose kind = some rule -> kind ≠ .endOfInput ∧
      Triple (Within start tape told 0) rule (fun _ => Within start tape told 1)
        (Blamed tape told)) :
    Triple (Within start tape told 0) (lookahead choose absent)
      (fun _ => Within start tape told 1) (Blamed tape told) := by
  refine (triple_next (by omega) describes).bind fun token cursor met => ?_
  cases choice : choose token.kind with
  | some rule =>
      obtain ⟨goesOn, triple⟩ := chosen _ _ choice
      exact triple cursor (met.passed goesOn)
  | none => exact .ok met.returned

theorem triple_pin :
    Triple (Within start tape told most) Grammar.pin (fun _ => Within start tape told 0)
      (Blamed tape told) := by
  refine (triple_expect few describes .digits).bind fun token cursor ⟨met, digits⟩ => ?_
  split_ifs
  · exact .ok (met.passed (by simp [digits]))
  -- the number was the last token to be looked at
  · exact .error (met.blamed (.inl rfl))

theorem triple_width :
    Triple (Within start tape told most) Grammar.width (fun _ => Within start tape told 0)
      (Blamed tape told) :=
  (triple_pin few describes).bind fun _ =>
    triple_expect_bind (by omega) describes (by simp) fun _ => triple_pure _

omit few in
theorem triple_brackets {clause : Rule σ α} {absent : α}
    (inside : Triple (Within start tape told 0) clause (fun _ => Within start tape told 0)
      (Blamed tape told)) :
    Triple (Within start tape told 0)
      (lookahead
        (fun
          | .leftBracket => some clause
          | _ => none)
        absent)
      (fun _ => Within start tape told 1) (Blamed tape told) := by
  refine triple_lookahead describes fun kind rule choice => ?_
  split at choice <;> cases choice
  exact ⟨by simp, inside.gives fun _ _ within => within.mono (by omega)⟩

theorem triple_port :
    Triple (Within start tape told most) Grammar.port (fun _ => Within start tape told 1)
      (Blamed tape told) :=
  triple_expect_bind few describes (by simp) fun _ =>
    (triple_brackets describes (triple_width (by omega) describes)).bind fun _ => triple_pure _

theorem triple_pins :
    Triple (Within start tape told most) Grammar.pins (fun _ => Within start tape told 0)
      (Blamed tape told) := by
  refine (triple_pin few describes).bind fun first => ?_
  refine (triple_next (by omega) describes).bind fun token cursor met => ?_
  cases kind : token.kind with
  | rightBracket => exact .ok (met.passed (by simp [kind]))
  | colon =>
      refine Triple.bind (triple_pin (by omega) describes) (fun last => ?_) cursor
        (met.passed (by simp [kind]))
      exact triple_expect_bind (by omega) describes (by simp) fun _ => triple_pure _
  | _ => exact .error (met.blamed (.inr ⟨_, rfl⟩))

omit few in
theorem triple_endpoint (name : String) :
    Triple (Within start tape told 0) (Grammar.endpoint name) (fun _ => Within start tape told 1)
      (Blamed tape told) := by
  have pins : Triple (Within start tape told 0) Grammar.pins
      (fun _ => Within start tape told 0) (Blamed tape told) := triple_pins (by omega) describes
  refine triple_lookahead describes fun kind rule choice => ?_
  split at choice <;> cases choice <;> refine ⟨by simp, ?_⟩
  · exact triple_expect_bind (by omega) describes (by simp) fun selector =>
      (triple_brackets describes pins).bind fun _ => triple_pure _
  · exact (pins.bind fun pins => triple_pure _).gives fun _ _ within => within.mono (by omega)

theorem triple_wireSource :
    Triple (Within start tape told most) Grammar.wireSource (fun _ => Within start tape told 1)
      (Blamed tape told) := by
  refine (triple_next few describes).bind fun token cursor met => ?_
  cases kind : token.kind with
  | digits => exact .ok ((met.passed (by simp [kind])).mono (by omega))
  | name => exact triple_endpoint describes token.text cursor (met.passed (by simp [kind]))
  | _ => exact .error (met.blamed (.inr ⟨_, rfl⟩))

theorem triple_wireTarget :
    Triple (Within start tape told most) Grammar.wireTarget (fun _ => Within start tape told 1)
      (Blamed tape told) :=
  triple_expect_bind few describes (by simp) fun token => triple_endpoint describes token.text

theorem triple_wire :
    Triple (Within start tape told most) Grammar.wire (fun _ => Within start tape told 1)
      (Blamed tape told) :=
  (triple_wireSource few describes).bind fun _ =>
    triple_expect_bind (by omega) describes (by simp) fun _ =>
      (triple_wireTarget (by omega) describes).bind fun _ => triple_pure _

end Elements

section Statements

variable {σ α : Type} [Source σ] {start : Lexer σ} {tape : Tape} {told : List Record} {most : Nat}
  (describes : ∀ place, start.token place = tape.get place)

def Accounts (start : Lexer σ) (tape : Tape) (element : Element σ α) : Prop :=
  ∀ told, Triple
    (fun cursor => exists place times, times ≤ 2 ∧ Account start tape told place times cursor ∧
      element.opens (tape.get place).kind)
    element.rule (fun _ => Within start tape told 1) (Blamed tape told)

theorem accounts_of_triple {element : Element σ α}
    (triple : ∀ told, Triple (Within start tape told 2) element.rule
      (fun _ => Within start tape told 1) (Blamed tape told)) : Accounts start tape element :=
  fun told => (triple told).of fun _ ⟨place, times, few, account, _⟩ => ⟨place, times, few, account⟩

include describes

theorem accounts_ports : Accounts start tape Grammar.ports :=
  accounts_of_triple fun _ => triple_port (by omega) describes

theorem accounts_parts : Accounts start tape Grammar.parts := by
  rintro told cursor ⟨place, times, few, account, opens⟩
  have name : (tape.get place).kind = .name := of_decide_eq_true opens
  obtain ⟨rest, step, sees⟩ := sees_next (Nat.le_refl 2) describes few account
  have met : Met start tape told 2 (tape.get place) rest := ⟨place, times, few, sees⟩
  change Meets _ _ (Grammar.part cursor)
  have behind (id : String) :
      Triple (Within start tape told 0)
        (expect .name >>= fun module => pure ({ id, module := module.text } : Part))
        (fun _ => Within start tape told 1) (Blamed tape told) :=
    triple_expect_bind (by omega) describes (by simp) fun _ =>
      (triple_pure _).gives fun _ _ within => within.mono (by omega)
  rw [Grammar.part, bind_apply, next, step]
  exact behind _ rest (met.passed (by simp [name]))

theorem accounts_wires : Accounts start tape Grammar.wires :=
  accounts_of_triple fun _ => triple_wire (by omega) describes

theorem triple_turn {element : Element σ α} (accounts : Accounts start tape element) :
    Triple (Within start tape told 1) (Grammar.turn element)
      (fun turn => Within start tape told (match turn with | .ended => 0 | _ => 1))
      (Blamed tape told) := by
  rintro cursor ⟨place, times, bound, account⟩
  obtain ⟨rest, step, sees⟩ := sees_next (by omega) describes bound account
  have met : Met start tape told 1 (tape.get place) rest := ⟨place, times, bound, sees⟩
  rw [turn_of_next element step]
  split_ifs with semicolon ended opens
  · exact .ok (met.passed (by simp [semicolon]))
  · exact .error (met.blamed (.inr ⟨_, rfl⟩))
  · refine Triple.bind (accounts told) (fun value => ?_) rest.giveBack
      ⟨place, times + 1, by omega, sees.returned, opens⟩
    exact fun cursor within => .ok within
  · exact .ok ((met.passed ended).mono (by simp))

theorem triple_body {element : Element σ α} (accounts : Accounts start tape element)
    (found : Array α) :
    Triple (Within start tape told 1) (Grammar.body element found)
      (fun _ => Within start tape told 0) (Blamed tape told) := by
  intro cursor within
  have turned (cursor : Cursor σ) (within : Within start tape told 1 cursor) :=
    triple_turn describes accounts cursor within
  fun_induction Grammar.body element found cursor with
  | case1 found cursor rest step => exact .ok (step ▸ turned cursor within).of_ok
  | case2 found cursor value rest step ih => exact ih (step ▸ turned cursor within).of_ok
  | case3 found cursor rest step ih => exact ih (step ▸ turned cursor within).of_ok
  | case4 found cursor diagnostic rest step =>
      exact .error (step ▸ turned cursor within).of_error

theorem within_peek {cursor : Cursor σ} (within : Within start tape told 0 cursor) :
    Within start tape told 1 cursor.peek.2 := by
  obtain ⟨place, times, bound, account⟩ := within
  obtain ⟨rest, step, sees⟩ := sees_next (by omega) describes bound account
  rw [Cursor.peek, step]
  exact ⟨place, times + 1, by omega, sees.returned⟩

theorem triple_wireLists (found : Array Wire) :
    Triple (Within start tape told 1) (Grammar.wireLists found)
      (fun _ => Within start tape told 1) (Blamed tape told) := by
  intro cursor within
  have bodies (found : Array Wire) (cursor : Cursor σ) (within : Within start tape told 1 cursor) :=
    triple_body describes (accounts_wires describes) found cursor within
  fun_induction Grammar.wireLists found cursor with
  | case1 found cursor diagnostic rest failed =>
      exact .error (failed ▸ bodies found cursor within).of_error
  | case2 found cursor values rest listed ahead opens ih =>
      exact ih (within_peek describes (listed ▸ bodies found cursor within).of_ok)
  | case3 found cursor values rest listed ahead done =>
      exact .ok (within_peek describes (listed ▸ bodies found cursor within).of_ok)

theorem triple_statement (heading : Heading) {entries : Rule σ (Array α)}
    (list : ∀ told, Triple (Within start tape told 1) entries (fun _ => Within start tape told 1)
      (Blamed tape told)) :
    Triple (Within start tape told 1) (Grammar.statement heading entries)
      (fun values =>
        Within start tape (told ++ [.opening heading, .completed heading values.length]) 1)
      (Blamed tape (told ++ [.opening heading])) := by
  intro cursor within
  rw [statement_apply]
  have opened : Within start tape (told ++ [.opening heading]) 1 (cursor.note (.opening heading)) :=
    within.note rfl
  refine triple_expect_bind (by omega) describes (by simp) (fun _ => ?_) _ opened
  refine triple_expect_bind (by omega) describes (by simp) fun _ => ?_
  refine ((list _).of fun _ within => within.mono (by omega)).bind fun found cursor within => ?_
  have completed := within.note (show (Record.completed heading found.size).level = .debug from rfl)
  rw [List.append_assoc] at completed
  exact .ok completed

theorem triple_call (heading : Heading) :
    Triple (Within start tape told 1) (Call.statement heading).rule
      (fun answer cursor => exists found : Statement, answer = .statement found ∧
        found.heading = heading ∧
          Within start tape (told ++ [.opening heading, .completed heading found.size]) 1 cursor)
      (Blamed tape (told ++ [.opening heading])) := by
  have body {α : Type} {element : Element σ α} (accounts : Accounts start tape element)
      (told : List Record) : Triple (Within start tape told 1) (Grammar.body element #[])
        (fun _ => Within start tape told 1) (Blamed tape told) :=
    (triple_body describes accounts #[]).gives fun _ _ within => within.mono (by omega)
  have ports := body (accounts_ports describes)
  have parts := body (accounts_parts describes)
  have wires (told : List Record) : Triple (Within start tape told 1) (Grammar.wireLists #[])
      (fun _ => Within start tape told 1) (Blamed tape told) := triple_wireLists describes #[]
  match heading with
  | .inputs =>
      exact (triple_statement describes .inputs ports).bind fun entries cursor within =>
        .ok ⟨.inputs entries, rfl, rfl, within⟩
  | .outputs =>
      exact (triple_statement describes .outputs ports).bind fun entries cursor within =>
        .ok ⟨.outputs entries, rfl, rfl, within⟩
  | .parts =>
      exact (triple_statement describes .parts parts).bind fun entries cursor within =>
        .ok ⟨.parts entries, rfl, rfl, within⟩
  | .wires =>
      exact (triple_statement describes .wires wires).bind fun entries cursor within =>
        .ok ⟨.wires entries, rfl, rfl, within⟩

end Statements

end Rule

end Netlist
