import NotifyHub.RowTransactions
import NotifyHub.TransitionMachine
import Mathlib.Tactic

/-!
# Requests which edit one row

A request reads its row without a lock, decides from what it has read, and
sends one statement, which waits for the lock of the row.  There is no version
to compare: an UPDATE finds the row by its primary key and writes the columns
which the request has changed.

Where a law couples two columns, an UPDATE of one of them relies on the other
one.  The rules below say when the law survives: every UPDATE of one column
alone finds the other column as the request has read it.
-/

namespace NotifyHub

/-! ## Two columns -/

section Columns

variable {α β : Type*} [DecidableEq α] [DecidableEq β]

/-- Of two columns, an UPDATE which writes one alone finds the other one as it
was read. -/
def Undisturbed (loaded final stored : α × β) : Prop :=
  (final.1 ≠ loaded.1 → final.2 = loaded.2 → stored.2 = loaded.2) ∧
    (final.2 ≠ loaded.2 → final.1 = loaded.1 → stored.1 = loaded.1)

instance decidableUndisturbed (loaded final stored : α × β) :
    Decidable (Undisturbed loaded final stored) :=
  inferInstanceAs (Decidable (_ ∧ _))

def writeBackPair (loaded final stored : α × β) : α × β :=
  (writeBack loaded.1 final.1 stored.1, writeBack loaded.2 final.2 stored.2)

/-- The stored pair is one that somebody has computed. -/
theorem writeBackPair_of_undisturbed
    {loaded final stored : α × β}
    (hundisturbed : Undisturbed loaded final stored) :
    writeBackPair loaded final stored = final ∨
      writeBackPair loaded final stored = stored := by
  unfold writeBackPair
  by_cases hfirst : final.1 = loaded.1
  · rw [writeBack_of_eq hfirst]
    by_cases hsecond : final.2 = loaded.2
    · rw [writeBack_of_eq hsecond]
      exact .inr rfl
    · rw [writeBack_of_ne hsecond, hundisturbed.2 hsecond hfirst, ← hfirst]
      exact .inl rfl
  · rw [writeBack_of_ne hfirst]
    by_cases hsecond : final.2 = loaded.2
    · rw [writeBack_of_eq hsecond, hundisturbed.1 hfirst hsecond, ← hsecond]
      exact .inl rfl
    · rw [writeBack_of_ne hsecond]
      exact .inl rfl

end Columns

/-! ## Handlers -/

/-- What a request does once it has read its row. -/
inductive Decision (Row Refusal : Type*)
  | refuse (refusal : Refusal)
  | insert (row : Row)
  | update (final : Row)
  | delete

/-- The row which a decision is about to store. -/
def Decision.version {Row Refusal : Type*} : Decision Row Refusal → Option Row
  | .insert row => some row
  | .update final => some final
  | .refuse _ | .delete => none

/-- An error ends the request. -/
def orRefuse {Row Refusal : Type*}
    (outcome : Except Refusal (Decision Row Refusal)) : Decision Row Refusal :=
  match outcome with
  | .ok decision => decision
  | .error refusal => .refuse refusal

theorem mem_orRefuse_version {Row Refusal : Type*} {row : Row}
    {outcome : Except Refusal (Decision Row Refusal)}
    (hrow : row ∈ (orRefuse outcome).version) :
    ∃ decision, outcome = .ok decision ∧ row ∈ decision.version := by
  cases outcome with
  | ok decision => exact ⟨decision, rfl, hrow⟩
  | error refusal => contradiction

/-- The handlers of the requests on one table. -/
structure RowHandlers (Key Request Row Refusal : Type*) where
  key : Request → Key
  decide : Request → Option Row → Decision Row Refusal
  /-- The decision once the INSERT of a row has violated a constraint and the
  row has been read again. -/
  reconsider : Request → Row → Option Row → Decision Row Refusal
  /-- The two versions have one primary key. -/
  sameRow : Row → Row → Bool
  /-- The stored row after the UPDATE of a request which has loaded one
  version and computed another. -/
  merge : Row → Row → Row → Row

inductive EditPhase (Request Row Refusal : Type*)
  | idle
  | decided (request : Request) (loaded : Option Row)
      (decision : Decision Row Refusal) (retried : Bool)
  | violated (request : Request) (tried : Row)
  | written (request : Request) (version : Option Row)
  | refused (refusal : Refusal)
  | succeeded
  | failed

structure EditState (Process Key Request Row Refusal : Type*) where
  rows : Key → Option Row
  holder : Key → Option Process
  phase : Process → EditPhase Request Row Refusal

/-- An INSERT may violate a constraint of the table; a process which aborts
has met an exception, or has died. -/
inductive EditAction (Process Request : Type*)
  | read (process : Process) (request : Request)
  | execute (process : Process) (violates : Bool)
  | readAgain (process : Process)
  | commit (process : Process)
  | abort (process : Process)

namespace EditAction

variable {Process Request : Type*}

/-- A request which meets no other one. -/
def alone (process : Process) (request : Request) :
    List (EditAction Process Request) :=
  [.read process request, .execute process false, .commit process]

/-- Two requests which have both read before either one has written. -/
def overlapping (first second : Process) (request other : Request) :
    List (EditAction Process Request) :=
  [.read first request, .read second other, .execute first false,
    .commit first, .execute second false, .commit second]

end EditAction

variable {Process Key Request Row Refusal : Type*}

namespace EditState

/-- No request has begun. -/
def atRest (rows : Key → Option Row) :
    EditState Process Key Request Row Refusal where
  rows := rows
  holder _ := none
  phase _ := .idle

variable [DecidableEq Process] [DecidableEq Key]

def goto
    (state : EditState Process Key Request Row Refusal) (process : Process)
    (phase : EditPhase Request Row Refusal) :
    EditState Process Key Request Row Refusal :=
  { state with phase := Function.update state.phase process phase }

/-- A statement which has found its row writes under the lock of the row. -/
def write
    (state : EditState Process Key Request Row Refusal) (process : Process)
    (key : Key) (request : Request) (version : Option Row) :
    EditState Process Key Request Row Refusal :=
  { state.goto process (.written request version) with
    holder := Function.update state.holder key (some process) }

/-- The end of a transaction. -/
def finish
    (state : EditState Process Key Request Row Refusal) (process : Process)
    (phase : EditPhase Request Row Refusal) :
    EditState Process Key Request Row Refusal :=
  { state.goto process phase with
    holder := fun key =>
      if state.holder key = some process then none else state.holder key }

def commit
    (state : EditState Process Key Request Row Refusal) (process : Process)
    (key : Key) (version : Option Row) :
    EditState Process Key Request Row Refusal :=
  { state.finish process .succeeded with
    rows := Function.update state.rows key version }

end EditState

namespace RowHandlers

variable (H : RowHandlers Key Request Row Refusal)
variable [DecidableEq Process] [DecidableEq Key] [DecidableEq Row]

/-- The statement of the flush, once no other transaction holds the row. -/
def execute
    (state : EditState Process Key Request Row Refusal) (process : Process)
    (request : Request) (loaded : Option Row)
    (decision : Decision Row Refusal) (retried violates : Bool) :
    Option (EditState Process Key Request Row Refusal) :=
  match decision with
  | .refuse refusal => some (state.goto process (.refused refusal))
  | .insert row =>
      if state.holder (H.key request) ≠ none then none
      else if violates then
        some (state.goto process
          (if retried then .failed else .violated request row))
      else
        match state.rows (H.key request) with
        | none => some (state.write process (H.key request) request (some row))
        | some _ => none
  | .update final =>
      match loaded with
      | none => none
      | some loaded =>
          if final = loaded then some (state.goto process .succeeded)
          else if state.holder (H.key request) ≠ none then none
          else
            match state.rows (H.key request) with
            | some stored =>
                if H.sameRow stored loaded then
                  some (state.write process (H.key request) request
                    (some (H.merge loaded final stored)))
                else some (state.goto process .failed)
            | none => some (state.goto process .failed)
  | .delete =>
      if state.holder (H.key request) ≠ none then none
      else
        match loaded, state.rows (H.key request) with
        | some loaded, some stored =>
            if H.sameRow stored loaded then
              some (state.write process (H.key request) request none)
            else some (state.goto process .succeeded)
        | _, _ => some (state.goto process .succeeded)

def step
    (state : EditState Process Key Request Row Refusal) :
    EditAction Process Request →
      Option (EditState Process Key Request Row Refusal)
  | .read process request =>
      match state.phase process with
      | .idle =>
          let loaded := state.rows (H.key request)
          some (state.goto process
            (.decided request loaded (H.decide request loaded) false))
      | _ => none
  | .execute process violates =>
      match state.phase process with
      | .decided request loaded decision retried =>
          H.execute state process request loaded decision retried violates
      | _ => none
  | .readAgain process =>
      match state.phase process with
      | .violated request tried =>
          let loaded := state.rows (H.key request)
          some (state.goto process
            (.decided request loaded (H.reconsider request tried loaded) true))
      | _ => none
  | .commit process =>
      match state.phase process with
      | .written request version =>
          some (state.commit process (H.key request) version)
      | _ => none
  | .abort process =>
      match state.phase process with
      | .decided .. | .violated .. | .written .. =>
          some (state.finish process .failed)
      | _ => none

/-- The UPDATE which an action is about to send: the version read, the version
computed and the version stored. -/
def pendingUpdate
    (state : EditState Process Key Request Row Refusal) :
    EditAction Process Request → Option (Row × Row × Row)
  | .execute process _ =>
      match state.phase process with
      | .decided request (some loaded) (.update final) _ =>
          (state.rows (H.key request)).map fun stored => (loaded, final, stored)
      | _ => none
  | _ => none

/-- The UPDATE of an action, if it sends one, meets the condition. -/
def UpdatesMeet
    (Condition : Row → Row → Row → Prop)
    (state : EditState Process Key Request Row Refusal)
    (action : EditAction Process Request) : Prop :=
  ∀ update ∈ H.pendingUpdate state action,
    Condition update.1 update.2.1 update.2.2

instance decidableUpdatesMeet
    (Condition : Row → Row → Row → Prop)
    [∀ loaded final stored, Decidable (Condition loaded final stored)]
    (state : EditState Process Key Request Row Refusal)
    (action : EditAction Process Request) :
    Decidable (H.UpdatesMeet Condition state action) :=
  inferInstanceAs (Decidable (∀ update ∈ H.pendingUpdate state action, _))

/-- The requests on a table whose rows all meet the law at the start. -/
def machine
    (Process : Type*) [DecidableEq Process] (Valid : Row → Prop) :
    Machine (EditState Process Key Request Row Refusal)
      (EditAction Process Request) where
  Initial state :=
    (∀ process, state.phase process = .idle) ∧
      (∀ key, state.holder key = none) ∧
      ∀ key, ∀ row ∈ state.rows key, Valid row
  step := H.step

end RowHandlers

/-! ## A law of the rows -/

/-- The versions which a process in some phase has in hand. -/
def EditPhase.inHand : EditPhase Request Row Refusal → List Row
  | .decided _ loaded decision _ => loaded.toList ++ decision.version.toList
  | .violated _ tried => [tried]
  | .written _ version => version.toList
  | _ => []

structure EditState.Meets
    (Valid : Row → Prop)
    (state : EditState Process Key Request Row Refusal) : Prop where
  rows : ∀ key, ∀ row ∈ state.rows key, Valid row
  inHand : ∀ process, ∀ row ∈ (state.phase process).inHand, Valid row

/-- The handlers never decide for a row outside the law, and the columns of
an UPDATE which meets the condition fit the stored ones. -/
structure RowHandlers.Keeps
    (H : RowHandlers Key Request Row Refusal) (Valid : Row → Prop)
    (Condition : Row → Row → Row → Prop) : Prop where
  decide : ∀ request loaded, (∀ row ∈ loaded, Valid row) →
    ∀ row ∈ (H.decide request loaded).version, Valid row
  reconsider : ∀ request tried loaded, Valid tried →
    (∀ row ∈ loaded, Valid row) →
      ∀ row ∈ (H.reconsider request tried loaded).version, Valid row
  merge : ∀ loaded final stored, Valid loaded → Valid final → Valid stored →
    Condition loaded final stored → Valid (H.merge loaded final stored)

section Law

variable [DecidableEq Process] [DecidableEq Key] [DecidableEq Row]
variable {H : RowHandlers Key Request Row Refusal}
variable {Valid : Row → Prop} {Condition : Row → Row → Row → Prop}
variable {state next : EditState Process Key Request Row Refusal}
variable {process : Process}

omit [DecidableEq Key] [DecidableEq Row] in
/-- One process goes on, and the rows stay as they are. -/
theorem EditState.Meets.goto
    (hmeets : state.Meets Valid) {phase : EditPhase Request Row Refusal}
    (hphase : ∀ row ∈ phase.inHand, Valid row) :
    (state.goto process phase).Meets Valid where
  rows := hmeets.rows
  inHand other := by
    by_cases hother : other = process
    · subst hother
      simpa [EditState.goto] using hphase
    · simpa [EditState.goto, hother] using hmeets.inHand other

omit [DecidableEq Row] in
theorem EditState.Meets.write
    (hmeets : state.Meets Valid) {key : Key} {request : Request}
    {version : Option Row} (hversion : ∀ row ∈ version, Valid row) :
    (state.write process key request version).Meets Valid :=
  have hgoto : (state.goto process (.written request version)).Meets Valid :=
    hmeets.goto fun row hrow => hversion row (Option.mem_toList.mp hrow)
  ⟨hgoto.rows, hgoto.inHand⟩

omit [DecidableEq Key] [DecidableEq Row] in
theorem EditState.Meets.finish
    (hmeets : state.Meets Valid) {phase : EditPhase Request Row Refusal}
    (hphase : ∀ row ∈ phase.inHand, Valid row) :
    (state.finish process phase).Meets Valid :=
  have hgoto : (state.goto process phase).Meets Valid := hmeets.goto hphase
  ⟨hgoto.rows, hgoto.inHand⟩

omit [DecidableEq Row] in
theorem EditState.Meets.commit
    (hmeets : state.Meets Valid) {key : Key} {version : Option Row}
    (hversion : ∀ row ∈ version, Valid row) :
    (state.commit process key version).Meets Valid where
  rows other row hrow := by
    by_cases hother : other = key
    · subst hother
      simp only [EditState.commit, Function.update_self] at hrow
      exact hversion row hrow
    · simp only [EditState.commit, Function.update_of_ne hother] at hrow
      exact hmeets.rows other row hrow
  inHand :=
    have hfinish : (state.finish process .succeeded).Meets Valid :=
      hmeets.finish nofun
    hfinish.inHand

/-- What the statement of a flush can do. -/
theorem RowHandlers.execute_cases
    {request : Request} {loaded : Option Row}
    {decision : Decision Row Refusal} {retried violates : Bool}
    (hexecute : H.execute state process request loaded decision retried
      violates = some next) :
    (∃ phase : EditPhase Request Row Refusal,
      (∀ row ∈ phase.inHand, row ∈ decision.version) ∧
        next = state.goto process phase) ∨
    (∃ row, decision = .insert row ∧
      next = state.write process (H.key request) request (some row)) ∨
    (∃ before final stored, loaded = some before ∧ decision = .update final ∧
      state.rows (H.key request) = some stored ∧
      next = state.write process (H.key request) request
        (some (H.merge before final stored))) ∨
    next = state.write process (H.key request) request none := by
  unfold RowHandlers.execute at hexecute
  cases decision with
  | refuse refusal =>
      exact .inl ⟨.refused refusal, nofun, (Option.some.inj hexecute).symm⟩
  | insert row =>
      simp only at hexecute
      split at hexecute
      · contradiction
      split at hexecute
      · refine .inl ⟨_, fun other hother => ?_,
          (Option.some.inj hexecute).symm⟩
        cases retried with
        | true => contradiction
        | false =>
            obtain rfl := List.mem_singleton.mp hother
            rfl
      split at hexecute
      · exact .inr (.inl ⟨row, rfl, (Option.some.inj hexecute).symm⟩)
      · contradiction
  | update final =>
      cases loaded with
      | none => contradiction
      | some before =>
          simp only at hexecute
          split at hexecute
          · exact .inl ⟨.succeeded, nofun, (Option.some.inj hexecute).symm⟩
          split at hexecute
          · contradiction
          split at hexecute
          next stored hstored =>
            split at hexecute
            · exact .inr (.inr (.inl ⟨before, final, stored, rfl, rfl, hstored,
                (Option.some.inj hexecute).symm⟩))
            · exact .inl ⟨.failed, nofun, (Option.some.inj hexecute).symm⟩
          · exact .inl ⟨.failed, nofun, (Option.some.inj hexecute).symm⟩
  | delete =>
      simp only at hexecute
      split at hexecute
      · contradiction
      split at hexecute
      · split at hexecute
        · exact .inr (.inr (.inr (Option.some.inj hexecute).symm))
        · exact .inl ⟨.succeeded, nofun, (Option.some.inj hexecute).symm⟩
      · exact .inl ⟨.succeeded, nofun, (Option.some.inj hexecute).symm⟩

theorem RowHandlers.Keeps.step
    (hkeeps : H.Keeps Valid Condition) {action : EditAction Process Request}
    (hmeets : state.Meets Valid)
    (hcondition : H.UpdatesMeet Condition state action)
    (hstep : H.step state action = some next) : next.Meets Valid := by
  cases action with
  | read process request =>
      simp only [RowHandlers.step] at hstep
      split at hstep
      · obtain rfl := Option.some.inj hstep
        refine hmeets.goto fun row hrow => ?_
        rcases List.mem_append.mp hrow with hloaded | hversion
        · exact hmeets.rows _ row (Option.mem_toList.mp hloaded)
        · exact hkeeps.decide request _ (hmeets.rows _) row
            (Option.mem_toList.mp hversion)
      · contradiction
  | readAgain process =>
      simp only [RowHandlers.step] at hstep
      split at hstep
      next request tried hphase =>
        have htried : Valid tried := by
          refine hmeets.inHand process tried ?_
          rw [hphase]
          exact List.mem_singleton_self tried
        obtain rfl := Option.some.inj hstep
        refine hmeets.goto fun row hrow => ?_
        rcases List.mem_append.mp hrow with hloaded | hversion
        · exact hmeets.rows _ row (Option.mem_toList.mp hloaded)
        · exact hkeeps.reconsider request tried _ htried (hmeets.rows _) row
            (Option.mem_toList.mp hversion)
      · contradiction
  | execute process violates =>
      simp only [RowHandlers.step] at hstep
      split at hstep
      next request loaded decision retried hphase =>
        have hhand := hmeets.inHand process
        simp only [hphase, EditPhase.inHand, List.mem_append,
          Option.mem_toList] at hhand
        rcases RowHandlers.execute_cases hstep with
          ⟨phase, hversion, rfl⟩ | ⟨row, rfl, rfl⟩ |
          ⟨before, final, stored, rfl, rfl, hstored, rfl⟩ | rfl
        · refine hmeets.goto fun row hrow => ?_
          exact hhand row (.inr (hversion row hrow))
        · refine hmeets.write fun version hversion => ?_
          exact hhand version (.inr hversion)
        · refine hmeets.write fun version hversion => ?_
          obtain rfl := Option.some.inj hversion
          have hpending : H.pendingUpdate state (.execute process violates) =
              some (before, final, stored) := by
            simp [RowHandlers.pendingUpdate, hphase, hstored]
          exact hkeeps.merge before final stored (hhand before (.inl rfl))
            (hhand final (.inr rfl)) (hmeets.rows _ stored hstored)
            (hcondition _ hpending)
        · exact hmeets.write nofun
      · contradiction
  | commit process =>
      simp only [RowHandlers.step] at hstep
      split at hstep
      next request version hphase =>
        obtain rfl := Option.some.inj hstep
        refine hmeets.commit fun row hrow => hmeets.inHand process row ?_
        rw [hphase]
        exact Option.mem_toList.mpr hrow
      · contradiction
  | abort process =>
      simp only [RowHandlers.step] at hstep
      split at hstep
      · exact Option.some.inj hstep ▸ hmeets.finish nofun
      · exact Option.some.inj hstep ▸ hmeets.finish nofun
      · exact Option.some.inj hstep ▸ hmeets.finish nofun
      · contradiction

/-- The law survives every run whose UPDATEs meet the condition. -/
theorem RowHandlers.Keeps.reachable
    (hkeeps : H.Keeps Valid Condition)
    (hreach : (H.machine Process Valid).ReachableWhere
      (H.UpdatesMeet Condition) state) : state.Meets Valid := by
  refine hreach.invariant (fun start hstart => ?_) ?_
  · obtain ⟨hidle, -, hrows⟩ := hstart
    refine ⟨hrows, fun process row hrow => ?_⟩
    rw [hidle process] at hrow
    contradiction
  · exact fun _ _ _ hmeets hcondition hstep =>
      hkeeps.step hmeets hcondition hstep

end Law

end NotifyHub
