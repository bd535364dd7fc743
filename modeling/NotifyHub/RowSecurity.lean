import NotifyHub.CursorText
import NotifyHub.PendingRows
import NotifyHub.TransitionMachine
import Mathlib.Tactic

/-!
# Row level security

Every table with a tenant has one policy, `tenant_isolation`, which compares
the tenant of a row with the setting `app.tenant_id` of the connection.  A
session sets it with `SET LOCAL` as its first statement, on a connection of a
pool which has served other tenants before, and the database forgets it when
the transaction ends.

A statement is an arbitrary function of the rows which its connection may see.
Foreign keys are checked, and their actions carried out, without regard to the
policies, and so are the unique constraints: an e-mail address, a slug or the
hash of a token is taken whichever tenant has it.
-/

namespace NotifyHub.RowSecurity

variable {Id Cells Connection : Type}

/-! ## Tables, roles and policies -/

/-- The tables with `FORCE ROW LEVEL SECURITY`. -/
inductive SecuredTable
  | users
  | invitations
  | refreshTokens
  | groups
  | receivers
  | severityRules
  | notifications
  | deliveryChannels
  | groupChannelBindings
  | receiverChannelOverrides
  | deliveries
  | userGroupMemberships
  | severityPresets
  | severityPresetRules
  | receiverSeverityPresets
  | auditEvents
  deriving DecidableEq, Repr

def securedTables : Finset SecuredTable :=
  {.users, .invitations, .refreshTokens, .groups, .receivers, .severityRules,
    .notifications, .deliveryChannels, .groupChannelBindings,
    .receiverChannelOverrides, .deliveries, .userGroupMemberships,
    .severityPresets, .severityPresetRules, .receiverSeverityPresets,
    .auditEvents}

theorem mem_securedTables (table : SecuredTable) : table ∈ securedTables := by
  cases table <;> decide

instance securedTable_fintype : Fintype SecuredTable :=
  ⟨securedTables, mem_securedTables⟩

abbrev RowKey (Id : Type) := SecuredTable × Id

/-- `ON DELETE` of a foreign key. -/
inductive ReferentialAction
  | noAction
  | cascade
  | setNull
  deriving DecidableEq, Repr

structure Reference (Id : Type) where
  target : RowKey Id
  onDelete : ReferentialAction
  deriving DecidableEq, Repr

/-- What a unique constraint compares, such as `users.email` without regard to
case, `receivers.slug` or `groups.tenant_id, name`. -/
structure UniqueEntry where
  constraint : Text
  entry : Text
  deriving DecidableEq, Repr

/-- A row: its tenant, its foreign keys to other secured tables, its entries in
unique indexes, and its other columns. -/
structure Row (Id Cells : Type) where
  tenantId : Uuid
  references : List (Reference Id)
  uniques : List UniqueEntry
  cells : Cells

abbrev Rows (Id Cells : Type) := RowKey Id → Option (Row Id Cells)

/-- `notifyhub_app`, `notifyhub_auth` and `notifyhub_ingest`. -/
inductive PoolRole
  | app
  | auth
  | ingest
  deriving DecidableEq, Repr

inductive Command
  | select
  | insert
  | update
  | delete
  deriving DecidableEq, Repr

/-- `GRANT`, and the `REVOKE UPDATE` on the audit. -/
def granted : PoolRole → SecuredTable → Command → Bool
  | .app, .auditEvents, .update => false
  | .app, _, _ => true
  | .auth, .users, .select => true
  | .auth, .refreshTokens, .select => true
  | .auth, .invitations, .select => true
  | .ingest, .receivers, .select => true
  | _, _, _ => false

/-- `NULLIF(current_setting('app.tenant_id', true), '')::uuid` -/
def currentTenant (setting : Option Text) : Option Uuid :=
  setting.bind fun text => if text = [] then none else uuidOfText text

def tenantIsolation (setting : Option Text) (row : Row Id Cells) : Bool :=
  currentTenant setting = some row.tenantId

/-- `auth_lookup` and `ingest_slug_lookup`, which are `FOR SELECT` only. -/
def lookupPolicy : PoolRole → SecuredTable → Bool
  | .auth, .users => true
  | .auth, .refreshTokens => true
  | .auth, .invitations => true
  | .ingest, .receivers => true
  | _, _ => false

/-- What a role may read, the policies of a command being alternatives. -/
def visible
    (role : PoolRole) (setting : Option Text) (rows : Rows Id Cells) :
    Rows Id Cells :=
  fun key => (rows key).filter fun row =>
    granted role key.1 .select &&
      (tenantIsolation setting row || lookupPolicy role key.1)

/-! ## Statements -/

/-- A statement; its condition and its new values may use all it may read. -/
inductive Statement (Id Cells : Type)
  | select (table : SecuredTable)
      (condition : Rows Id Cells → Id → Row Id Cells → Bool)
  | insert (table : SecuredTable) (id : Id)
      (row : Rows Id Cells → Row Id Cells)
  | update (table : SecuredTable)
      (condition : Rows Id Cells → Id → Row Id Cells → Bool)
      (assign : Rows Id Cells → Id → Row Id Cells → Row Id Cells)
  | delete (table : SecuredTable)
      (condition : Rows Id Cells → Id → Row Id Cells → Bool)

/-- The rows a statement returns, and the new versions of those it writes. -/
@[ext] structure Outcome (Id Cells : Type) where
  returned : Rows Id Cells
  written : RowKey Id → Option (Option (Row Id Cells))

def matching
    (role : PoolRole) (setting : Option Text) (rows : Rows Id Cells)
    (table : SecuredTable)
    (condition : Rows Id Cells → Id → Row Id Cells → Bool) : Rows Id Cells :=
  fun key =>
    if key.1 = table then
      (visible role setting rows key).filter
        (condition (visible role setting rows) key.2)
    else none

/-- The rows which `UPDATE` and `DELETE` may touch: `tenant_isolation` is the
only policy for these commands. -/
def changeable
    (role : PoolRole) (setting : Option Text) (rows : Rows Id Cells)
    (table : SecuredTable)
    (condition : Rows Id Cells → Id → Row Id Cells → Bool) : Rows Id Cells :=
  fun key =>
    (matching role setting rows table condition key).filter
      (tenantIsolation setting)

/-- A foreign key finds the row it refers to, whoever may see it. -/
def referenced (rows : Rows Id Cells) (row : Row Id Cells) : Bool :=
  row.references.all fun reference => (rows reference.target).isSome

/-- The rows which go with the deleted ones, up to a number of cascades. -/
def removed (rows : Rows Id Cells) (targets : RowKey Id → Bool) :
    ℕ → RowKey Id → Bool
  | 0, key => targets key
  | depth + 1, key =>
      removed rows targets depth key ||
        (rows key).any fun row => row.references.any fun reference =>
          decide (reference.onDelete = .cascade) &&
            removed rows targets depth reference.target

/-- No chain of foreign keys is longer than the number of tables. -/
def cascadeDepth : ℕ := securedTables.card

/-- A row which stays must not refer to one which goes, unless its foreign key
says what becomes of it. -/
def releasable (rows : Rows Id Cells) (gone : RowKey Id → Bool)
    (key : RowKey Id) : Bool :=
  gone key || (rows key).all fun row => row.references.all fun reference =>
    decide (reference.onDelete ≠ .noAction) || !gone reference.target

def nullified (gone : RowKey Id → Bool) (row : Row Id Cells) : Row Id Cells :=
  { row with
    references := row.references.filter fun reference =>
      !(decide (reference.onDelete = .setNull) && gone reference.target) }

def deletion (rows : Rows Id Cells) (gone : RowKey Id → Bool) :
    RowKey Id → Option (Option (Row Id Cells)) :=
  fun key =>
    if gone key then some none
    else
      ((rows key).filter fun row => row.references.any fun reference =>
        decide (reference.onDelete = .setNull) && gone reference.target).map
          fun row => some (nullified gone row)

section Perform

variable [Fintype Id] [DecidableEq Id]

/-- The outcome of a statement, unless a privilege, a policy or a foreign key
refuses it. -/
def Statement.perform
    (role : PoolRole) (setting : Option Text) (rows : Rows Id Cells) :
    Statement Id Cells → Option (Outcome Id Cells)
  | .select table condition =>
      if granted role table .select then
        some ⟨matching role setting rows table condition, fun _ => none⟩
      else none
  | .insert table id row =>
      let new := row (visible role setting rows)
      if granted role table .insert && tenantIsolation setting new &&
          (rows (table, id)).isNone && referenced rows new then
        some
          ⟨fun key => if key = (table, id) then some new else none,
            fun key => if key = (table, id) then some (some new) else none⟩
      else none
  | .update table condition assign =>
      let new : Rows Id Cells := fun key =>
        (changeable role setting rows table condition key).map
          (assign (visible role setting rows) key.2)
      if granted role table .update ∧ ∀ key, (new key).all fun row =>
          tenantIsolation setting row && referenced rows row then
        some ⟨new, fun key => (new key).map some⟩
      else none
  | .delete table condition =>
      let targets := changeable role setting rows table condition
      let gone := removed rows (fun key => (targets key).isSome) cascadeDepth
      if granted role table .delete ∧ ∀ key, releasable rows gone key then
        some ⟨targets, deletion rows gone⟩
      else none

/-- The rows as a statement leaves them. -/
def Outcome.over (outcome : Outcome Id Cells) (rows : Rows Id Cells) :
    Rows Id Cells :=
  fun key => (outcome.written key).getD (rows key)

def Row.sharesEntry (first second : Row Id Cells) : Bool :=
  first.uniques.any fun entry => decide (entry ∈ second.uniques)

/-- A written row has the unique entry of another row. -/
def Outcome.Clashes
    (outcome : Outcome Id Cells) (rows : Rows Id Cells) : Prop :=
  ∃ key other, key ≠ other ∧ (outcome.written key).isSome ∧
    (outcome.over rows key).any fun row =>
      (outcome.over rows other).any row.sharesEntry

instance (outcome : Outcome Id Cells) (rows : Rows Id Cells) :
    Decidable (outcome.Clashes rows) :=
  inferInstanceAs (Decidable (∃ _ _, _ ∧ _ ∧ _))

end Perform

/-! ## Sessions on pooled connections -/

/-- Who has a connection: `tenant_session` of a tenant, a session of the same
pool without a context, or `auth_session` and `ingest_session`. -/
inductive Owner
  | tenant (id : Uuid)
  | bare
  | lookup
  deriving DecidableEq

def Owner.fits : Owner → PoolRole → Bool
  | .tenant _, .app => true
  | .bare, .app => true
  | .lookup, .auth => true
  | .lookup, .ingest => true
  | _, _ => false

/-- `SET LOCAL app.tenant_id = '…'` as the first statement. -/
def Owner.opening (setting : Option Text) : Owner → Option Text
  | .tenant id => some (uuidText id)
  | .bare => setting
  | .lookup => setting

/-- A pooled connection: its setting, the session which has it, and whether
the transaction has failed. -/
structure Link where
  setting : Option Text
  serving : Option Owner
  aborted : Bool

/-- The end of a transaction reverts a local setting; a setting which was set
once stays defined, and empty. -/
def Link.ended (link : Link) : Link :=
  { link with setting := link.setting.map fun _ => [], aborted := false }

structure State (Connection Id Cells : Type) where
  table : PendingRows Connection (RowKey Id) (Row Id Cells)
  link : Connection → Link
  log : List (Owner × Connection × Option (Rows Id Cells))

/-- A statement may be refused for what is not modelled here: a check of the
row itself, a timeout, a lost connection. -/
inductive Operation (Id Cells : Type)
  | checkout
  | execute (statement : Statement Id Cells) (refused : Bool)
  | commit
  | rollback
  | close

structure Action (Connection Id Cells : Type) where
  connection : Connection
  owner : Owner
  operation : Operation Id Cells

section Machine

variable [DecidableEq Connection]

/-- Under READ COMMITTED: the own versions over the committed ones. -/
def State.seen (state : State Connection Id Cells) (connection : Connection) :
    Rows Id Cells :=
  fun key =>
    match state.table.pending key with
    | none => state.table.rows key
    | some (holder, version) =>
        if holder = connection then version else state.table.rows key

def State.setLink
    (state : State Connection Id Cells) (connection : Connection)
    (link : Link) : State Connection Id Cells :=
  { state with link := Function.update state.link connection link }

/-- The statement fails, and with it the transaction. -/
def State.fail
    (state : State Connection Id Cells) (connection : Connection)
    (owner : Owner) : State Connection Id Cells :=
  { state.setLink connection { state.link connection with aborted := true } with
    log := state.log ++ [(owner, connection, none)] }

def State.write
    (state : State Connection Id Cells) (connection : Connection)
    (owner : Owner) (outcome : Outcome Id Cells) : State Connection Id Cells :=
  { state with
    table :=
      { state.table with
        pending := fun key =>
          match outcome.written key with
          | none => state.table.pending key
          | some version => some (connection, version) }
    log := state.log ++ [(owner, connection, some outcome.returned)] }

/-- Another transaction has written the row and has not ended. -/
def State.heldByOther
    (state : State Connection Id Cells) (connection : Connection)
    (key : RowKey Id) : Bool :=
  (state.table.pending key).any fun write => write.1 ≠ connection

/-- Another transaction has written, changed or deleted a row with an entry of
this row and has not ended. -/
def State.entryHeld
    (state : State Connection Id Cells) (connection : Connection)
    (row : Row Id Cells) (key : RowKey Id) : Bool :=
  state.heldByOther connection key &&
    ((state.table.rows key).any row.sharesEntry ||
      (state.table.pending key).any fun write => write.2.any row.sharesEntry)

variable [Fintype Id] [DecidableEq Id]

/-- No row which the outcome writes is held, nor any with an entry of it. -/
def State.Unheld
    (state : State Connection Id Cells) (connection : Connection)
    (outcome : Outcome Id Cells) : Prop :=
  ∀ key, (outcome.written key).isSome →
    state.heldByOther connection key = false ∧
      ∀ other, (outcome.over (state.seen connection) key).all fun row =>
        !state.entryHeld connection row other

instance
    (state : State Connection Id Cells) (connection : Connection)
    (outcome : Outcome Id Cells) : Decidable (state.Unheld connection outcome) :=
  inferInstanceAs (Decidable (∀ _, _ → _ ∧ _))

/-- A statement waits for the rows it writes, and for those which may free or
keep a unique entry of them. -/
def State.execute
    (role : PoolRole) (state : State Connection Id Cells)
    (connection : Connection) (owner : Owner)
    (statement : Statement Id Cells) : Option (State Connection Id Cells) :=
  match statement.perform role (state.link connection).setting
      (state.seen connection) with
  | none => some (state.fail connection owner)
  | some outcome =>
      if state.Unheld connection outcome then
        if outcome.Clashes (state.seen connection) then
          some (state.fail connection owner)
        else some (state.write connection owner outcome)
      else none

def State.step
    (pool : Connection → PoolRole) (state : State Connection Id Cells)
    (action : Action Connection Id Cells) :
    Option (State Connection Id Cells) :=
  let connection := action.connection
  let link := state.link connection
  match action.operation with
  | .checkout =>
      if link.serving = none ∧ action.owner.fits (pool connection) then
        some (state.setLink connection
          ⟨action.owner.opening link.setting, some action.owner, false⟩)
      else none
  | .execute statement refused =>
      if link.serving = some action.owner then
        if link.aborted || refused then
          some (state.fail connection action.owner)
        else
          state.execute (pool connection) connection action.owner statement
      else none
  | .commit =>
      if link.serving = some action.owner then
        some { state.setLink connection link.ended with
          table :=
            if link.aborted then state.table.finish connection
            else state.table.commit connection }
      else none
  | .rollback =>
      if link.serving = some action.owner then
        some { state.setLink connection link.ended with
          table := state.table.finish connection }
      else none
  | .close =>
      if link.serving = some action.owner then
        some { state.setLink connection { link.ended with serving := none } with
          table := state.table.finish connection }
      else none

/-- The pools at their start: no connection has been used. -/
def machine (Id Cells : Type) [Fintype Id] [DecidableEq Id]
    (pool : Connection → PoolRole) :
    Machine (State Connection Id Cells) (Action Connection Id Cells) where
  Initial state :=
    (∀ key, state.table.pending key = none) ∧
      (∀ connection, state.link connection = ⟨none, none, false⟩) ∧
      state.log = []
  step := State.step pool

end Machine

end NotifyHub.RowSecurity
