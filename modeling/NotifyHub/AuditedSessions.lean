import NotifyHub.AuditEngine
import Mathlib.Tactic

/-!
# Transactions of audited requests

The session of a request: the rows as the transaction has them in the database,
and the objects of the unit of work.  A flush hands the objects which differ to
the hook and writes them; a set-based statement and a foreign key write rows
which the hook does not see.  Every attribute is loaded when it is assigned, and
a savepoint which is rolled back leaves nothing.
-/

namespace NotifyHub.Audit

abbrev Database (Id : Type) := Key Id → Option Row

/-- What an INSERT fills in for attributes which are not set: the defaults of the
columns and of the server. -/
structure InsertDefaults where
  fill : Model → Row → Row
  keeps : ∀ model row column,
    row column ≠ .null → fill model row column = row column

/-- The rows a set-based statement writes, and what becomes of one. -/
structure Statement (Id : Type) where
  selects : Key Id → Row → Bool
  result : Row → Option Row

/-- What a handler does with its session.  Every SELECT may flush before it is
sent. -/
inductive Operation (Id : Type)
  | add (key : Key Id) (row : Row)
  | assign (key : Key Id) (column : Column) (value : Value)
  | delete (key : Key Id)
  | flush
  | execute (statement : Statement Id)
  | cascade (selects : Key Id → Row → Bool)
  | record (action resourceType : Text) (resourceId : Option Id)
      (context : EventContext Id)

/-- How the rows of a write came to be written. -/
inductive WriteOrigin
  | flush
  | statement
  | foreignKey
  deriving DecidableEq

/-- One write of a transaction, with the objects its flush has handed to the
hook. -/
structure Write (Id : Type) where
  origin : WriteOrigin
  before : Database Id
  after : Database Id
  pending : List (Pending Id)

/-- A session, with the writes of its transaction so far and the events which
the handler has recorded itself. -/
structure UnitOfWork (Id : Type) where
  database : Database Id
  objects : Database Id
  touched : List (Key Id)
  writes : List (Write Id)
  recorded : List (AuditEvent Id)

namespace UnitOfWork

variable {Id : Type} [DecidableEq Id]

omit [DecidableEq Id] in
def initial (database : Database Id) : UnitOfWork Id :=
  ⟨database, database, [], [], []⟩

omit [DecidableEq Id] in
def pendingOf (session : UnitOfWork Id) (key : Key Id) : Option (Pending Id) :=
  match session.database key, session.objects key with
  | none, some row => some (.created key row)
  | some before, some after => some (.updated key before after)
  | some row, none => some (.deleted key row)
  | none, none => none

/-- `session.new`, `session.dirty` and `session.deleted`. -/
def pending (session : UnitOfWork Id) : List (Pending Id) :=
  let objects := session.touched.dedup.filterMap session.pendingOf
  objects.filter (fun | .created .. => true | _ => false) ++
    objects.filter (fun | .updated .. => true | _ => false) ++
    objects.filter (fun | .deleted .. => true | _ => false)

/-- The rows after a flush. -/
def flushed (defaults : InsertDefaults) (session : UnitOfWork Id) :
    Database Id :=
  fun key =>
    if key ∈ session.touched then
      match session.database key, session.objects key with
      | none, some row => some (defaults.fill key.model row)
      | _, object => object
    else session.database key

/-- A write of rows behind the unit of work, which reads them back. -/
def write (session : UnitOfWork Id) (origin : WriteOrigin)
    (database : Database Id) (pending : List (Pending Id)) : UnitOfWork Id :=
  { session with
    database := database
    objects := database
    touched := []
    writes :=
      session.writes ++ [⟨origin, session.database, database, pending⟩] }

def flush (defaults : InsertDefaults) (session : UnitOfWork Id) :
    UnitOfWork Id :=
  session.write .flush (session.flushed defaults) session.pending

omit [DecidableEq Id] in
def affect (selects : Key Id → Row → Bool) (result : Row → Option Row)
    (database : Database Id) : Database Id :=
  fun key =>
    (database key).bind fun row =>
      if selects key row then result row else some row

def touch (session : UnitOfWork Id) (key : Key Id) (object : Option Row) :
    UnitOfWork Id :=
  { session with
    objects := Function.update session.objects key object
    touched := session.touched ++ [key] }

end UnitOfWork

section Run

variable {Id : Type} [DecidableEq Id] (ctx : AuditContext)
  (defaults : InsertDefaults)

/-- An operation, unless the session refuses it. -/
def Operation.apply (operation : Operation Id) (session : UnitOfWork Id) :
    Option (UnitOfWork Id) :=
  match operation with
  | .add key row =>
      if session.database key = none ∧ session.objects key = none then
        some (session.touch key (some row))
      else none
  | .assign key column value =>
      (session.objects key).map fun row =>
        session.touch key (some (Function.update row column value))
  | .delete key =>
      if (session.database key).isSome ∧ (session.objects key).isSome then
        some (session.touch key none)
      else none
  | .flush => some (session.flush defaults)
  | .execute statement =>
      -- A statement on mapped rows flushes first.
      let session := session.flush defaults
      some (session.write .statement
        (UnitOfWork.affect statement.selects statement.result
          session.database) [])
  | .cascade selects =>
      let session := session.flush defaults
      some (session.write .foreignKey
        (UnitOfWork.affect selects (fun _ => none) session.database) [])
  | .record action resourceType resourceId context =>
      some
        { session with
          recorded := session.recorded ++
            [recordEvent ctx ctx.tenantId action resourceType resourceId none
              [] context] }

def runOperations (operations : List (Operation Id))
    (session : UnitOfWork Id) : Option (UnitOfWork Id) :=
  operations.foldlM (fun session operation =>
    operation.apply ctx defaults session) session

/-- The transaction of a request up to its commit, which flushes. -/
def runTransaction (operations : List (Operation Id)) (database : Database Id) :
    Option (UnitOfWork Id) :=
  (runOperations ctx defaults operations (.initial database)).map
    (UnitOfWork.flush defaults)

end Run

/-! ## What the writes are -/

/-- The rows from one write to the next. -/
inductive Chain {Id : Type} :
    Database Id → List (Write Id) → Database Id → Prop
  | nil (database : Database Id) : Chain database [] database
  | cons (write : Write Id) {rest : List (Write Id)} {last : Database Id}
      (hrest : Chain write.after rest last) :
      Chain write.before (write :: rest) last

namespace Chain

variable {Id : Type} {first middle last : Database Id}
  {writes others : List (Write Id)} {write : Write Id}

theorem append
    (hchain : Chain first writes middle) (hothers : Chain middle others last) :
    Chain first (writes ++ others) last := by
  induction hchain with
  | nil => exact hothers
  | cons write _ ih => exact .cons write (ih hothers)

theorem split
    (hchain : Chain first (writes ++ write :: others) last) :
    Chain first writes write.before ∧ Chain write.after others last := by
  induction writes generalizing first with
  | nil =>
      cases hchain with
      | cons _ hrest => exact ⟨.nil _, hrest⟩
  | cons head rest ih =>
      cases hchain with
      | cons _ hrest =>
          obtain ⟨hbefore, hafter⟩ := ih hrest
          exact ⟨.cons head hbefore, hafter⟩

end Chain

def Pending.key {Id : Type} : Pending Id → Key Id
  | .created key _ => key
  | .updated key _ _ => key
  | .deleted key _ => key

/-- The object is what the write does to its row. -/
def Pending.Describes {Id : Type} (defaults : InsertDefaults)
    (before after : Database Id) : Pending Id → Prop
  | .created key row =>
      before key = none ∧ after key = some (defaults.fill key.model row)
  | .updated key old new => before key = some old ∧ after key = some new
  | .deleted key row => before key = some row ∧ after key = none

/-- The objects of a flush are the rows which it changes; the hook sees no
other write. -/
structure Write.Faithful {Id : Type} (defaults : InsertDefaults)
    (write : Write Id) : Prop where
  describes : ∀ pending ∈ write.pending,
    pending.Describes defaults write.before write.after
  complete : write.origin = .flush → ∀ key,
    write.before key ≠ write.after key →
      ∃ pending ∈ write.pending, pending.key = key

namespace UnitOfWork

variable {Id : Type} [DecidableEq Id] {defaults : InsertDefaults}
  {session : UnitOfWork Id} {ctx : AuditContext}

theorem mem_pending {pending : Pending Id} :
    pending ∈ session.pending ↔
      ∃ key ∈ session.touched, session.pendingOf key = some pending := by
  have hobjects : pending ∈ session.touched.dedup.filterMap session.pendingOf ↔
      ∃ key ∈ session.touched, session.pendingOf key = some pending := by
    simp [List.mem_filterMap]
  rw [← hobjects, UnitOfWork.pending]
  simp only [List.mem_append, List.mem_filter]
  cases pending with
  | created key row => simp
  | updated key old new => simp
  | deleted key row => simp

omit [DecidableEq Id] in
theorem pendingOf_key
    {key : Key Id} {pending : Pending Id}
    (hpending : session.pendingOf key = some pending) : pending.key = key := by
  unfold pendingOf at hpending
  split at hpending
  · obtain rfl := Option.some.inj hpending
    rfl
  · obtain rfl := Option.some.inj hpending
    rfl
  · obtain rfl := Option.some.inj hpending
    rfl
  · cases hpending

theorem pendingOf_describes
    {key : Key Id} {pending : Pending Id} (htouched : key ∈ session.touched)
    (hpending : session.pendingOf key = some pending) :
    pending.Describes defaults session.database
      (session.flushed defaults) := by
  unfold pendingOf at hpending
  split at hpending
  next row hdatabase hobject =>
    obtain rfl := Option.some.inj hpending
    exact ⟨hdatabase, by simp [flushed, htouched, hdatabase, hobject]⟩
  next before after hdatabase hobject =>
    obtain rfl := Option.some.inj hpending
    exact ⟨hdatabase, by simp [flushed, htouched, hdatabase, hobject]⟩
  next row hdatabase hobject =>
    obtain rfl := Option.some.inj hpending
    exact ⟨hdatabase, by simp [flushed, htouched, hdatabase, hobject]⟩
  · cases hpending

/-- The write of a flush. -/
theorem flush_faithful :
    Write.Faithful defaults
      ⟨.flush, session.database, session.flushed defaults,
        session.pending⟩ where
  describes pending hpending := by
    obtain ⟨key, htouched, hkey⟩ := mem_pending.mp hpending
    exact pendingOf_describes htouched hkey
  complete _ key hchanged := by
    have htouched : key ∈ session.touched := by
      by_contra hnot
      simp [flushed, hnot] at hchanged
    cases hpending : session.pendingOf key with
    | some pending =>
        exact ⟨pending, mem_pending.mpr ⟨key, htouched, hpending⟩,
          pendingOf_key hpending⟩
    | none =>
        unfold pendingOf at hpending
        split at hpending
        · cases hpending
        · cases hpending
        · cases hpending
        next hdatabase hobject =>
          simp [flushed, htouched, hdatabase, hobject] at hchanged

/-- The writes so far lead from the start to the rows of the session, and the
hook has seen those of the flushes. -/
structure Sound (defaults : InsertDefaults) (start : Database Id)
    (session : UnitOfWork Id) : Prop where
  chain : Chain start session.writes session.database
  faithful : ∀ write ∈ session.writes, write.Faithful defaults

omit [DecidableEq Id] in
theorem initial_sound (database : Database Id) :
    Sound defaults database (initial database) :=
  ⟨.nil database, nofun⟩

omit [DecidableEq Id] in
theorem Sound.write
    {start database : Database Id} {origin : WriteOrigin}
    {pending : List (Pending Id)} (hsound : Sound defaults start session)
    (hfaithful : Write.Faithful defaults
      ⟨origin, session.database, database, pending⟩) :
    Sound defaults start (session.write origin database pending) where
  chain := hsound.chain.append
    (.cons ⟨origin, session.database, database, pending⟩ (.nil database))
  faithful write hwrite := by
    rcases List.mem_append.mp hwrite with hold | hnew
    · exact hsound.faithful write hold
    · obtain rfl := List.mem_singleton.mp hnew
      exact hfaithful

theorem Sound.flush
    {start : Database Id} (hsound : Sound defaults start session) :
    Sound defaults start (session.flush defaults) :=
  hsound.write flush_faithful

omit [DecidableEq Id] in
/-- A write behind the unit of work. -/
theorem Sound.behind
    {start database : Database Id} {origin : WriteOrigin}
    (hsound : Sound defaults start session) (horigin : origin ≠ .flush) :
    Sound defaults start (session.write origin database []) :=
  hsound.write ⟨nofun, fun hflush => absurd hflush horigin⟩

theorem Sound.touch
    {start : Database Id} {key : Key Id} {object : Option Row}
    (hsound : Sound defaults start session) :
    Sound defaults start (session.touch key object) :=
  ⟨hsound.chain, hsound.faithful⟩

theorem Sound.apply
    {start : Database Id} {operation : Operation Id} {next : UnitOfWork Id}
    (hsound : Sound defaults start session)
    (happly : operation.apply ctx defaults session = some next) :
    Sound defaults start next := by
  cases operation with
  | add key row =>
      simp only [Operation.apply] at happly
      split at happly
      · obtain rfl := Option.some.inj happly
        exact hsound.touch
      · cases happly
  | assign key column value =>
      obtain ⟨row, -, rfl⟩ := Option.map_eq_some_iff.mp happly
      exact hsound.touch
  | delete key =>
      simp only [Operation.apply] at happly
      split at happly
      · obtain rfl := Option.some.inj happly
        exact hsound.touch
      · cases happly
  | flush =>
      obtain rfl := Option.some.inj happly
      exact hsound.flush
  | execute statement =>
      obtain rfl := Option.some.inj happly
      exact hsound.flush.behind nofun
  | cascade selects =>
      obtain rfl := Option.some.inj happly
      exact hsound.flush.behind nofun
  | record action resourceType resourceId context =>
      obtain rfl := Option.some.inj happly
      exact ⟨hsound.chain, hsound.faithful⟩

theorem Sound.run
    {start : Database Id} {operations : List (Operation Id)}
    {last : UnitOfWork Id} (hsound : Sound defaults start session)
    (hrun : runOperations ctx defaults operations session = some last) :
    Sound defaults start last := by
  induction operations generalizing session with
  | nil =>
      obtain rfl := Option.some.inj hrun
      exact hsound
  | cons operation rest ih =>
      rw [runOperations, List.foldlM_cons] at hrun
      obtain ⟨next, hnext, hrest⟩ := Option.bind_eq_some_iff.mp hrun
      exact ih (hsound.apply hnext) hrest

/-- A committed transaction is sound. -/
theorem sound_of_runTransaction
    {start : Database Id} {operations : List (Operation Id)}
    (hrun : runTransaction ctx defaults operations start = some session) :
    Sound defaults start session := by
  obtain ⟨last, hlast, rfl⟩ := Option.map_eq_some_iff.mp hrun
  exact ((initial_sound start).run hlast).flush

end UnitOfWork

end NotifyHub.Audit
