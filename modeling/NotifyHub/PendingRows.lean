import Mathlib.Tactic

/-!
# Tables with running transactions

Under READ COMMITTED a transaction which writes a row holds its lock until it
ends, and the version it has written is seen by nobody else before the commit.
A statement finds the versions of its own transaction and the committed ones,
and it waits for a row which somebody else holds.  A transaction may hold any
number of rows.

A law of the rows which every written version meets is met by every committed
row, however the transactions interleave.
-/

namespace NotifyHub

/-- The committed rows, and the version which the holder of a row has written
of it; a version without a value removes the row. -/
structure PendingRows (Process Key Row : Type*) where
  rows : Key → Option Row
  pending : Key → Option (Process × Option Row)

namespace PendingRows

variable {Process Key Row : Type*}

def atRest (rows : Key → Option Row) : PendingRows Process Key Row where
  rows := rows
  pending _ := none

section Statements

variable [DecidableEq Process]

/-- What a statement of a process finds under a key, unless it has to wait. -/
def find
    (table : PendingRows Process Key Row) (process : Process) (key : Key) :
    Option (Option Row) :=
  match table.pending key with
  | none => some (table.rows key)
  | some (holder, version) => if holder = process then some version else none

def write [DecidableEq Key]
    (table : PendingRows Process Key Row) (process : Process) (key : Key)
    (version : Option Row) : PendingRows Process Key Row :=
  { table with
    pending := Function.update table.pending key (some (process, version)) }

/-- The end of a transaction: its locks are free. -/
def finish (table : PendingRows Process Key Row) (process : Process) :
    PendingRows Process Key Row :=
  { table with
    pending := fun key =>
      (table.pending key).filter fun write => write.1 ≠ process }

def commit (table : PendingRows Process Key Row) (process : Process) :
    PendingRows Process Key Row :=
  { table.finish process with
    rows := fun key =>
      match table.pending key with
      | none => table.rows key
      | some (holder, version) =>
          if holder = process then version else table.rows key }

end Statements

/-! ## A law of the rows -/

structure Lawful
    (Law : Row → Prop) (table : PendingRows Process Key Row) : Prop where
  rows : ∀ key, ∀ row ∈ table.rows key, Law row
  pending : ∀ key process version,
    table.pending key = some (process, version) → ∀ row ∈ version, Law row

namespace Lawful

variable {Law : Row → Prop} {table : PendingRows Process Key Row}

theorem atRest {rows : Key → Option Row}
    (hrows : ∀ key, ∀ row ∈ rows key, Law row) :
    (PendingRows.atRest rows : PendingRows Process Key Row).Lawful Law where
  rows := hrows
  pending := nofun

variable [DecidableEq Process] {process : Process} {key : Key}

theorem find
    (htable : table.Lawful Law) {version : Option Row}
    (hfind : table.find process key = some version) :
    ∀ row ∈ version, Law row := by
  unfold PendingRows.find at hfind
  cases hpending : table.pending key with
  | none =>
      rw [hpending] at hfind
      cases hfind
      exact htable.rows key
  | some write =>
      rw [hpending] at hfind
      by_cases hholder : write.1 = process
      · simp only [if_pos hholder] at hfind
        cases hfind
        exact htable.pending key write.1 write.2 hpending
      · simp only [if_neg hholder, reduceCtorEq] at hfind

omit [DecidableEq Process] in
theorem write [DecidableEq Key]
    (htable : table.Lawful Law) {version : Option Row}
    (hversion : ∀ row ∈ version, Law row) :
    (table.write process key version).Lawful Law where
  rows := htable.rows
  pending other holder written hpending := by
    by_cases hother : other = key
    · subst hother
      simp only [PendingRows.write, Function.update_self, Option.some.injEq,
        Prod.mk.injEq] at hpending
      exact hpending.2 ▸ hversion
    · simp only [PendingRows.write, Function.update_of_ne hother] at hpending
      exact htable.pending other holder written hpending

theorem finish (htable : table.Lawful Law) :
    (table.finish process).Lawful Law where
  rows := htable.rows
  pending key holder version hpending :=
    htable.pending key holder version (Option.filter_eq_some_iff.mp hpending).1

theorem commit (htable : table.Lawful Law) :
    (table.commit process).Lawful Law where
  rows key row hrow := by
    unfold PendingRows.commit at hrow
    cases hpending : table.pending key with
    | none =>
        simp only [hpending] at hrow
        exact htable.rows key row hrow
    | some write =>
        simp only [hpending] at hrow
        split at hrow
        · exact htable.pending key write.1 write.2 hpending row hrow
        · exact htable.rows key row hrow
  pending := htable.finish.pending

end Lawful

end PendingRows

end NotifyHub
