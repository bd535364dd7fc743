import Mathlib.Algebra.Order.Group.Defs
import Mathlib.Data.List.Basic
import Mathlib.Tactic

/-!
# Sliding windows over a log

A log of moments in ascending order, and the part of it which a window of fixed
width still sees.  What has left the window never comes back, and a log which
only grows while its window has room never has too much in any window.
-/

namespace NotifyHub.SlidingLog

variable {Entry Time : Type*} [AddCommGroup Time] [LinearOrder Time]
  {moment : Entry → Time} {width first now later : Time}
  {log : List Entry} {entry : Entry} {limit : ℕ}

/-- What a window which ends now has not yet lost. -/
def recent (moment : Entry → Time) (width now : Time) (log : List Entry) :
    List Entry :=
  log.filter fun entry => now - width < moment entry

/-- What lies in the window `(now - width, now]`. -/
def within (moment : Entry → Time) (width now : Time) (log : List Entry) :
    List Entry :=
  (recent moment width now log).filter fun entry => moment entry ≤ now

def Limited
    (moment : Entry → Time) (width : Time) (limit : ℕ) (log : List Entry) :
    Prop :=
  ∀ now, (within moment width now log).length ≤ limit

theorem recent_append (log others : List Entry) :
    recent moment width now (log ++ others) =
      recent moment width now log ++ recent moment width now others :=
  List.filter_append _ _

theorem recent_map {Other : Type*} (f : Other → Entry) (others : List Other) :
    recent moment width now (others.map f) =
      (recent (fun other => moment (f other)) width now others).map f :=
  List.filter_map

/-- A later window only sees what an earlier one has seen. -/
theorem recent_recent [IsOrderedAddMonoid Time] (hlater : now ≤ later) :
    recent moment width later (recent moment width now log) =
      recent moment width later log := by
  have hmono : ∀ entry : Entry, later - width < moment entry →
      now - width < moment entry := fun entry hentry =>
    (sub_le_sub_right hlater width).trans_lt hentry
  rw [recent, recent, recent, List.filter_filter]
  apply List.filter_congr
  intro entry _
  simpa using hmono entry

theorem recent_eq_nil (hold : ∀ entry ∈ log, moment entry ≤ now - width) :
    recent moment width now log = [] := by
  rw [recent, List.filter_eq_nil_iff]
  intro entry hentry
  simpa using hold entry hentry

/-- Up to now nothing lies beyond the window. -/
theorem within_eq_recent (hpast : ∀ entry ∈ log, moment entry ≤ now) :
    within moment width now log = recent moment width now log := by
  rw [within, List.filter_eq_self]
  intro entry hentry
  simpa using hpast entry (List.mem_of_mem_filter hentry)

theorem limited_nil : Limited moment width limit [] :=
  fun _ => Nat.zero_le limit

/-- An entry is added to a log whose window has room for it. -/
theorem Limited.append [IsOrderedAddMonoid Time]
    (hlimited : Limited moment width limit log)
    (hpast : ∀ old ∈ log, moment old ≤ moment entry)
    (hroom : (recent moment width (moment entry) log).length < limit) :
    Limited moment width limit (log ++ [entry]) := by
  intro now
  have hsplit : within moment width now (log ++ [entry]) =
      within moment width now log ++ within moment width now [entry] := by
    rw [within, recent_append, List.filter_append]
    rfl
  rw [hsplit, List.length_append]
  by_cases hinside : now - width < moment entry ∧ moment entry ≤ now
  · have hone : (within moment width now [entry]).length = 1 := by
      simp [within, recent, hinside]
    have hseen : (within moment width now log).length ≤
        (recent moment width (moment entry) log).length := by
      rw [within_eq_recent fun old hold => (hpast old hold).trans hinside.2]
      rw [← recent_recent hinside.2]
      exact List.length_filter_le _ _
    omega
  · have hnone : within moment width now [entry] = [] := by
      rw [within, List.filter_eq_nil_iff]
      intro other hother
      obtain ⟨hmem, hrecent⟩ := List.mem_filter.mp hother
      obtain rfl := List.mem_singleton.mp hmem
      have hafter : now - width < moment other := by simpa using hrecent
      simpa using fun hle => hinside ⟨hafter, hle⟩
    rw [hnone]
    exact hlimited now

end NotifyHub.SlidingLog
