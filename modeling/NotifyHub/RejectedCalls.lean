import NotifyHub.RateLimiter
import Mathlib.Tactic

/-!
# Rejected calls of the rate limiter

What the script answers depends only on what the window of the call still sees
of the key.  A rejected call keeps what every later window sees, so the log
without it goes on with the same answers.
-/

namespace NotifyHub.RateLimit

/-- A call with the limit which it is checked against. -/
structure LimitedCall where
  limit : ℤ
  call : Call
  deriving DecidableEq

/-- The calls of one key in their order, each with its answer. -/
def hits (windowSeconds : ℤ) :
    Option WindowSet → List LimitedCall → List (LimitedCall × RateLimitResult)
  | _, [] => []
  | key, limited :: calls =>
      let (key, result) :=
        slidingWindowHit limited.limit windowSeconds limited.call key
      (limited, result) :: hits windowSeconds key calls

/-- The waiting time which the script computes from what it has left. -/
def retryAfter (windowSeconds now : ℤ) (left : List (ℤ × Text)) : ℤ :=
  match (left.map Prod.fst).min? with
  | some oldest => max 1 ⌈((oldest + windowSeconds * 1000 - now : ℤ) : ℚ) / 1000⌉
  | none => windowSeconds

/-- Two values of a key which no window from `now` on can tell apart. -/
def Alike (windowSeconds now : ℤ) (key other : Option WindowSet) : Prop :=
  ∀ later, now ≤ later → seen windowSeconds later key =
    seen windowSeconds later other

section Calls

variable {windowSeconds now later limit : ℤ} {call : Call}
  {key other : Option WindowSet}

theorem Alike.mono (halike : Alike windowSeconds now key other)
    (hlater : now ≤ later) : Alike windowSeconds later key other := by
  intro moment hmoment
  have hnow : now ≤ moment := hlater.trans hmoment
  exact halike moment hnow

theorem members_trimmed (windowSeconds now : ℤ) (key : Option WindowSet) :
    members (zremrangebyscore (now - windowSeconds * 1000) (existing now key)) =
      seen windowSeconds now key := by
  rw [members_zremrangebyscore]
  rfl

theorem slidingWindowHit_unlimited (hlimit : limit ≤ 0) :
    slidingWindowHit limit windowSeconds call key = (key, ⟨true, -1, 0⟩) :=
  if_pos hlimit

theorem slidingWindowHit_rejected
    (hlimit : 0 < limit)
    (hfull : limit ≤ (seen windowSeconds call.nowMs key).length) :
    slidingWindowHit limit windowSeconds call key =
      (zremrangebyscore (call.nowMs - windowSeconds * 1000)
          (existing call.nowMs key),
        ⟨false, 0, retryAfter windowSeconds call.nowMs
          (seen windowSeconds call.nowMs key)⟩) := by
  have hmembers := members_trimmed windowSeconds call.nowMs key
  rw [slidingWindowHit, if_neg (Int.not_le.mpr hlimit), slidingWindowScript]
  simp only [hmembers, if_pos hfull, oldestScore]
  rfl

theorem slidingWindowHit_admitted
    (hlimit : 0 < limit)
    (hroom : (seen windowSeconds call.nowMs key).length < limit) :
    slidingWindowHit limit windowSeconds call key =
      (some ⟨(seen windowSeconds call.nowMs key).filter
            (fun entry => entry.2 ≠ call.member) ++ [(call.nowMs, call.member)],
          some (call.nowMs + windowSeconds * 1000)⟩,
        ⟨true, limit - (seen windowSeconds call.nowMs key).length - 1, 0⟩) := by
  have hmembers := members_trimmed windowSeconds call.nowMs key
  rw [slidingWindowHit, if_neg (Int.not_le.mpr hlimit), slidingWindowScript]
  simp only [hmembers, if_neg (Int.not_le.mpr hroom), expire, zadd]
  rfl

/-- A rejected call leaves a key which later windows cannot tell apart from the
one it has found. -/
theorem Alike.rejected
    (hrejected :
      (slidingWindowHit limit windowSeconds call key).2.allowed = false)
    (halike : Alike windowSeconds call.nowMs key other) :
    Alike windowSeconds call.nowMs
      (slidingWindowHit limit windowSeconds call key).1 other := by
  by_cases hlimit : limit ≤ 0
  · rw [slidingWindowHit_unlimited hlimit] at hrejected
    cases hrejected
  · have hpositive : 0 < limit := Int.not_le.mp hlimit
    by_cases hfull : limit ≤ (seen windowSeconds call.nowMs key).length
    · rw [slidingWindowHit_rejected hpositive hfull]
      intro later hlater
      rw [seen_zremrangebyscore hlater]
      exact halike later hlater
    · have hroom := Int.not_le.mp hfull
      rw [slidingWindowHit_admitted hpositive hroom] at hrejected
      cases hrejected

/-- Keys which a call cannot tell apart give it one answer, and no later call
can tell apart what it leaves. -/
theorem Alike.hit (limit : ℤ)
    (halike : Alike windowSeconds call.nowMs key other) :
    (slidingWindowHit limit windowSeconds call key).2 =
        (slidingWindowHit limit windowSeconds call other).2 ∧
      Alike windowSeconds call.nowMs
        (slidingWindowHit limit windowSeconds call key).1
        (slidingWindowHit limit windowSeconds call other).1 := by
  have hseen := halike call.nowMs le_rfl
  by_cases hlimit : limit ≤ 0
  · rw [slidingWindowHit_unlimited hlimit, slidingWindowHit_unlimited hlimit]
    exact ⟨rfl, halike⟩
  · have hpositive : 0 < limit := Int.not_le.mp hlimit
    by_cases hfull : limit ≤ (seen windowSeconds call.nowMs key).length
    · have hother : limit ≤ (seen windowSeconds call.nowMs other).length := by
        rw [← hseen]
        exact hfull
      rw [slidingWindowHit_rejected hpositive hfull,
        slidingWindowHit_rejected hpositive hother, hseen]
      constructor
      · rfl
      · intro later hlater
        rw [seen_zremrangebyscore hlater, seen_zremrangebyscore hlater]
        exact halike later hlater
    · have hroom := Int.not_le.mp hfull
      have hother : (seen windowSeconds call.nowMs other).length < limit := by
        rw [← hseen]
        exact hroom
      rw [slidingWindowHit_admitted hpositive hroom,
        slidingWindowHit_admitted hpositive hother, hseen]
      exact ⟨rfl, fun later hlater => rfl⟩

end Calls

/-! ## Logs -/

abbrev LimitedAnswer := LimitedCall × RateLimitResult

def accepted (log : List LimitedAnswer) : List LimitedAnswer :=
  log.filter fun answered => answered.2.allowed

section Logs

variable {windowSeconds now : ℤ} {key other : Option WindowSet}
  {calls : List LimitedCall} {limited : LimitedCall}
  {kept log : List LimitedAnswer} {answered : LimitedAnswer}

theorem hits_cons (key : Option WindowSet) (limited : LimitedCall)
    (calls : List LimitedCall) :
    hits windowSeconds key (limited :: calls) =
      (limited, (slidingWindowHit limited.limit windowSeconds limited.call
          key).2) ::
        hits windowSeconds (slidingWindowHit limited.limit windowSeconds
          limited.call key).1 calls :=
  rfl

/-- Who leaves out an admitted call has fewer admitted calls. -/
theorem rejected_of_accepted
    (hsublist : kept.Sublist log)
    (haccepted : accepted kept = accepted (answered :: log)) :
    answered.2.allowed = false := by
  by_contra hallowed
  have hcons : accepted (answered :: log) = answered :: accepted log :=
    List.filter_cons_of_pos (by simpa using hallowed)
  have hshorter : (accepted kept).length ≤ (accepted log).length :=
    (hsublist.filter _).length_le
  have hlonger : (accepted kept).length = (accepted log).length + 1 := by
    rw [haccepted, hcons, List.length_cons]
  omega

theorem accepted_cons_inj
    (haccepted : accepted (answered :: kept) = accepted (answered :: log)) :
    accepted kept = accepted log := by
  by_cases hallowed : answered.2.allowed = true
  · have hkept : accepted (answered :: kept) = answered :: accepted kept :=
      List.filter_cons_of_pos hallowed
    have hlog : accepted (answered :: log) = answered :: accepted log :=
      List.filter_cons_of_pos hallowed
    rw [hkept, hlog] at haccepted
    exact (List.cons.inj haccepted).2
  · have hkept : accepted (answered :: kept) = accepted kept :=
      List.filter_cons_of_neg hallowed
    have hlog : accepted (answered :: log) = accepted log :=
      List.filter_cons_of_neg hallowed
    rw [hkept, hlog] at haccepted
    exact haccepted

theorem accepted_of_rejected (hrejected : answered.2.allowed = false) :
    accepted (answered :: log) = accepted log :=
  List.filter_cons_of_neg (by simp [hrejected])

/-- Keys which look alike from the first call on have the same log without
rejected calls.  The induction is on the calls; a call which is left out only
moves the first of the two keys on. -/
theorem Alike.hits_kept
    (hclock : calls.Pairwise fun earlier later =>
      earlier.call.nowMs ≤ later.call.nowMs)
    (hstart : ∀ limited ∈ calls, now ≤ limited.call.nowMs)
    (halike : Alike windowSeconds now key other)
    (hsublist : kept.Sublist (hits windowSeconds key calls))
    (haccepted : accepted kept = accepted (hits windowSeconds key calls)) :
    hits windowSeconds other (kept.map Prod.fst) = kept := by
  induction calls generalizing now key other kept with
  | nil =>
      rw [hits, List.sublist_nil] at hsublist
      rw [hsublist]
      rfl
  | cons limited calls ih =>
      obtain ⟨hfirst, hrest⟩ := List.pairwise_cons.mp hclock
      have hnow : now ≤ limited.call.nowMs :=
        hstart limited List.mem_cons_self
      have hhere := halike.mono hnow
      rw [hits_cons] at hsublist haccepted
      cases hsublist with
      | cons _ hsublist =>
          have hrejected := rejected_of_accepted hsublist haccepted
          rw [accepted_of_rejected hrejected] at haccepted
          exact ih hrest hfirst (hhere.rejected hrejected) hsublist haccepted
      | cons_cons _ hsublist =>
          obtain ⟨hanswer, hlater⟩ :=
            hhere.hit limited.limit
          have hothers := ih hrest hfirst hlater hsublist
            (accepted_cons_inj haccepted)
          rw [List.map_cons, hits_cons, ← hanswer, hothers]

end Logs

/-- Rejected calls, whichever are left out, change no answer. -/
theorem rejected_calls_leave_no_trace
    (windowSeconds : ℤ) (key : Option WindowSet) {calls : List LimitedCall}
    (hclock : calls.Pairwise fun earlier later =>
      earlier.call.nowMs ≤ later.call.nowMs)
    {kept : List LimitedAnswer}
    (hsublist : kept.Sublist (hits windowSeconds key calls))
    (haccepted : accepted kept = accepted (hits windowSeconds key calls)) :
    hits windowSeconds key (kept.map Prod.fst) = kept := by
  cases calls with
  | nil =>
      rw [hits, List.sublist_nil] at hsublist
      rw [hsublist]
      rfl
  | cons limited calls =>
      have hstart : ∀ other ∈ limited :: calls,
          limited.call.nowMs ≤ other.call.nowMs := by
        intro other hother
        rcases List.mem_cons.mp hother with rfl | hmem
        · exact le_rfl
        · exact (List.pairwise_cons.mp hclock).1 other hmem
      have hself : Alike windowSeconds limited.call.nowMs key key :=
        fun later hlater => rfl
      exact hself.hits_kept hclock hstart hsublist haccepted

/-- One of two rejected calls of a blocked key is left out; the other one and
the call after the block are answered as before. -/
theorem rejected_calls_leave_no_trace_blocked :
    let blocked : LimitedAnswer := (⟨1, ⟨2000, 2⟩⟩, ⟨false, 0, 59⟩)
    let kept : List LimitedAnswer := [(⟨1, ⟨1000, 1⟩⟩, ⟨true, 0, 0⟩),
      (⟨1, ⟨3000, 3⟩⟩, ⟨false, 0, 58⟩), (⟨1, ⟨61000, 4⟩⟩, ⟨true, 0, 0⟩)]
    blocked ∈ hits 60 none [⟨1, ⟨1000, 1⟩⟩, ⟨1, ⟨2000, 2⟩⟩, ⟨1, ⟨3000, 3⟩⟩,
      ⟨1, ⟨61000, 4⟩⟩] ∧ hits 60 none (kept.map Prod.fst) = kept := by
  intro blocked kept
  have hlog : hits 60 none [⟨1, ⟨1000, 1⟩⟩, ⟨1, ⟨2000, 2⟩⟩, ⟨1, ⟨3000, 3⟩⟩,
      ⟨1, ⟨61000, 4⟩⟩] = [(⟨1, ⟨1000, 1⟩⟩, ⟨true, 0, 0⟩), blocked,
        (⟨1, ⟨3000, 3⟩⟩, ⟨false, 0, 58⟩), (⟨1, ⟨61000, 4⟩⟩, ⟨true, 0, 0⟩)] := by
    decide +kernel
  have hclock : ([⟨1, ⟨1000, 1⟩⟩, ⟨1, ⟨2000, 2⟩⟩, ⟨1, ⟨3000, 3⟩⟩,
      ⟨1, ⟨61000, 4⟩⟩] : List LimitedCall).Pairwise fun earlier later =>
        earlier.call.nowMs ≤ later.call.nowMs := by
    decide
  constructor
  · rw [hlog]
    decide
  · apply rejected_calls_leave_no_trace 60 none hclock
    · rw [hlog]
      exact List.Sublist.cons_cons _ (List.sublist_cons_self _ _)
    · rw [hlog]
      rfl

end NotifyHub.RateLimit
