import NotifyHub.CursorText
import NotifyHub.SlidingLog
import Mathlib.Tactic

/-!
# The rate limiter

`app.services.ratelimit` over the value of one Redis key.  The script is atomic;
all moments are milliseconds of one clock, which Redis shares, and Lua computes
with them exactly.
-/

namespace NotifyHub.RateLimit

open SlidingLog (Limited recent recent_append recent_eq_nil recent_map
  recent_recent within within_eq_recent)

/-- A sorted set of members with their scores, and the moment at which the key
expires. -/
structure WindowSet where
  entries : List (ℤ × Text)
  expiresAt : Option ℤ
  deriving DecidableEq

/-! ## Commands -/

/-- A key which has expired does not exist. -/
def existing (now : ℤ) (key : Option WindowSet) : Option WindowSet :=
  key.filter fun set => set.expiresAt.all fun expiresAt => now ≤ expiresAt

/-- A sorted set without members does not exist. -/
def nonempty (set : WindowSet) : Option WindowSet :=
  if set.entries = [] then none else some set

def members (key : Option WindowSet) : List (ℤ × Text) :=
  (key.map WindowSet.entries).getD []

/-- `ZREMRANGEBYSCORE key -inf max`. -/
def zremrangebyscore (maximum : ℤ) (key : Option WindowSet) :
    Option WindowSet :=
  key.bind fun set => nonempty
    { set with entries := set.entries.filter fun entry => maximum < entry.1 }

/-- The score which `ZRANGE key 0 0 WITHSCORES` returns. -/
def oldestScore (key : Option WindowSet) : Option ℤ :=
  ((members key).map Prod.fst).min?

/-- `ZADD key score member`. -/
def zadd (score : ℤ) (member : Text) (key : Option WindowSet) : WindowSet where
  entries := (members key).filter (fun entry => entry.2 ≠ member) ++
    [(score, member)]
  expiresAt := key.bind WindowSet.expiresAt

/-- `EXPIRE key seconds`. -/
def expire (now seconds : ℤ) (set : WindowSet) : WindowSet :=
  { set with expiresAt := some (now + seconds * 1000) }

/-- `_SLIDING_WINDOW_SCRIPT`, with its three numbers. -/
def slidingWindowScript
    (windowStartMs nowMs limit windowSeconds : ℤ) (member : Text)
    (key : Option WindowSet) : Option WindowSet × ℤ × ℤ × ℤ :=
  let key := zremrangebyscore windowStartMs (existing nowMs key)
  let count : ℤ := (members key).length
  if limit ≤ count then
    let retryAfter :=
      match oldestScore key with
      | some oldest =>
          max 1 ⌈((oldest + windowSeconds * 1000 - nowMs : ℤ) : ℚ) / 1000⌉
      | none => windowSeconds
    (key, 0, 0, retryAfter)
  else
    (some (expire nowMs windowSeconds (zadd nowMs member key)), 1,
      limit - count - 1, 0)

/-! ## Calls -/

structure RateLimitResult where
  allowed : Bool
  remaining : ℤ
  retryAfter : ℤ
  deriving DecidableEq

/-- A call, with what it reads from the clock and from `uuid4`. -/
structure Call where
  nowMs : ℤ
  uuid : Uuid
  deriving DecidableEq

def intText (value : ℤ) : Text :=
  (toString value).toList

def Call.member (call : Call) : Text :=
  intText call.nowMs ++ ':' :: uuidText call.uuid

/-- `sliding_window_hit`. -/
def slidingWindowHit
    (limit windowSeconds : ℤ) (call : Call) (key : Option WindowSet) :
    Option WindowSet × RateLimitResult :=
  if limit ≤ 0 then (key, ⟨true, -1, 0⟩)
  else
    let (key, allowed, remaining, retryAfter) :=
      slidingWindowScript (call.nowMs - windowSeconds * 1000) call.nowMs limit
        windowSeconds call.member key
    (key, ⟨allowed ≠ 0, remaining, retryAfter⟩)

/-- `IP_RATE_LIMIT_PER_MINUTE`. -/
def ipRateLimitPerMinute : ℤ := 300

theorem Call.member_injective {call other : Call}
    (hmember : call.member = other.member) : call.uuid = other.uuid := by
  have hlength : ∀ id : Uuid, (uuidText id).length = 36 := by
    intro id
    simp [uuidText, length_hexText]
  have hsame : (':' :: uuidText call.uuid).length =
      (':' :: uuidText other.uuid).length := by
    rw [List.length_cons, List.length_cons, hlength, hlength]
  have htext := (List.append_inj' hmember hsame).2
  have huuid := congrArg uuidOfText (List.cons.inj htext).2
  rw [uuidOfText_uuidText, uuidOfText_uuidText] at huuid
  exact Option.some.inj huuid

/-! ## What one call does -/

section Calls

variable {key : Option WindowSet} {limit windowSeconds now later : ℤ}
  {call : Call}

/-- The members which the window of a call still holds. -/
def seen (windowSeconds now : ℤ) (key : Option WindowSet) : List (ℤ × Text) :=
  recent Prod.fst (windowSeconds * 1000) now (members (existing now key))

theorem members_zremrangebyscore (maximum : ℤ) (key : Option WindowSet) :
    members (zremrangebyscore maximum key) =
      (members key).filter fun entry => maximum < entry.1 := by
  cases key with
  | none => rfl
  | some set =>
      simp only [zremrangebyscore, Option.bind_some, nonempty]
      split
      next hempty => exact hempty.symm
      next => rfl

theorem members_existing
    (hmembers : members (existing now key) ≠ []) : existing now key = key := by
  cases key with
  | none => rfl
  | some set =>
      rw [existing, Option.filter_some] at hmembers ⊢
      split
      next => rfl
      next hexpired => exact absurd (by rw [if_neg hexpired]; rfl) hmembers

/-- What the script removes was out of the window of every later call. -/
theorem seen_zremrangebyscore (hlater : now ≤ later) :
    seen windowSeconds later (zremrangebyscore (now - windowSeconds * 1000)
      (existing now key)) = seen windowSeconds later key := by
  cases key with
  | none => rfl
  | some set =>
      have hkeeps : recent Prod.fst (windowSeconds * 1000) later
          (set.entries.filter fun entry =>
            now - windowSeconds * 1000 < entry.1) =
          recent Prod.fst (windowSeconds * 1000) later set.entries :=
        recent_recent hlater
      by_cases hnow : set.expiresAt.all fun expiresAt => now ≤ expiresAt
      · simp only [existing, Option.filter_some, if_pos hnow, zremrangebyscore,
          Option.bind_some, nonempty, seen]
        by_cases hempty : set.entries.filter (fun entry =>
            now - windowSeconds * 1000 < entry.1) = []
        · rw [hempty] at hkeeps
          rw [if_pos hempty]
          split
          · exact hkeeps
          · rfl
        · rw [if_neg hempty, Option.filter_some]
          split
          · exact hkeeps
          · rfl
      · have hexpired :
            ¬(set.expiresAt.all fun expiresAt => later ≤ expiresAt) = true := by
          intro hexists
          apply hnow
          cases hexpires : set.expiresAt with
          | none => rfl
          | some expiresAt =>
              rw [hexpires] at hexists
              simp only [Option.all_some, decide_eq_true_eq] at hexists ⊢
              exact hlater.trans hexists
        simp only [seen, existing, Option.filter_some, if_neg hnow,
          if_neg hexpired]
        rfl

/-- A call which finds the window full. -/
theorem slidingWindowHit_full
    (hlimit : 0 < limit)
    (hfull : limit ≤ (seen windowSeconds call.nowMs key).length) :
    ∃ retryAfter,
      slidingWindowHit limit windowSeconds call key =
        (zremrangebyscore (call.nowMs - windowSeconds * 1000)
          (existing call.nowMs key), ⟨false, 0, retryAfter⟩) ∧
      ∃ oldest ∈ seen windowSeconds call.nowMs key,
        oldest.1 ≤
          call.nowMs + retryAfter * 1000 - windowSeconds * 1000 := by
  have hmembers := members_zremrangebyscore
    (call.nowMs - windowSeconds * 1000) (existing call.nowMs key)
  change _ = seen windowSeconds call.nowMs key at hmembers
  have hsome : (seen windowSeconds call.nowMs key).map Prod.fst ≠ [] := by
    intro hnone
    rw [List.map_eq_nil_iff] at hnone
    rw [hnone] at hfull
    exact absurd hfull (Int.not_le.mpr hlimit)
  obtain ⟨oldest, holdest⟩ : ∃ oldest,
      ((seen windowSeconds call.nowMs key).map Prod.fst).min? = some oldest := by
    rw [← Option.isSome_iff_exists, List.isSome_min?_iff]
    exact hsome
  have hmem := List.min?_mem holdest
  obtain ⟨entry, hentry, rfl⟩ := List.mem_map.mp hmem
  refine ⟨max 1 ⌈((entry.1 + windowSeconds * 1000 - call.nowMs : ℤ) : ℚ) / 1000⌉,
    ?_, entry, hentry, ?_⟩
  · rw [slidingWindowHit, if_neg (Int.not_le.mpr hlimit), slidingWindowScript]
    simp only [hmembers, if_pos hfull, oldestScore, holdest]
    rfl
  · have hceil : ((entry.1 + windowSeconds * 1000 - call.nowMs : ℤ) : ℚ) / 1000 ≤
        (⌈((entry.1 + windowSeconds * 1000 - call.nowMs : ℤ) : ℚ) / 1000⌉ : ℚ) :=
      Int.le_ceil _
    rw [div_le_iff₀ (by norm_num)] at hceil
    have hwait : entry.1 + windowSeconds * 1000 - call.nowMs ≤
        ⌈((entry.1 + windowSeconds * 1000 - call.nowMs : ℤ) : ℚ) / 1000⌉ * 1000 := by
      exact_mod_cast hceil
    omega

/-- A call which finds room in the window. -/
theorem slidingWindowHit_room
    (hlimit : 0 < limit)
    (hroom : (seen windowSeconds call.nowMs key).length < limit)
    (hfresh : ∀ entry ∈ members key, entry.2 ≠ call.member) :
    slidingWindowHit limit windowSeconds call key =
      (some ⟨seen windowSeconds call.nowMs key ++ [(call.nowMs, call.member)],
          some (call.nowMs + windowSeconds * 1000)⟩,
        ⟨true, limit - (seen windowSeconds call.nowMs key).length - 1, 0⟩) := by
  have hmembers := members_zremrangebyscore
    (call.nowMs - windowSeconds * 1000) (existing call.nowMs key)
  change _ = seen windowSeconds call.nowMs key at hmembers
  have hkept : (seen windowSeconds call.nowMs key).filter
      (fun entry => entry.2 ≠ call.member) =
        seen windowSeconds call.nowMs key := by
    rw [List.filter_eq_self]
    intro entry hentry
    have hmember : entry ∈ members (existing call.nowMs key) :=
      List.mem_of_mem_filter hentry
    rw [members_existing (List.ne_nil_of_mem hmember)] at hmember
    simpa using hfresh entry hmember
  rw [slidingWindowHit, if_neg (Int.not_le.mpr hlimit), slidingWindowScript]
  simp only [hmembers, if_neg (Int.not_le.mpr hroom), expire, zadd, hkept]
  rfl

end Calls

/-! ## Sequences of calls -/

abbrev Answered := Call × RateLimitResult

def Answered.moment (answered : Answered) : ℤ := answered.1.nowMs

def admitted (log : List Answered) : List Answered :=
  log.filter fun answered => answered.2.allowed

/-- One more call on the key, whose value is the first component. -/
def answer
    (limit windowSeconds : ℤ) (state : Option WindowSet × List Answered)
    (call : Call) : Option WindowSet × List Answered :=
  let (key, result) := slidingWindowHit limit windowSeconds call state.1
  (key, state.2 ++ [(call, result)])

/-- The calls on a new key with their answers. -/
def answers (limit windowSeconds : ℤ) (calls : List Call) :
    Option WindowSet × List Answered :=
  calls.foldl (answer limit windowSeconds) (none, [])

/-- The key holds what every window from now on sees of the admitted calls. -/
structure Sound
    (limit windowSeconds : ℤ) (state : Option WindowSet × List Answered) :
    Prop where
  holds : ∀ now, (∀ answered ∈ state.2, answered.moment ≤ now) →
    seen windowSeconds now state.1 =
      (recent Answered.moment (windowSeconds * 1000) now
        (admitted state.2)).map fun answered =>
          (answered.moment, answered.1.member)
  limited : Limited Answered.moment (windowSeconds * 1000) limit.toNat
    (admitted state.2)
  known : ∀ entry ∈ members state.1,
    ∃ answered ∈ state.2, answered.1.member = entry.2

section Sequences

variable {limit windowSeconds : ℤ} {state : Option WindowSet × List Answered}
  {call : Call} {calls : List Call}

theorem answers_append (calls : List Call) (call : Call) :
    answers limit windowSeconds (calls ++ [call]) =
      answer limit windowSeconds (answers limit windowSeconds calls) call :=
  List.foldl_concat ..

theorem map_answers (calls : List Call) :
    (answers limit windowSeconds calls).2.map Prod.fst = calls := by
  induction calls using List.reverseRecOn with
  | nil => rfl
  | append_singleton calls call ih =>
      rw [answers_append, answer, List.map_append, ih]
      rfl

theorem admitted_append (log : List Answered) (answered : Answered) :
    admitted (log ++ [answered]) =
      admitted log ++ if answered.2.allowed then [answered] else [] := by
  rw [admitted, List.filter_append]
  congr 1
  cases hallowed : answered.2.allowed with
  | true => simp [hallowed]
  | false => simp [hallowed]

theorem sound_nil : Sound limit windowSeconds (none, []) where
  holds _ _ := rfl
  limited := SlidingLog.limited_nil
  known := nofun

/-- What a window still sees of the admitted calls. -/
def inWindow (windowSeconds now : ℤ) (log : List Answered) : List Answered :=
  recent Answered.moment (windowSeconds * 1000) now (admitted log)

/-- A call is refused or admitted as the window of the call is full or not. -/
theorem Sound.answer_cases
    (hsound : Sound limit windowSeconds state) (hlimit : 0 < limit)
    (hclock : ∀ answered ∈ state.2, answered.moment ≤ call.nowMs)
    (hfresh : ∀ answered ∈ state.2, answered.1.uuid ≠ call.uuid) :
    (∃ retryAfter,
      limit ≤ (inWindow windowSeconds call.nowMs state.2).length ∧
      answer limit windowSeconds state call =
        (zremrangebyscore (call.nowMs - windowSeconds * 1000)
          (existing call.nowMs state.1),
          state.2 ++ [(call, ⟨false, 0, retryAfter⟩)]) ∧
      ∃ oldest ∈ inWindow windowSeconds call.nowMs state.2,
        oldest.moment ≤
          call.nowMs + retryAfter * 1000 - windowSeconds * 1000) ∨
    ((inWindow windowSeconds call.nowMs state.2).length < limit ∧
      answer limit windowSeconds state call =
        (some ⟨seen windowSeconds call.nowMs state.1 ++
            [(call.nowMs, call.member)],
          some (call.nowMs + windowSeconds * 1000)⟩,
        state.2 ++ [(call, ⟨true, limit -
          (inWindow windowSeconds call.nowMs state.2).length - 1, 0⟩)])) := by
  have hseen := hsound.holds call.nowMs hclock
  have hlength : (seen windowSeconds call.nowMs state.1).length =
      (inWindow windowSeconds call.nowMs state.2).length := by
    rw [hseen, List.length_map]
    rfl
  rcases Int.lt_or_le
    (inWindow windowSeconds call.nowMs state.2).length limit with hroom | hfull
  · right
    have hnew : ∀ entry ∈ members state.1, entry.2 ≠ call.member := by
      intro entry hentry heq
      obtain ⟨answered, hmem, hmember⟩ := hsound.known entry hentry
      exact hfresh answered hmem (Call.member_injective (hmember.trans heq))
    rw [← hlength] at hroom ⊢
    refine ⟨hroom, ?_⟩
    rw [answer, slidingWindowHit_room hlimit hroom hnew]
  · left
    rw [← hlength] at hfull
    obtain ⟨retryAfter, hhit, oldest, holdest, hwait⟩ :=
      slidingWindowHit_full hlimit hfull
    rw [hlength] at hfull
    rw [hseen, List.mem_map] at holdest
    obtain ⟨answered, hanswered, rfl⟩ := holdest
    refine ⟨retryAfter, hfull, ?_, answered, hanswered, hwait⟩
    rw [answer, hhit]

/-- The key and the log after a call. -/
theorem Sound.next
    (hsound : Sound limit windowSeconds state) (hlimit : 0 < limit)
    (hclock : ∀ answered ∈ state.2, answered.moment ≤ call.nowMs)
    (hfresh : ∀ answered ∈ state.2, answered.1.uuid ≠ call.uuid) :
    Sound limit windowSeconds (answer limit windowSeconds state call) := by
  have hpast : ∀ answered ∈ admitted state.2, answered.moment ≤ call.nowMs :=
    fun answered hmem => hclock answered (List.mem_of_mem_filter hmem)
  rcases hsound.answer_cases hlimit hclock hfresh with
    ⟨retryAfter, hfull, hanswer, -⟩ | ⟨hroom, hanswer⟩
  · rw [hanswer]
    have hadmitted : admitted (state.2 ++
        [(call, (⟨false, 0, retryAfter⟩ : RateLimitResult))]) =
          admitted state.2 := by
      rw [admitted_append]
      exact List.append_nil _
    constructor
    · intro now hnow
      rw [List.forall_mem_append] at hnow
      have hlater : call.nowMs ≤ now := hnow.2 _ (List.mem_singleton_self _)
      rw [seen_zremrangebyscore hlater, hadmitted]
      exact hsound.holds now hnow.1
    · rw [hadmitted]
      exact hsound.limited
    · intro entry hentry
      rw [members_zremrangebyscore] at hentry
      have hmember := List.mem_of_mem_filter hentry
      rw [members_existing (List.ne_nil_of_mem hmember)] at hmember
      obtain ⟨answered, hmem, heq⟩ := hsound.known entry hmember
      exact ⟨answered, List.mem_append_left _ hmem, heq⟩
  · rw [hanswer]
    have hadmitted : ∀ remaining, admitted (state.2 ++
        [(call, (⟨true, remaining, 0⟩ : RateLimitResult))]) =
          admitted state.2 ++ [(call, ⟨true, remaining, 0⟩)] :=
      fun remaining => admitted_append _ _
    have hseen := hsound.holds call.nowMs hclock
    constructor
    · intro now hnow
      rw [List.forall_mem_append] at hnow
      have hlater : call.nowMs ≤ now := hnow.2 _ (List.mem_singleton_self _)
      rw [hadmitted, recent_append, List.map_append, seen, existing,
        Option.filter_some]
      split
      next =>
        rw [members, Option.map_some, Option.getD_some, recent_append, hseen,
          recent_map, recent_recent hlater]
        congr 1
        exact recent_map (fun answered : Answered =>
          (answered.moment, answered.1.member)) [(call, ⟨true, limit -
            (inWindow windowSeconds call.nowMs state.2).length - 1, 0⟩)]
      next hexpired =>
        have hgone : call.nowMs ≤ now - windowSeconds * 1000 := by
          simp only [Option.all_some, decide_eq_true_eq] at hexpired
          omega
        have hall : ∀ answered ∈ admitted state.2 ++ [(call,
            (⟨true, limit - (inWindow windowSeconds call.nowMs state.2).length -
              1, 0⟩ : RateLimitResult))],
            Answered.moment answered ≤ now - windowSeconds * 1000 := by
          rw [List.forall_mem_append, List.forall_mem_singleton]
          exact ⟨fun answered hmem => (hpast answered hmem).trans hgone, hgone⟩
        rw [← List.map_append, ← recent_append, recent_eq_nil hall]
        rfl
    · rw [hadmitted]
      apply SlidingLog.Limited.append hsound.limited
      · exact hpast
      have htoNat : ((limit.toNat : ℕ) : ℤ) = limit :=
        Int.toNat_of_nonneg hlimit.le
      exact_mod_cast htoNat ▸ hroom
    · intro entry hentry
      change entry ∈ seen windowSeconds call.nowMs state.1 ++
        [(call.nowMs, call.member)] at hentry
      rcases List.mem_append.mp hentry with hold | hnew
      · rw [hseen, List.mem_map] at hold
        obtain ⟨answered, hanswered, rfl⟩ := hold
        have hmem : answered ∈ state.2 :=
          List.mem_of_mem_filter (List.mem_of_mem_filter hanswered)
        exact ⟨answered, List.mem_append_left _ hmem, rfl⟩
      · obtain rfl := List.mem_singleton.mp hnew
        exact ⟨_, List.mem_append_right _ (List.mem_singleton_self _), rfl⟩

/-- A clock which does not go back, and identifiers which differ. -/
structure Ordered (calls : List Call) : Prop where
  clock : calls.Pairwise fun earlier later => earlier.nowMs ≤ later.nowMs
  uuids : (calls.map Call.uuid).Nodup

theorem Ordered.of_append
    {others : List Call} (hordered : Ordered (calls ++ others)) :
    Ordered calls where
  clock := (List.pairwise_append.mp hordered.clock).1
  uuids := by
    have huuids := hordered.uuids
    rw [List.map_append] at huuids
    exact (List.nodup_append.mp huuids).1

theorem Ordered.init
    (hordered : Ordered (calls ++ [call])) :
    (∀ earlier ∈ calls, earlier.nowMs ≤ call.nowMs) ∧
      ∀ earlier ∈ calls, earlier.uuid ≠ call.uuid := by
  obtain ⟨hclock, huuids⟩ := hordered
  rw [List.pairwise_append] at hclock
  rw [List.map_append, List.nodup_append] at huuids
  constructor
  · exact fun earlier hmem =>
      hclock.2.2 earlier hmem call (List.mem_singleton_self call)
  · exact fun earlier hmem => huuids.2.2 _ (List.mem_map_of_mem hmem) _
      (List.mem_singleton_self call.uuid)

theorem forall_answered {property : Call → Prop}
    (hcalls : ∀ call ∈ calls, property call) :
    ∀ answered ∈ (answers limit windowSeconds calls).2,
      property answered.1 := by
  intro answered hmem
  have hcall : answered.1 ∈ (answers limit windowSeconds calls).2.map Prod.fst :=
    List.mem_map_of_mem hmem
  rw [map_answers] at hcall
  exact hcalls answered.1 hcall

theorem Sound.of_ordered (hordered : Ordered calls) (hlimit : 0 < limit) :
    Sound limit windowSeconds (answers limit windowSeconds calls) := by
  induction calls using List.reverseRecOn with
  | nil => exact sound_nil
  | append_singleton calls call ih =>
      obtain ⟨hclock, hfresh⟩ := hordered.init
      rw [answers_append]
      exact (ih hordered.of_append).next hlimit (forall_answered hclock)
        (forall_answered hfresh)

/-- The beginning of a log is the log of the calls in it. -/
theorem answers_before
    {before after : List Answered}
    (hlog : (answers limit windowSeconds calls).2 = before ++ after) :
    (answers limit windowSeconds (before.map Prod.fst)).2 = before := by
  induction after using List.reverseRecOn generalizing calls with
  | nil =>
      rw [List.append_nil] at hlog
      rw [← hlog, map_answers]
  | append_singleton after last ih =>
      rcases List.eq_nil_or_concat' calls with rfl | ⟨earlier, call, rfl⟩
      · exact absurd hlog.symm (by simp [answers])
      · rw [answers_append, answer, ← List.append_assoc] at hlog
        exact ih (List.append_inj' hlog rfl).1

section Logs

variable {before after : List Answered} {last : Answered}

theorem Ordered.of_log
    (hordered : Ordered calls)
    (hlog : (answers limit windowSeconds calls).2 = before ++ last :: after) :
    Ordered (before.map Prod.fst ++ [last.1]) := by
  have hcalls := congrArg (List.map Prod.fst) hlog
  rw [map_answers, List.map_append, List.map_cons, ← List.singleton_append,
    ← List.append_assoc] at hcalls
  rw [hcalls] at hordered
  exact hordered.of_append

/-- What an answer of a log says, in the log before it. -/
theorem answer_of_log
    (hordered : Ordered calls) (hlimit : 0 < limit)
    (hlog : (answers limit windowSeconds calls).2 = before ++ last :: after) :
    (∃ retryAfter,
      limit ≤ (inWindow windowSeconds last.moment before).length ∧
      last.2 = ⟨false, 0, retryAfter⟩ ∧
      ∃ oldest ∈ inWindow windowSeconds last.moment before,
        oldest.moment ≤
          last.moment + retryAfter * 1000 - windowSeconds * 1000) ∨
    ((inWindow windowSeconds last.moment before).length < limit ∧
      last.2 = ⟨true, limit -
        (inWindow windowSeconds last.moment before).length - 1, 0⟩) := by
  have hbefore := answers_before hlog
  have hthis : (answers limit windowSeconds
      (before.map Prod.fst ++ [last.1])).2 = before ++ [last] := by
    rw [← List.map_singleton, ← List.map_append]
    apply answers_before
    rw [hlog, List.append_assoc, List.singleton_append]
  have hinit := hordered.of_log hlog
  obtain ⟨hclock, hfresh⟩ := hinit.init
  have hsound : Sound limit windowSeconds
      (answers limit windowSeconds (before.map Prod.fst)) :=
    .of_ordered hinit.of_append hlimit
  have hcases := hsound.answer_cases hlimit (forall_answered hclock)
    (forall_answered hfresh)
  rw [← answers_append, hbefore] at hcases
  rcases hcases with ⟨retryAfter, hfull, hanswer, hwait⟩ | ⟨hroom, hanswer⟩
  · left
    rw [hanswer] at hthis
    have hlast := List.singleton_inj.mp (List.append_cancel_left hthis)
    exact ⟨retryAfter, hfull, (congrArg Prod.snd hlast).symm, hwait⟩
  · right
    rw [hanswer] at hthis
    have hlast := List.singleton_inj.mp (List.append_cancel_left hthis)
    exact ⟨hroom, (congrArg Prod.snd hlast).symm⟩

/-- The calls before one in a log: none is later, and the window has never
more than the limit. -/
theorem before_of_log
    (hordered : Ordered calls) (hlimit : 0 < limit)
    (hlog : (answers limit windowSeconds calls).2 = before ++ last :: after) :
    (∀ answered ∈ admitted before, answered.moment ≤ last.moment) ∧
      (inWindow windowSeconds last.moment before).length ≤ limit := by
  have hinit := hordered.of_log hlog
  have hclock : ∀ answered ∈ admitted before,
      answered.moment ≤ last.moment := by
    intro answered hmem
    exact hinit.init.1 _ (List.mem_map_of_mem (List.mem_of_mem_filter hmem))
  have hsound : Sound limit windowSeconds
      (answers limit windowSeconds (before.map Prod.fst)) :=
    .of_ordered hinit.of_append hlimit
  have hlimited := hsound.limited last.moment
  rw [answers_before hlog, within_eq_recent hclock] at hlimited
  refine ⟨hclock, ?_⟩
  have htoNat : ((limit.toNat : ℕ) : ℤ) = limit :=
    Int.toNat_of_nonneg hlimit.le
  rw [← htoNat]
  exact_mod_cast hlimited

theorem remaining_of_log
    (hordered : Ordered calls) (hlimit : 0 < limit)
    (hwindow : 0 < windowSeconds)
    (hlog : (answers limit windowSeconds calls).2 = before ++ last :: after) :
    last.2.remaining = limit - (within Answered.moment (windowSeconds * 1000)
      last.moment (admitted (before ++ [last]))).length := by
  obtain ⟨hclock, hlimited⟩ := before_of_log hordered hlimit hlog
  rw [admitted_append]
  rcases answer_of_log hordered hlimit hlog with
    ⟨retryAfter, hfull, hlast, -⟩ | ⟨-, hlast⟩
  · have hnone : (if last.2.allowed then [last] else []) = [] := by
      rw [hlast]
      rfl
    rw [hnone, List.append_nil, within_eq_recent hclock, hlast]
    change 0 = limit - (inWindow windowSeconds last.moment before).length
    omega
  · have hone : (if last.2.allowed then [last] else []) = [last] := by
      rw [hlast]
      rfl
    have hpast : ∀ answered ∈ admitted before ++ [last],
        answered.moment ≤ last.moment := by
      rw [List.forall_mem_append, List.forall_mem_singleton]
      exact ⟨hclock, le_rfl⟩
    have hself : recent Answered.moment (windowSeconds * 1000) last.moment
        [last] = [last] := by
      have hinside : last.moment - windowSeconds * 1000 < last.moment := by
        omega
      simp [recent, hwindow]
    rw [hone, within_eq_recent hpast, recent_append, hself, List.length_append,
      hlast]
    change limit - (inWindow windowSeconds last.moment before).length - 1 =
      limit - ((inWindow windowSeconds last.moment before).length + 1 : ℕ)
    omega

/-- A refused caller who waits finds room, if nobody else is admitted. -/
theorem allowed_of_waiting
    (hordered : Ordered calls) (hlimit : 0 < limit)
    {refused next : Answered} {between : List Answered}
    (hlog : (answers limit windowSeconds calls).2 =
      before ++ refused :: between ++ next :: after)
    (hrefused : refused.2.allowed = false) (hbetween : admitted between = [])
    (hwaits : refused.moment + refused.2.retryAfter * 1000 ≤ next.moment) :
    next.2.allowed = true := by
  have hfirst : (answers limit windowSeconds calls).2 =
      before ++ refused :: (between ++ next :: after) := by
    rw [hlog, List.append_assoc, List.cons_append]
  have hlimited := (before_of_log hordered hlimit hfirst).2
  have hsame : admitted (before ++ refused :: between) = admitted before := by
    have hnone : admitted (refused :: between) = [] := by
      rw [admitted, List.filter_cons_of_neg (by simp [hrefused])]
      exact hbetween
    rw [admitted, List.filter_append]
    change admitted before ++ admitted (refused :: between) = _
    rw [hnone, List.append_nil]
  rcases answer_of_log hordered hlimit hfirst with
    ⟨retryAfter, -, hanswer, oldest, holdest, hgone⟩ | ⟨-, hanswer⟩
  · rw [hanswer] at hwaits
    change refused.moment + retryAfter * 1000 ≤ next.moment at hwaits
    have hlater : refused.moment ≤ next.moment := by
      apply (hordered.of_log hlog).init.1
      simp
    have hfewer : (inWindow windowSeconds next.moment
        (before ++ refused :: between)).length <
        (inWindow windowSeconds refused.moment before).length := by
      rw [inWindow, hsame, ← recent_recent hlater]
      apply List.length_filter_lt_length_iff_exists.mpr
      refine ⟨oldest, holdest, ?_⟩
      simp only [decide_eq_true_eq]
      omega
    rcases answer_of_log hordered hlimit hlog with
      ⟨-, hfull, -⟩ | ⟨-, hnext⟩
    · omega
    · rw [hnext]
  · rw [hanswer] at hrefused
    cases hrefused

end Logs

end Sequences

/-- The window of the limiter, its count and its waiting time. -/
theorem sliding_window_exact
    {limit windowSeconds : ℤ} (hlimit : 0 < limit) (hwindow : 0 < windowSeconds)
    {calls : List Call} (hordered : Ordered calls) :
    let log := (answers limit windowSeconds calls).2
    (∀ now, (within Answered.moment (windowSeconds * 1000) now
      (admitted log)).length ≤ limit) ∧
    (∀ before last after, log = before ++ last :: after →
      last.2.remaining = limit - (within Answered.moment (windowSeconds * 1000)
        last.moment (admitted (before ++ [last]))).length) ∧
    ∀ before refused between next after,
      log = before ++ refused :: between ++ next :: after →
      refused.2.allowed = false → admitted between = [] →
      refused.moment + refused.2.retryAfter * 1000 ≤ next.moment →
      next.2.allowed = true := by
  intro log
  refine ⟨?_, ?_, ?_⟩
  · intro now
    have hsound : Sound limit windowSeconds (answers limit windowSeconds calls) :=
      .of_ordered hordered hlimit
    have htoNat : ((limit.toNat : ℕ) : ℤ) = limit :=
      Int.toNat_of_nonneg hlimit.le
    rw [← htoNat]
    exact_mod_cast hsound.limited now
  · exact fun before last after hlog =>
      remaining_of_log hordered hlimit hwindow hlog
  · exact fun before refused between next after hlog hrefused hbetween hwaits =>
      allowed_of_waiting hordered hlimit hlog hrefused hbetween hwaits

/-- Two calls fill a window; the third one waits and finds room. -/
theorem sliding_window_exact_wait :
    (answers 2 60 [⟨1000, 1⟩, ⟨2500, 2⟩, ⟨3000, 3⟩, ⟨61000, 4⟩]).2.map Prod.snd =
      [⟨true, 1, 0⟩, ⟨true, 0, 0⟩, ⟨false, 0, 58⟩, ⟨true, 0, 0⟩] ∧
    ∀ now, (within Answered.moment (60 * 1000) now (admitted
      (answers 2 60 [⟨1000, 1⟩, ⟨2500, 2⟩, ⟨3000, 3⟩, ⟨61000, 4⟩]).2)).length ≤
        (2 : ℤ) := by
  have hordered : Ordered [⟨1000, 1⟩, ⟨2500, 2⟩, ⟨3000, 3⟩, ⟨61000, 4⟩] :=
    ⟨by decide, by decide⟩
  refine ⟨by decide +kernel, ?_⟩
  exact (sliding_window_exact (by decide) (by decide) hordered).1

end NotifyHub.RateLimit
