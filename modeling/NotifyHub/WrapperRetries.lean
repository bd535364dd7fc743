import NotifyHub.WrapperBody
import Mathlib.Tactic

/-!
# The retries of the wrapper

The loop which sends the end of a run, in the arithmetic of the shell: the delay
is a shift by the number of the attempt, cut to thirty seconds afterwards, and
the count of the bits is taken modulo 64.  The delays are right for sixty-two
attempts.
-/

namespace NotifyHub.Wrapper

/-! ## The loop -/

/-- A value of `--retries` which the script accepts. -/
structure Retries where
  text : Text
  isUint : Wrapper.isUint text = true

/-- The number of retries which the text asks for. -/
def Retries.value (retries : Retries) : ℕ :=
  Nat.ofDigitChars 10 retries.text 0

/-- The end of a call of curl: its exit code and the last line of its output. -/
structure Reply where
  curlRc : ℕ
  lastLine : Text

def Reply.httpCode (reply : Reply) : Text :=
  if reply.lastLine.length = 3 ∧ reply.lastLine.all Char.isDigit = true then
    reply.lastLine
  else "000".toList

def Reply.sent (reply : Reply) : Bool :=
  reply.curlRc = 0 && reply.httpCode.head? = some '2'

/-- `000|5??|429|409`. -/
def Reply.retryable (reply : Reply) : Bool :=
  reply.httpCode = "000".toList || reply.httpCode.head? = some '5' ||
    reply.httpCode = "429".toList || reply.httpCode = "409".toList

/-- A reply after which the loop ends. -/
def Reply.last (reply : Reply) : Bool :=
  reply.sent || !reply.retryable

/-- `[ "$attempt" -gt "$RETRIES" ]`, which fails for a number of more than 64
bits. -/
def Retries.used (retries : Retries) (attempt : ℤ) : Bool :=
  retries.value < 2 ^ 63 && (retries.value : ℤ) < attempt

/-- `$((1 << attempt))`, at most 30. -/
def delay (attempt : ℤ) : ℤ :=
  min (wrap64 (2 ^ (attempt % 64).toNat)) 30

structure SendState where
  attempt : ℤ
  requests : ℕ
  delays : List ℤ
  ended : Bool
  deriving DecidableEq

/-- A round of the loop. -/
def sendRound (retries : Retries) (reply : Reply) (state : SendState) :
    SendState :=
  if state.ended then state
  else
    let attempt := wrap64 (state.attempt + 1)
    let requests := state.requests + 1
    if reply.last || retries.used attempt then
      ⟨attempt, requests, state.delays, true⟩
    else ⟨attempt, requests, state.delays ++ [delay attempt], false⟩

/-- The state after some rounds, with the replies which the calls get. -/
def sendRun (retries : Retries) (replies : ℕ → Reply) : ℕ → SendState
  | 0 => ⟨0, 0, [], false⟩
  | round + 1 => sendRound retries (replies round) (sendRun retries replies round)

/-! ## The rounds -/

section Rounds

variable {retries : Retries} {replies : ℕ → Reply} {round : ℕ}

/-- The delays of the first attempts. -/
def firstDelays (count : ℕ) : List ℤ :=
  (List.range count).map fun index => delay (wrap64 (index + 1 : ℕ))

/-- A round which is followed by another one. -/
def GoesOn (retries : Retries) (replies : ℕ → Reply) (round : ℕ) : Prop :=
  (replies round).last = false ∧ retries.used (wrap64 (round + 1 : ℕ)) = false

theorem wrap64_of_lt {count : ℕ} (hlt : count < 2 ^ 63) : wrap64 count = count := by
  unfold wrap64
  omega

theorem wrap64_succ (count : ℕ) :
    wrap64 (wrap64 count + 1) = wrap64 (count + 1 : ℕ) := by
  unfold wrap64
  push_cast
  omega

theorem firstDelays_succ (count : ℕ) :
    firstDelays (count + 1) =
      firstDelays count ++ [delay (wrap64 (count + 1 : ℕ))] := by
  rw [firstDelays, List.range_succ, List.map_append]
  rfl

/-- A run has made its delays in the rounds which go on, and one request more
when it has ended. -/
structure RunShape
    (retries : Retries) (replies : ℕ → Reply) (state : SendState) (waits : ℕ) :
    Prop where
  attempt : state.attempt = wrap64 state.requests
  requests : state.requests = waits + if state.ended then 1 else 0
  delays : state.delays = firstDelays waits
  goesOn : ∀ round < waits, GoesOn retries replies round

theorem sendRun_shape (retries : Retries) (replies : ℕ → Reply) (round : ℕ) :
    ∃ waits, RunShape retries replies (sendRun retries replies round) waits ∧
      ((sendRun retries replies round).ended = false → waits = round) := by
  induction round with
  | zero =>
      have hzero := wrap64_of_lt (show 0 < 2 ^ 63 by decide)
      exact ⟨0, ⟨hzero.symm, rfl, rfl, fun _ hlt => by omega⟩, fun _ => rfl⟩
  | succ round ih =>
      obtain ⟨waits, hshape, hround⟩ := ih
      rw [sendRun]
      generalize sendRun retries replies round = state at *
      unfold sendRound
      cases hended : state.ended with
      | true =>
          rw [if_pos rfl]
          refine ⟨waits, hshape, fun hopen => ?_⟩
          rw [hended] at hopen
          cases hopen
      | false =>
          rw [if_neg (by decide)]
          have hwaits := hround hended
          have hrequests : state.requests = waits := by
            have hcount := hshape.requests
            rwa [hended] at hcount
          have hattempt : wrap64 (state.attempt + 1) = wrap64 (waits + 1 : ℕ) := by
            rw [hshape.attempt, hrequests, wrap64_succ]
          dsimp only
          rw [hattempt, hrequests]
          split
          · exact ⟨waits, ⟨rfl, rfl, hshape.delays, hshape.goesOn⟩,
              fun hopen => by cases hopen⟩
          next hopen =>
            rw [Bool.or_eq_true, not_or, Bool.not_eq_true, Bool.not_eq_true,
              ← hwaits] at hopen
            refine ⟨waits + 1, ⟨rfl, rfl, ?_, ?_⟩, fun _ => by rw [hwaits]⟩
            · rw [firstDelays_succ, hshape.delays]
            · intro earlier hearlier
              rcases Nat.lt_succ_iff_lt_or_eq.mp hearlier with hlt | rfl
              · exact hshape.goesOn earlier hlt
              · exact hopen

/-- While the rounds go on the run does not end. -/
theorem sendRun_of_goesOn (hgoes : ∀ earlier < round, GoesOn retries replies earlier) :
    sendRun retries replies round =
      ⟨wrap64 round, round, firstDelays round, false⟩ := by
  induction round with
  | zero =>
      have hzero := wrap64_of_lt (show 0 < 2 ^ 63 by decide)
      rw [hzero]
      rfl
  | succ round ih =>
      have hlast := hgoes round (Nat.lt_succ_self round)
      rw [sendRun, ih fun earlier hlt => hgoes earlier (hlt.trans (Nat.lt_succ_self _))]
      rw [sendRound, if_neg Bool.false_ne_true]
      dsimp only
      rw [wrap64_succ, hlast.1, hlast.2, firstDelays_succ]
      rfl

end Rounds

/-! ## The delays -/

/-- What the comment of the loop promises. -/
structure DelaysRight (retries : Retries) (replies : ℕ → Reply) : Prop where
  bounds : ∀ round, ∀ seconds ∈ (sendRun retries replies round).delays,
    2 ≤ seconds ∧ seconds ≤ 30
  ascending : ∀ round,
    (sendRun retries replies round).delays.Pairwise (· ≤ ·)
  requests : ∀ round,
    (sendRun retries replies round).requests ≤ retries.value + 1

section Delays

variable {retries : Retries} {replies : ℕ → Reply}

theorem firstDelays_bounds {count : ℕ} (hcount : count ≤ 62) :
    ∀ seconds ∈ firstDelays count, 2 ≤ seconds ∧ seconds ≤ 30 := by
  intro seconds hmem
  obtain ⟨index, hindex, rfl⟩ := List.mem_map.mp hmem
  have hbounds : ∀ index < 62, 2 ≤ delay (wrap64 (index + 1 : ℕ)) ∧
      delay (wrap64 (index + 1 : ℕ)) ≤ 30 := by
    decide +kernel
  exact hbounds index ((List.mem_range.mp hindex).trans_le hcount)

theorem firstDelays_ascending {count : ℕ} (hcount : count ≤ 62) :
    (firstDelays count).Pairwise (· ≤ ·) := by
  have hpairs : ∀ second < 62, ∀ first < second,
      delay (wrap64 (first + 1 : ℕ)) ≤ delay (wrap64 (second + 1 : ℕ)) := by
    decide +kernel
  refine List.pairwise_map.mpr ?_
  refine List.pairwise_lt_range.imp_of_mem ?_
  intro first second _ hsecond hlt
  exact hpairs second ((List.mem_range.mp hsecond).trans_le hcount) first hlt

/-- The shell counts no more waits than the retries. -/
theorem waits_le_value
    {waits : ℕ} (hvalue : retries.value ≤ 62)
    (hgoes : ∀ round < waits, GoesOn retries replies round) :
    waits ≤ retries.value := by
  by_contra hmore
  have hused := (hgoes retries.value (lt_of_not_ge hmore)).2
  rw [wrap64_of_lt (by omega), Retries.used] at hused
  simp only [Bool.and_eq_false_iff, decide_eq_false_iff_not] at hused
  omega

theorem delaysRight_of_waits
    (hwaits : ∀ waits, (∀ round < waits, GoesOn retries replies round) →
      waits ≤ 62 ∧ waits ≤ retries.value) :
    DelaysRight retries replies := by
  have hrun : ∀ round, ∃ waits,
      RunShape retries replies (sendRun retries replies round) waits ∧
        waits ≤ 62 ∧ waits ≤ retries.value := by
    intro round
    obtain ⟨waits, hshape, -⟩ := sendRun_shape retries replies round
    exact ⟨waits, hshape, hwaits waits hshape.goesOn⟩
  constructor
  · intro round
    obtain ⟨waits, hshape, hfew, -⟩ := hrun round
    rw [hshape.delays]
    exact firstDelays_bounds hfew
  · intro round
    obtain ⟨waits, hshape, hfew, -⟩ := hrun round
    rw [hshape.delays]
    exact firstDelays_ascending hfew
  · intro round
    obtain ⟨waits, hshape, -, hvalue⟩ := hrun round
    rw [hshape.requests]
    split
    · omega
    · omega

theorem not_delaysRight_of_goesOn
    (hgoes : ∀ round < 63, GoesOn retries replies round) :
    ¬DelaysRight retries replies := by
  intro hright
  have hbounds := hright.bounds 63
  rw [sendRun_of_goesOn hgoes] at hbounds
  have hwrapped : delay (wrap64 (62 + 1 : ℕ)) = -2 ^ 63 := by decide +kernel
  have hmem : delay (wrap64 (62 + 1 : ℕ)) ∈ firstDelays 63 :=
    List.mem_map.mpr ⟨62, List.mem_range.mpr (by decide), rfl⟩
  have hlow := (hbounds _ hmem).1
  rw [hwrapped] at hlow
  omega

/-- The delays are right for at most 62 retries, or where one of the first 63
replies ends the loop. -/
theorem delaysRight_iff (retries : Retries) (replies : ℕ → Reply) :
    DelaysRight retries replies ↔
      retries.value ≤ 62 ∨ ∃ round < 63, (replies round).last = true := by
  constructor
  · intro hright
    by_contra hneither
    rw [not_or, not_le] at hneither
    obtain ⟨hmany, hreplies⟩ := hneither
    refine not_delaysRight_of_goesOn (fun round hround => ?_) hright
    refine ⟨?_, ?_⟩
    · rw [← Bool.not_eq_true]
      exact fun hlast => hreplies ⟨round, hround, hlast⟩
    · rw [wrap64_of_lt (by omega), Retries.used]
      simp only [Bool.and_eq_false_iff, decide_eq_false_iff_not]
      omega
  · intro hcase
    refine delaysRight_of_waits fun waits hgoes => ?_
    rcases Nat.lt_or_ge 62 retries.value with hmany | hfew
    · obtain ⟨round, hround, hlast⟩ := hcase.resolve_left (by omega)
      have hwaits : waits ≤ round := by
        by_contra hmore
        rw [(hgoes round (lt_of_not_ge hmore)).1] at hlast
        cases hlast
      omega
    · have hwaits := waits_le_value hfew hgoes
      omega

/-- The server does not answer. -/
def unreachable : Reply :=
  ⟨7, "000".toList⟩

/-- With 64 retries and no answer the 63rd delay is negative and the 64th is one
second. -/
theorem delays_wrap :
    (∃ retries : Retries, retries.text = "64".toList ∧
      (sendRun retries (fun _ => unreachable) 64).delays.drop 61 =
        [30, -2 ^ 63, 1]) ∧
    ¬DelaysRight ⟨"63".toList, by decide⟩ fun _ => unreachable := by
  constructor
  · exact ⟨⟨"64".toList, by decide⟩, rfl, by decide +kernel⟩
  · intro hright
    have hlow : ∀ seconds ∈ (sendRun ⟨"63".toList, by decide⟩
        (fun _ => unreachable) 63).delays, 2 ≤ seconds :=
      fun seconds hmem => (hright.bounds 63 seconds hmem).1
    revert hlow
    decide +kernel

end Delays

end NotifyHub.Wrapper
