import NotifyHub.CursorText
import NotifyHub.DomainTypes
import Mathlib.Tactic

/-!
# The requests of the wrapper

`notifyhub-run.sh` with its start ping, its notification at the end and the
attempts to send it, and the rule of the server: within the window of the
idempotency, two requests with one `X-Request-Id` on one receiver are one
notification.

Where the kernel has no file with a random UUID, a request is named after the
process and the second.  The process is the same for both requests.
-/

namespace NotifyHub.Wrapper

/-! ## The server -/

/-- A request to `/ingest/{slug}`; neither rule reads its body. -/
structure Post where
  slug : Text
  requestId : Option Text
  phase : Option NotificationPhase
  severity : Option Text
  exitCode : Option ℕ
  durationMs : Option ℕ
  deriving DecidableEq

inductive Answer
  | created
  | replayed (original : Post)
  deriving DecidableEq

/-- The notification of a receiver which has been stored under an id. -/
def stored (recorded : List Post) (slug : Text) (requestId : Text) :
    Option Post :=
  recorded.find? fun post =>
    post.slug = slug ∧ post.requestId = some requestId

/-- A request which is accepted, after the notifications recorded so far. -/
def receive (recorded : List Post) (post : Post) : List Post × Answer :=
  match post.requestId.bind (stored recorded post.slug) with
  | some original => (recorded, .replayed original)
  | none => (recorded ++ [post], .created)

def receiveAll (recorded : List Post) (posts : List Post) : List Post :=
  posts.foldl (fun recorded post => (receive recorded post).1) recorded

/-! ## The script -/

structure Options where
  slug : Text
  severityForced : Text
  severityOk : Text
  severityFail : Text
  onlyOnFailure : Bool
  pingStart : Bool
  dryRun : Bool
  retries : ℕ
  deriving DecidableEq

/-- What becomes of a request: curl gets the answer, or the server has accepted
the request and curl gets no answer, or the server refuses it, or it does not
arrive. -/
inductive Delivery
  | answered
  | unanswered
  | refused (httpCode : ℕ)
  | lost
  deriving DecidableEq

/-- A run of the script, with what it reads from its machine.  Before each
attempt to send the end the server receives requests of others. -/
structure Execution where
  pid : ℕ
  pingUuid : Option Uuid
  pingSeconds : ℕ
  pingDelivery : Delivery
  exitCode : ℕ
  durationMs : ℕ
  endUuid : Option Uuid
  endSeconds : ℕ
  deliveries : ℕ → Delivery
  traffic : ℕ → List Post

def natText (number : ℕ) : Text :=
  Nat.toDigits 10 number

/-- `cat /proc/sys/kernel/random/uuid || echo "$$-$(date +%s)"`. -/
def newRequestId (pid : ℕ) (uuid : Option Uuid) (seconds : ℕ) : Text :=
  match uuid with
  | some uuid => uuidText uuid
  | none => natText pid ++ '-' :: natText seconds

/-- The request of `send_ping_start`. -/
def pingPost (options : Options) (execution : Execution) : Post where
  slug := options.slug
  requestId := some
    (newRequestId execution.pid execution.pingUuid execution.pingSeconds)
  phase := some .start
  severity := some "debug".toList
  exitCode := none
  durationMs := none

def chosenSeverity (options : Options) (exitCode : ℕ) : Text :=
  if options.severityForced ≠ [] then options.severityForced
  else if exitCode ≠ 0 then options.severityFail
  else options.severityOk

def endPost (options : Options) (execution : Execution) : Post where
  slug := options.slug
  requestId := some
    (newRequestId execution.pid execution.endUuid execution.endSeconds)
  phase := some .finish
  severity :=
    let severity := chosenSeverity options execution.exitCode
    if severity = [] then none else some severity
  exitCode := some execution.exitCode
  durationMs := some execution.durationMs

/-- What the server has recorded, and what it has answered to the run. -/
structure Outcome where
  recorded : List Post
  answers : List (Post × Answer)
  deriving DecidableEq

/-- One call of curl. -/
def send (delivery : Delivery) (post : Post) (outcome : Outcome) : Outcome :=
  match delivery with
  | .answered | .unanswered =>
      let (recorded, answer) := receive outcome.recorded post
      ⟨recorded, outcome.answers ++ [(post, answer)]⟩
  | .refused _ | .lost => outcome

/-- `000|5??|429|409`. -/
def Delivery.retryable : Delivery → Bool
  | .answered => false
  | .unanswered | .lost => true
  | .refused httpCode =>
      httpCode / 100 = 5 || httpCode = 429 || httpCode = 409

/-- An attempt to send the end, after the requests of others before it. -/
def attemptEnd
    (execution : Execution) (post : Post) (attempt : ℕ) (outcome : Outcome) :
    Outcome :=
  send (execution.deliveries attempt) post
    { outcome with
      recorded := receiveAll outcome.recorded (execution.traffic attempt) }

/-- The attempts to send the end, `left` of which may follow the first one. -/
def sendEnd (execution : Execution) (post : Post) :
    ℕ → ℕ → Outcome → Outcome
  | 0, attempt, outcome => attemptEnd execution post attempt outcome
  | left + 1, attempt, outcome =>
      let sent := attemptEnd execution post attempt outcome
      if (execution.deliveries attempt).retryable then
        sendEnd execution post left (attempt + 1) sent
      else sent

/-- A run of the script. -/
def run
    (options : Options) (execution : Execution) (recorded : List Post) :
    Outcome :=
  let started : Outcome :=
    if options.pingStart && !options.dryRun then
      send execution.pingDelivery (pingPost options execution) ⟨recorded, []⟩
    else ⟨recorded, []⟩
  if options.onlyOnFailure && execution.exitCode = 0 || options.dryRun then
    started
  else
    sendEnd execution (endPost options execution) options.retries 0 started

/-! ## What the server does with a request -/

section Server

variable {recorded : List Post} {post original : Post} {slug requestId : Text}

theorem stored_append (recorded added : List Post) (slug requestId : Text) :
    stored (recorded ++ added) slug requestId =
      (stored recorded slug requestId).or (stored added slug requestId) :=
  List.find?_append

theorem receive_new
    (hid : post.requestId = some requestId)
    (hnew : stored recorded post.slug requestId = none) :
    receive recorded post = (recorded ++ [post], .created) := by
  rw [receive, hid, Option.bind_some, hnew]

theorem receive_known
    (hid : post.requestId = some requestId)
    (hknown : stored recorded post.slug requestId = some original) :
    receive recorded post = (recorded, .replayed original) := by
  rw [receive, hid, Option.bind_some, hknown]

theorem receive_recorded (recorded : List Post) (post : Post) :
    (receive recorded post).1 = recorded ∨
      (receive recorded post).1 = recorded ++ [post] := by
  unfold receive
  split
  · exact .inl rfl
  · exact .inr rfl

theorem stored_singleton
    (hslug : post.slug = slug) (hid : post.requestId = some requestId) :
    stored [post] slug requestId = some post := by
  simp [stored, hslug, hid]

theorem stored_singleton_of_ne
    (hne : post.slug = slug → post.requestId ≠ some requestId) :
    stored [post] slug requestId = none := by
  simpa [stored] using hne

/-- A request never changes what is stored under an id. -/
theorem stored_receive
    (hknown : stored recorded slug requestId = some original) :
    stored (receive recorded post).1 slug requestId = some original := by
  rcases receive_recorded recorded post with hsame | hadded
  · rw [hsame, hknown]
  · rw [hadded, stored_append, hknown, Option.some_or]

theorem stored_receive_of_ne
    (hne : post.slug = slug → post.requestId ≠ some requestId) :
    stored (receive recorded post).1 slug requestId =
      stored recorded slug requestId := by
  rcases receive_recorded recorded post with hsame | hadded
  · rw [hsame]
  · rw [hadded, stored_append, stored_singleton_of_ne hne, Option.or_none]

theorem stored_receiveAll
    (posts : List Post)
    (hknown : stored recorded slug requestId = some original) :
    stored (receiveAll recorded posts) slug requestId = some original := by
  induction posts generalizing recorded with
  | nil => exact hknown
  | cons post rest ih => exact ih (stored_receive hknown)

theorem stored_receiveAll_of_ne
    {posts : List Post}
    (hne : ∀ post ∈ posts, post.slug = slug →
      post.requestId ≠ some requestId) :
    stored (receiveAll recorded posts) slug requestId =
      stored recorded slug requestId := by
  induction posts generalizing recorded with
  | nil => rfl
  | cons post rest ih =>
      rw [List.forall_mem_cons] at hne
      exact (ih hne.2).trans (stored_receive_of_ne hne.1)

end Server

/-! ## What the attempts do -/

/-- Every request of the run reaches the server, which accepts it. -/
def Delivery.reaches : Delivery → Bool
  | .answered | .unanswered => true
  | .refused _ | .lost => false

theorem send_of_reaches
    {delivery : Delivery} (hreaches : delivery.reaches = true) (post : Post)
    (outcome : Outcome) :
    send delivery post outcome = ⟨(receive outcome.recorded post).1,
      outcome.answers ++ [(post, (receive outcome.recorded post).2)]⟩ := by
  cases delivery with
  | answered => rfl
  | unanswered => rfl
  | refused httpCode => cases hreaches
  | lost => cases hreaches

section Attempts

variable {execution : Execution} {post original : Post} {requestId : Text}
  {attempt left : ℕ} {outcome : Outcome}

/-- An attempt to send a request whose id is taken. -/
theorem attemptEnd_known
    (hreaches : (execution.deliveries attempt).reaches = true)
    (hid : post.requestId = some requestId)
    (hknown : stored outcome.recorded post.slug requestId = some original) :
    attemptEnd execution post attempt outcome =
      ⟨receiveAll outcome.recorded (execution.traffic attempt),
        outcome.answers ++ [(post, .replayed original)]⟩ := by
  have hstored := stored_receiveAll (execution.traffic attempt) hknown
  rw [attemptEnd, send_of_reaches hreaches, receive_known hid hstored]

/-- What a run of attempts adds when an id is taken: they are all answered with
what is stored under it. -/
structure Repeats
    (post original : Post) (requestId : Text) (outcome final : Outcome) :
    Prop where
  answers : ∀ answer ∈ final.answers,
    answer ∈ outcome.answers ∨ answer = (post, .replayed original)
  answered : (post, .replayed original) ∈ final.answers
  stored : stored final.recorded post.slug requestId = some original

theorem Repeats.trans
    {middle final : Outcome}
    (hfirst : Repeats post original requestId outcome middle)
    (hrest : Repeats post original requestId middle final) :
    Repeats post original requestId outcome final where
  answers answer hanswer := by
    rcases hrest.answers answer hanswer with hold | hnew
    · exact hfirst.answers answer hold
    · exact .inr hnew
  answered := hrest.answered
  stored := hrest.stored

theorem attemptEnd_repeats
    (hreaches : (execution.deliveries attempt).reaches = true)
    (hid : post.requestId = some requestId)
    (hknown : stored outcome.recorded post.slug requestId = some original) :
    Repeats post original requestId outcome
      (attemptEnd execution post attempt outcome) := by
  rw [attemptEnd_known hreaches hid hknown]
  constructor
  · intro answer hanswer
    rcases List.mem_append.mp hanswer with hold | hnew
    · exact .inl hold
    · exact .inr (List.mem_singleton.mp hnew)
  · exact List.mem_append_right _ (List.mem_singleton_self _)
  · exact stored_receiveAll (execution.traffic attempt) hknown

theorem sendEnd_repeats
    (hreaches : ∀ attempt, (execution.deliveries attempt).reaches = true)
    (hid : post.requestId = some requestId)
    (hknown : stored outcome.recorded post.slug requestId = some original) :
    Repeats post original requestId outcome
      (sendEnd execution post left attempt outcome) := by
  induction left generalizing attempt outcome with
  | zero => exact attemptEnd_repeats (hreaches attempt) hid hknown
  | succ left ih =>
      have hsent := attemptEnd_repeats (hreaches attempt) hid hknown
      rw [sendEnd]
      split
      · exact hsent.trans (ih hsent.stored)
      · exact hsent

/-- The first attempt to send a request whose id is new. -/
theorem attemptEnd_new
    (hreaches : (execution.deliveries attempt).reaches = true)
    (hid : post.requestId = some requestId)
    (htraffic : ∀ other ∈ execution.traffic attempt,
      other.slug = post.slug → other.requestId ≠ some requestId)
    (hnew : stored outcome.recorded post.slug requestId = none) :
    attemptEnd execution post attempt outcome =
      ⟨receiveAll outcome.recorded (execution.traffic attempt) ++ [post],
        outcome.answers ++ [(post, .created)]⟩ := by
  have hstill : stored (receiveAll outcome.recorded
      (execution.traffic attempt)) post.slug requestId = none := by
    rw [stored_receiveAll_of_ne htraffic, hnew]
  rw [attemptEnd, send_of_reaches hreaches, receive_new hid hstill]

/-- A request whose id is new is recorded, and its attempts are answered with
nothing but itself. -/
theorem sendEnd_new
    (hreaches : ∀ attempt, (execution.deliveries attempt).reaches = true)
    (hid : post.requestId = some requestId)
    (htraffic : ∀ other ∈ execution.traffic attempt,
      other.slug = post.slug → other.requestId ≠ some requestId)
    (hnew : stored outcome.recorded post.slug requestId = none) :
    (∀ answer ∈ (sendEnd execution post left attempt outcome).answers,
      answer ∈ outcome.answers ∨ answer = (post, .created) ∨
        answer = (post, .replayed post)) ∧
      post ∈ (sendEnd execution post left attempt outcome).recorded := by
  have hsent := attemptEnd_new (hreaches attempt) hid htraffic hnew
  have hfirst : stored (attemptEnd execution post attempt outcome).recorded
      post.slug requestId = some post := by
    rw [hsent, stored_append, stored_receiveAll_of_ne htraffic, hnew,
      Option.none_or]
    exact stored_singleton rfl hid
  have hanswers : ∀ answer ∈
      (attemptEnd execution post attempt outcome).answers,
      answer ∈ outcome.answers ∨ answer = (post, .created) ∨
        answer = (post, .replayed post) := by
    intro answer hanswer
    rw [hsent] at hanswer
    rcases List.mem_append.mp hanswer with hold | hlast
    · exact .inl hold
    · exact .inr (.inl (List.mem_singleton.mp hlast))
  cases left with
  | zero => exact ⟨hanswers, List.mem_of_find?_eq_some hfirst⟩
  | succ left =>
      rw [sendEnd]
      split
      · have hrest : Repeats post post requestId
            (attemptEnd execution post attempt outcome)
            (sendEnd execution post left (attempt + 1)
              (attemptEnd execution post attempt outcome)) :=
          sendEnd_repeats hreaches hid hfirst
        refine ⟨?_, List.mem_of_find?_eq_some hrest.stored⟩
        intro answer hanswer
        rcases hrest.answers answer hanswer with hold | hreplayed
        · exact hanswers answer hold
        · exact .inr (.inr hreplayed)
      · exact ⟨hanswers, List.mem_of_find?_eq_some hfirst⟩

end Attempts

/-! ## Request ids -/

theorem hyphen_notMem_natText (number : ℕ) : '-' ∉ natText number := by
  intro hmem
  have hdigit := Nat.isDigit_of_mem_toDigits (by decide) (by decide) hmem
  exact absurd hdigit (by decide)

theorem natText_injective : Function.Injective natText := by
  intro number other heq
  have hnumber : Nat.ofDigitChars 10 (natText number) 0 = number :=
    Nat.ofDigitChars_ten_toDigits
  rw [heq] at hnumber
  exact hnumber.symm.trans Nat.ofDigitChars_ten_toDigits

theorem uuidText_injective : Function.Injective uuidText := by
  intro id other heq
  have hread := congrArg uuidOfText heq
  rw [uuidOfText_uuidText, uuidOfText_uuidText] at hread
  exact Option.some.inj hread

/-- A UUID has four hyphens, the other form of an id has one. -/
theorem uuidText_ne_fallback (id : Uuid) (pid seconds : ℕ) :
    uuidText id ≠ natText pid ++ '-' :: natText seconds := by
  intro heq
  have hplain : ∀ number,
      (natText number).filter (fun char => char ≠ '-') = natText number := by
    intro number
    rw [List.filter_eq_self]
    intro char hchar
    rw [decide_eq_true_eq]
    rintro rfl
    exact hyphen_notMem_natText number hchar
  have hfilter := congrArg
    (fun text => (text.filter fun char => char ≠ '-').length) heq
  have hlength := congrArg List.length heq
  have huuid : (uuidText id).length = 36 := by
    simp [uuidText, length_hexText]
  simp only [filter_uuidText, length_hexText, List.filter_append, hplain,
    List.length_append] at hfilter
  rw [List.filter_cons_of_neg (by decide), hplain] at hfilter
  rw [huuid, List.length_append, List.length_cons] at hlength
  omega

/-- Whether two requests of one process have one id. -/
theorem newRequestId_eq_iff
    {pid seconds later : ℕ} {uuid other : Option Uuid} :
    newRequestId pid uuid seconds = newRequestId pid other later ↔
      uuid = other ∧ (uuid = none → seconds = later) := by
  cases uuid with
  | none =>
      cases other with
      | none => simp [newRequestId, natText_injective.eq_iff]
      | some id =>
          have hne := (uuidText_ne_fallback id pid seconds).symm
          simp [newRequestId, hne]
  | some uuid =>
      cases other with
      | none =>
          have hne := uuidText_ne_fallback uuid pid later
          simp [newRequestId, hne]
      | some id => simp [newRequestId, uuidText_injective.eq_iff]

/-! ## The outcome of a run -/

/-- A post of somebody else does not use an id of the run. -/
def Foreign (options : Options) (execution : Execution) (post : Post) : Prop :=
  post.slug = options.slug →
    post.requestId ≠ (pingPost options execution).requestId ∧
      post.requestId ≠ (endPost options execution).requestId

/-- A run which pings and which sends its end.  All its requests reach the
server, and the kernel does not give one UUID twice. -/
structure Regular
    (options : Options) (execution : Execution) (recorded : List Post) :
    Prop where
  pings : options.pingStart = true
  sends : options.dryRun = false
  sendsEnd : options.onlyOnFailure = true → execution.exitCode ≠ 0
  pingReaches : execution.pingDelivery.reaches = true
  endReaches : ∀ attempt, (execution.deliveries attempt).reaches = true
  uuids : ∀ uuid, execution.pingUuid = some uuid →
    execution.endUuid ≠ some uuid
  recorded : ∀ post ∈ recorded, Foreign options execution post
  traffic : ∀ attempt, ∀ post ∈ execution.traffic attempt,
    Foreign options execution post

/-- The end is recorded, and it is never answered with the ping. -/
structure OutcomeKept
    (options : Options) (execution : Execution) (recorded : List Post) :
    Prop where
  kept : endPost options execution ∈
    (run options execution recorded).recorded
  notReplayed : (endPost options execution,
      .replayed (pingPost options execution)) ∉
    (run options execution recorded).answers

section Outcomes

variable {options : Options} {execution : Execution} {recorded : List Post}

theorem Regular.stored_eq_none
    (hregular : Regular options execution recorded) {requestId : Text}
    (hid : some requestId = (pingPost options execution).requestId ∨
      some requestId = (endPost options execution).requestId) :
    stored recorded options.slug requestId = none := by
  rw [stored, List.find?_eq_none]
  intro post hpost hmatches
  rw [decide_eq_true_eq] at hmatches
  have hforeign := hregular.recorded post hpost hmatches.1
  rw [hmatches.2] at hforeign
  rcases hid with hping | hend
  · exact hforeign.1 hping
  · exact hforeign.2 hend

/-- The ping is recorded, and the attempts to send the end follow. -/
theorem Regular.run_eq (hregular : Regular options execution recorded) :
    run options execution recorded =
      sendEnd execution (endPost options execution) options.retries 0
        ⟨recorded ++ [pingPost options execution],
          [(pingPost options execution, .created)]⟩ := by
  have hnew := hregular.stored_eq_none (.inl rfl)
  have hping : receive recorded (pingPost options execution) =
      (recorded ++ [pingPost options execution], .created) :=
    receive_new rfl hnew
  have hsends : (options.onlyOnFailure && execution.exitCode = 0) = false := by
    rw [Bool.and_eq_false_iff, decide_eq_false_iff_not, ← Bool.not_eq_true]
    exact not_or_of_imp hregular.sendsEnd
  simp only [run, hregular.pings, hregular.sends, hsends, Bool.not_false,
    Bool.and_true, Bool.or_false, if_true, Bool.false_eq_true, if_false]
  rw [send_of_reaches hregular.pingReaches, hping]
  rfl

/-- The two requests have one id exactly if neither is named after a UUID and
both fall into one second. -/
theorem Regular.requestIds_eq_iff
    (hregular : Regular options execution recorded) :
    newRequestId execution.pid execution.pingUuid execution.pingSeconds =
        newRequestId execution.pid execution.endUuid execution.endSeconds ↔
      execution.pingUuid = none ∧ execution.endUuid = none ∧
        execution.pingSeconds = execution.endSeconds := by
  rw [newRequestId_eq_iff]
  cases hping : execution.pingUuid with
  | none => simp [eq_comm]
  | some uuid => simpa using (hregular.uuids uuid hping).symm

/-- The end of a run is swallowed by its ping exactly if the kernel has no
UUID for either request and the clock shows one second. -/
theorem outcome_kept_iff (hregular : Regular options execution recorded) :
    OutcomeKept options execution recorded ↔
      execution.pingUuid ≠ none ∨ execution.endUuid ≠ none ∨
        execution.pingSeconds ≠ execution.endSeconds := by
  have hcondition : (execution.pingUuid ≠ none ∨ execution.endUuid ≠ none ∨
      execution.pingSeconds ≠ execution.endSeconds) ↔
      newRequestId execution.pid execution.pingUuid execution.pingSeconds ≠
        newRequestId execution.pid execution.endUuid execution.endSeconds := by
    rw [Ne.eq_def (newRequestId ..), hregular.requestIds_eq_iff]
    tauto
  have hrun := hregular.run_eq
  have hphase : endPost options execution ≠ pingPost options execution := by
    intro hsame
    have hphases := congrArg Post.phase hsame
    simp [endPost, pingPost] at hphases
  rw [hcondition]
  constructor
  · -- with one id, the first attempt already finds the ping
    intro hkept hsame
    have hping : stored (recorded ++ [pingPost options execution]) options.slug
        (newRequestId execution.pid execution.endUuid execution.endSeconds) =
        some (pingPost options execution) := by
      rw [stored_append, hregular.stored_eq_none (.inr rfl), Option.none_or]
      exact stored_singleton rfl (congrArg some hsame)
    have hrepeats : Repeats (endPost options execution)
        (pingPost options execution) _ _
        (sendEnd execution (endPost options execution) options.retries 0
          ⟨recorded ++ [pingPost options execution],
            [(pingPost options execution, .created)]⟩) :=
      sendEnd_repeats hregular.endReaches rfl hping
    rw [← hrun] at hrepeats
    exact hkept.notReplayed hrepeats.answered
  · intro hne
    have hnew : stored (recorded ++ [pingPost options execution]) options.slug
        (newRequestId execution.pid execution.endUuid execution.endSeconds) =
        none := by
      rw [stored_append, hregular.stored_eq_none (.inr rfl), Option.none_or]
      exact stored_singleton_of_ne fun _ hsame => hne (Option.some.inj hsame)
    have hend : (∀ answer ∈ (run options execution recorded).answers,
        answer ∈ [(pingPost options execution, Answer.created)] ∨
          answer = (endPost options execution, .created) ∨
          answer = (endPost options execution,
            .replayed (endPost options execution))) ∧
        endPost options execution ∈
          (run options execution recorded).recorded := by
      rw [hrun]
      exact sendEnd_new hregular.endReaches rfl
        (fun other hother hslug => (hregular.traffic 0 other hother hslug).2)
        hnew
    obtain ⟨hanswers, hrecorded⟩ := hend
    refine ⟨hrecorded, ?_⟩
    intro hreplayed
    rcases hanswers _ hreplayed with hping | hcreated | hself
    · simp at hping
    · simp at hcreated
    · simp [hphase.symm] at hself

end Outcomes

/-! ## Short jobs on minimal systems -/

def wrapperOptions : Options where
  slug := "backup".toList
  severityForced := []
  severityOk := []
  severityFail := []
  onlyOnFailure := false
  pingStart := true
  dryRun := false
  retries := 2

/-- A job without UUIDs which fails after some seconds; the first answer to its
end gets lost. -/
def minimalExecution (seconds : ℕ) : Execution where
  pid := 4242
  pingUuid := none
  pingSeconds := 1754000000
  pingDelivery := .answered
  exitCode := 1
  durationMs := seconds * 1000 + 300
  endUuid := none
  endSeconds := 1754000000 + seconds
  deliveries attempt := if attempt = 0 then .unanswered else .answered
  traffic _ := []

theorem regular_minimalExecution (seconds : ℕ) :
    Regular wrapperOptions (minimalExecution seconds) [] where
  pings := rfl
  sends := rfl
  sendsEnd _ := Nat.one_ne_zero
  pingReaches := rfl
  endReaches attempt := by
    simp only [minimalExecution]
    split <;> rfl
  uuids uuid hping := by cases hping
  recorded := by simp
  traffic := by simp [minimalExecution]

/-- The end of a longer job is a notification of its own. -/
theorem outcome_kept_seconds :
    OutcomeKept wrapperOptions (minimalExecution 7) [] :=
  (outcome_kept_iff (regular_minimalExecution 7)).mpr (by decide)

/-- A job which fails within one second: the server takes both requests for one
and records the ping alone. -/
theorem outcome_swallowed :
    Regular wrapperOptions (minimalExecution 0) [] ∧
      (run wrapperOptions (minimalExecution 0) []).recorded =
        [pingPost wrapperOptions (minimalExecution 0)] ∧
      ¬OutcomeKept wrapperOptions (minimalExecution 0) [] := by
  have hrecorded : (run wrapperOptions (minimalExecution 0) []).recorded =
      [pingPost wrapperOptions (minimalExecution 0)] := by decide +kernel
  refine ⟨regular_minimalExecution 0, hrecorded, ?_⟩
  intro houtcome
  have hkept := houtcome.kept
  rw [hrecorded] at hkept
  revert hkept
  decide +kernel

end NotifyHub.Wrapper
