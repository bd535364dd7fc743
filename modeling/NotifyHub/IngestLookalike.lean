import NotifyHub.RateLimiter
import NotifyHub.IngestAwaitPoints
import NotifyHub.IngestInputs
import NotifyHub.JsonText
import Mathlib.Tactic

/-!
# Slugs which are not served

`_ingest` up to its fourth step, with Redis and the database available.  A slug
which does not exist, the slug of a disabled receiver and the slug of a receiver
whose tenant is suspended take three paths.  What they write differs only under
the key of the rejected sends, which no path of them reads again.
-/

namespace NotifyHub.Lookalike

open AsyncM RateLimit JsonText

/-! ## Redis -/

inductive RedisEntry
  | window (set : WindowSet)
  | counter (value : ℤ) (expiresAt : Option ℤ)
  | text (value : Text) (expiresAt : Option ℤ)

def RedisEntry.expiresAt : RedisEntry → Option ℤ
  | .window set => set.expiresAt
  | .counter _ expiresAt | .text _ expiresAt => expiresAt

/-- The entry which a command finds at a moment. -/
def found (nowMs : ℤ) (entry : Option RedisEntry) : Option RedisEntry :=
  entry.filter fun entry =>
    entry.expiresAt.all fun expiresAt => nowMs ≤ expiresAt

def ipLimitKey (sourceIp : Text) : Text :=
  "ingest:ratelimit:ip:".toList ++ sourceIp

def slugLimitKey (receiverId : Uuid) : Text :=
  "ingest:ratelimit:slug:".toList ++ uuidText receiverId

def rejectedKey (receiverId : Uuid) : Text :=
  "ingest:rejected:".toList ++ uuidText receiverId

/-- Only `record_rejected_send` writes the keys of the rejected sends, and what
it writes there can be incremented. -/
structure RedisStore where
  entries : Text → Option RedisEntry
  rejected : ∀ receiverId entry,
    entries (rejectedKey receiverId) = some entry →
      ∃ value expiresAt, entry = .counter value expiresAt

theorem append_ne_append
    {first second rest other : Text} (count : ℕ)
    (hfirst : count ≤ first.length) (hsecond : count ≤ second.length)
    (hne : first.take count ≠ second.take count) :
    first ++ rest ≠ second ++ other := by
  intro heq
  apply hne
  have htake := congrArg (List.take count) heq
  rwa [List.take_append_of_le_length hfirst,
    List.take_append_of_le_length hsecond] at htake

theorem ipLimitKey_ne_rejectedKey (sourceIp : Text) (receiverId : Uuid) :
    ipLimitKey sourceIp ≠ rejectedKey receiverId :=
  append_ne_append 9 (by decide) (by decide) (by decide)

theorem slugLimitKey_ne_rejectedKey (receiverId other : Uuid) :
    slugLimitKey receiverId ≠ rejectedKey other :=
  append_ne_append 9 (by decide) (by decide) (by decide)

/-- A key whose value nobody increments. -/
def RedisStore.set
    (redis : RedisStore) (key : Text) (entry : Option RedisEntry)
    (hkey : ∀ receiverId, key ≠ rejectedKey receiverId) : RedisStore where
  entries := Function.update redis.entries key entry
  rejected receiverId found hentry := by
    rw [Function.update_of_ne (hkey receiverId).symm] at hentry
    exact redis.rejected receiverId found hentry

def RedisStore.setRejected
    (redis : RedisStore) (receiverId : Uuid) (value : ℤ)
    (expiresAt : Option ℤ) : RedisStore where
  entries := Function.update redis.entries (rejectedKey receiverId)
    (some (.counter value expiresAt))
  rejected other found hentry := by
    by_cases hother : rejectedKey other = rejectedKey receiverId
    · rw [hother, Function.update_self] at hentry
      exact ⟨value, expiresAt, (Option.some.inj hentry).symm⟩
    · rw [Function.update_of_ne hother] at hentry
      exact redis.rejected other found hentry

/-! ## The server -/

/-- `ReceiverLookup`. -/
structure ReceiverLookup where
  id : Uuid
  tenantId : Uuid
  groupId : Uuid
  status : ReceiverStatus
  maxBodyBytes : ℤ
  rateLimitPerMin : ℤ
  defaultSeverity : Severity
  exitCodeSeverity : Option Severity
  durationThresholdSeconds : Option ℤ
  durationSeverity : Option Severity
  deriving DecidableEq

/-- What the slug of a receiver and the id of a tenant lead to. -/
structure Database where
  receivers : Text → Option ReceiverLookup
  tenants : Uuid → Option TenantStatus

structure Server where
  database : Database
  redis : RedisStore
  /-- `ingestion_requests_total` for each outcome. -/
  requestsTotal : Text → ℕ

abbrev ServerM := AsyncM IngestFault Server

/-- A request with what the server reads from its clock and from `uuid4` while
it serves it. -/
structure Request where
  host : Option Text
  headers : List (Text × Text)
  severity : Option Text
  chunks : List (List UInt8)
  requestUuid : Uuid
  ipCall : Call
  slugCall : Call
  rejectedAt : ℤ
  deriving DecidableEq

def Request.header (request : Request) (name : Text) : Option Text :=
  request.headers.lookup name

/-! ## The address of the sender -/

/-- `ipaddress` and the networks of `TRUSTED_PROXIES`. -/
structure Addresses (Ip : Type) where
  parse : Text → Option Ip
  trusted : Ip → Bool
  text : Ip → Text

section Addresses

variable {Ip : Type} (addresses : Addresses Ip)

/-- The entries of `X-Forwarded-For` from the last one on, while they are those
of trusted proxies. -/
def clientBehind (host : Text) : List Text → Option Text
  | [] => none
  | entry :: rest =>
      match addresses.parse entry with
      | none => some host
      | some ip =>
          if addresses.trusted ip then clientBehind host rest
          else some (addresses.text ip)

/-- `client_ip`. -/
def clientIp (request : Request) : Text :=
  let host := request.host.getD "unknown".toList
  let forwarded := (request.header "x-forwarded-for".toList).getD []
  let trusted := (addresses.parse host).any addresses.trusted
  if trusted = false ∨ forwarded = [] then host
  else
    let entries := (forwarded.splitOn ',').map strip
    (clientBehind addresses host entries.reverse).getD
      ((entries.head?.bind addresses.parse).elim host addresses.text)

end Addresses

/-! ## Steps of the pipeline -/

/-- `sliding_window_hit` on what its key holds; the script needs a sorted set. -/
def hitEntry
    (limit windowSeconds : ℤ) (call : Call) (entry : Option RedisEntry) :
    Except IngestFault (Option RedisEntry × RateLimitResult) :=
  let hitWindow (window : Option WindowSet) :=
    let (window, result) := slidingWindowHit limit windowSeconds call window
    (window.map RedisEntry.window, result)
  match entry with
  | none => .ok (hitWindow none)
  | some (.window set) => .ok (hitWindow (some set))
  | some other =>
      if limit ≤ 0 then .ok (some other, (hitWindow none).2)
      else .error .exception

def hit
    (key : Text) (hkey : ∀ receiverId, key ≠ rejectedKey receiverId)
    (limit windowSeconds : ℤ) (call : Call) : ServerM RateLimitResult :=
  fun server =>
    match hitEntry limit windowSeconds call
        (found call.nowMs (server.redis.entries key)) with
    | .error fault => (.error fault, server)
    | .ok (entry, result) =>
        (.ok result, { server with redis := server.redis.set key entry hkey })

/-- `check_ip_rate_limit`. -/
def checkIpRateLimit (sourceIp : Text) (call : Call) : ServerM RateLimitResult :=
  hit (ipLimitKey sourceIp) (ipLimitKey_ne_rejectedKey sourceIp)
    ipRateLimitPerMinute 60 call

/-- `check_slug_rate_limit`. -/
def checkSlugRateLimit
    (receiverId : Uuid) (rateLimitPerMin : ℤ) (call : Call) :
    ServerM RateLimitResult :=
  hit (slugLimitKey receiverId) (slugLimitKey_ne_rejectedKey receiverId)
    rateLimitPerMin 60 call

/-- `REJECTED_WINDOW_SECONDS`. -/
def rejectedWindowSeconds : ℤ := 86400

/-- `record_rejected_send`: `SET key 0 NX EX`, and `INCR key`. -/
def recordRejectedSend (nowMs : ℤ) (receiverId : Uuid) : ServerM Unit :=
  fun server =>
    match found nowMs (server.redis.entries (rejectedKey receiverId)) with
    | none =>
        (.ok (), { server with
          redis := server.redis.setRejected receiverId 1
            (some (nowMs + rejectedWindowSeconds * 1000)) })
    | some (.counter value expiresAt) =>
        (.ok (), { server with
          redis := server.redis.setRejected receiverId (value + 1) expiresAt })
    | some _ => (.error .exception, server)

/-- `resolve_receiver_by_slug`. -/
def resolveReceiverBySlug (slug : Text) : ServerM (Option ReceiverLookup) :=
  fun server => (.ok (server.database.receivers slug), server)

/-- The short transaction on the tenant; `scalar_one` raises where there is no
row. -/
def tenantSuspended (tenantId : Uuid) : ServerM Bool :=
  fun server =>
    match server.database.tenants tenantId with
    | none => (.error .exception, server)
    | some status => (.ok (decide (status = .suspended)), server)

/-- `ingest_not_found`. -/
def ingestNotFound : Problem :=
  notFound "Receiver not found.".toList

def rateLimited (detail : Text) (result : RateLimitResult) : Problem where
  status := 429
  type := "/problems/rate-limited".toList
  title := "Too Many Requests".toList
  detail := detail
  retryAfter := some result.retryAfter.toNat

def unsupportedMediaType : Problem where
  status := 415
  type := "/problems/unsupported-media-type".toList
  title := "Unsupported Media Type".toList
  detail := "The http_raw ingestion module accepts ".toList ++
    "application/x-www-form-urlencoded, text/plain ".toList ++
    "or no Content-Type at all.".toList
  retryAfter := none

def payloadTooLarge (maxBytes : ℤ) : Problem where
  status := 413
  type := "/problems/payload-too-large".toList
  title := "Payload Too Large".toList
  detail := "Body exceeds ".toList ++ intText maxBytes ++ " bytes.".toList
  retryAfter := none

/-- `_ACCEPTED_MEDIA_TYPES`. -/
def acceptedMediaTypes : List Text :=
  ["text/plain".toList, "application/x-www-form-urlencoded".toList]

/-- `_validate_content_type`. -/
def validateContentType (contentType : Option Text) : ServerM Unit :=
  let value := contentType.getD []
  let mediaType := (strip (value.takeWhile (· ≠ ';'))).map Char.toLower
  refuse (value ≠ [] ∧ mediaType ∉ acceptedMediaTypes) unsupportedMediaType
where
  refuse (condition : Prop) [Decidable condition] (problem : Problem) :
      ServerM Unit :=
    if condition then raise (.problem problem) else pure ()

/-- `_read_body_streaming`. -/
def readBodyStreaming (maxBytes : ℤ) (chunks : List (List UInt8)) :
    ServerM (List UInt8) :=
  go [] chunks
where
  go (read : List UInt8) : List (List UInt8) → ServerM (List UInt8)
    | [] => pure read
    | chunk :: rest =>
        if maxBytes < (read.length + chunk.length : ℕ) then
          raise (.problem (payloadTooLarge maxBytes))
        else go (read ++ chunk) rest

/-! ## The pipeline -/

inductive Reply
  | problem (problem : Problem)
  | created (body : Value)
  | replayed (body : Value)
  | failed

section Pipeline

variable {Ip : Type} (addresses : Addresses Ip) (hardMaxBodyBytes : ℤ)
  (store : ReceiverLookup → Text → Request → List UInt8 → ServerM Reply)

/-- `_ingest`; `store` are its last two steps, which no refused request
reaches. -/
def ingestSteps (slug : Text) (request : Request) : ServerM Reply := do
  let sourceIp := clientIp addresses request
  let ipLimit ← checkIpRateLimit sourceIp request.ipCall
  if ipLimit.allowed = false then
    raise (.problem
      (rateLimited "Rate limit exceeded for source IP.".toList ipLimit))
  else
    match ← resolveReceiverBySlug slug with
    | none => raise (.problem ingestNotFound)
    | some receiver =>
        if receiver.status ≠ .active then do
          recordRejectedSend request.rejectedAt receiver.id
          raise (.problem ingestNotFound)
        else if ← tenantSuspended receiver.tenantId then
          raise (.problem ingestNotFound)
        else do
          let slugLimit ← checkSlugRateLimit receiver.id
            receiver.rateLimitPerMin request.slugCall
          if slugLimit.allowed = false then
            raise (.problem
              (rateLimited "Rate limit exceeded for this receiver.".toList
                slugLimit))
          else do
            validateContentType (request.header "content-type".toList)
            let rawBody ← readBodyStreaming
              (min receiver.maxBodyBytes hardMaxBodyBytes) request.chunks
            store receiver sourceIp request rawBody

/-- The outcome under which `ingest` counts a problem. -/
def outcomeOf (status : ℕ) : Text :=
  match status with
  | 404 => "not_found".toList
  | 429 => "rate_limited".toList
  | 413 => "payload_too_large".toList
  | 415 => "unsupported_media_type".toList
  | 503 => "storage_unavailable".toList
  | _ => "error".toList

def Server.count (outcome : Text) (server : Server) : Server :=
  { server with
    requestsTotal := Function.update server.requestsTotal outcome
      (server.requestsTotal outcome + 1) }

/-- `ingest`, with the handlers of the application. -/
def ingest (slug : Text) (request : Request) (server : Server) :
    Reply × Server :=
  match ingestSteps addresses hardMaxBodyBytes store slug request server with
  | (.error (.problem problem), server) =>
      (.problem problem, server.count (outcomeOf problem.status))
  | (.error _, server) => (.failed, server)
  | (.ok (.replayed body), server) =>
      (.replayed body, server.count "replay".toList)
  | (.ok reply, server) => (reply, server.count "success".toList)

end Pipeline

/-! ## Responses -/

structure Response where
  status : ℕ
  headers : List (Text × Text)
  body : Value

/-- `problem_response`. -/
def problemResponse (problem : Problem) : Response where
  status := problem.status
  headers := [("content-type".toList, "application/problem+json".toList)]
  body := .object
    ([("type".toList, .text problem.type), ("title".toList, .text problem.title),
      ("status".toList, .int problem.status),
      ("detail".toList, .text problem.detail)] ++
      (problem.retryAfter.map fun seconds =>
        ("retry_after".toList, Value.int seconds)).toList)

def internalError : Problem where
  status := 500
  type := "/problems/internal-error".toList
  title := "Internal Server Error".toList
  detail := "An internal error occurred.".toList
  retryAfter := none

/-- `RequestIdMiddleware`. -/
def withRequestId (request : Request) (response : Response) : Response :=
  { response with
    headers := response.headers ++ [("x-request-id".toList,
      (request.header "x-request-id".toList).getD
        (uuidText request.requestUuid))] }

/-- An exception which nobody catches passes by the middleware. -/
def respond (request : Request) : Reply → Response
  | .problem problem => withRequestId request (problemResponse problem)
  | .created body => withRequestId request
      ⟨201, [("content-type".toList, "application/json".toList)], body⟩
  | .replayed body => withRequestId request
      ⟨200, [("idempotent-replay".toList, "true".toList),
        ("content-type".toList, "application/json".toList)], body⟩
  | .failed => problemResponse internalError

section Runs

variable {Ip : Type} (addresses : Addresses Ip) (hardMaxBodyBytes : ℤ)
  (store : ReceiverLookup → Text → Request → List UInt8 → ServerM Reply)

/-- The responses to a sequence of requests for one slug. -/
def responses (slug : Text) : List Request → Server → List Response
  | [], _ => []
  | request :: rest, server =>
      let (reply, server) :=
        ingest addresses hardMaxBodyBytes store slug request server
      respond request reply :: responses slug rest server

theorem responses_cons
    (slug : Text) (request : Request) (rest : List Request) (server : Server) :
    responses addresses hardMaxBodyBytes store slug (request :: rest) server =
      respond request
          (ingest addresses hardMaxBodyBytes store slug request server).1 ::
        responses addresses hardMaxBodyBytes store slug rest
          (ingest addresses hardMaxBodyBytes store slug request server).2 :=
  rfl

end Runs

/-! ## Two servers which look alike -/

/-- The reasons for which a slug is not served. -/
inductive Hidden (database : Database) (slug : Text) : Prop
  | unknown (hslug : database.receivers slug = none)
  | disabled (receiver : ReceiverLookup)
      (hslug : database.receivers slug = some receiver)
      (hstatus : receiver.status = .disabled)
  | suspended (receiver : ReceiverLookup)
      (hslug : database.receivers slug = some receiver)
      (hstatus : receiver.status = .active)
      (htenant : database.tenants receiver.tenantId = some .suspended)

/-- Two stores with the same windows of the addresses. -/
def SameLimits (redis other : RedisStore) : Prop :=
  ∀ sourceIp, redis.entries (ipLimitKey sourceIp) =
    other.entries (ipLimitKey sourceIp)

structure Alike (slug : Text) (server other : Server) : Prop where
  hidden : Hidden server.database slug
  hidden_other : Hidden other.database slug
  limits : SameLimits server.redis other.redis

section Steps

variable {server other : Server} {key slug : Text}
  {hkey : ∀ receiverId, key ≠ rejectedKey receiverId}
  {limit windowSeconds : ℤ} {call : Call}

theorem hit_database :
    (hit key hkey limit windowSeconds call server).2.database =
      server.database := by
  unfold hit
  split <;> rfl

theorem hit_of_ne {unread : Text} (hunread : unread ≠ key) :
    (hit key hkey limit windowSeconds call server).2.redis.entries unread =
      server.redis.entries unread := by
  unfold hit
  split
  · rfl
  · exact Function.update_of_ne hunread ..

/-- The limiter reads and writes nothing but its key. -/
theorem hit_congr
    (hentry : server.redis.entries key = other.redis.entries key) :
    (hit key hkey limit windowSeconds call server).1 =
        (hit key hkey limit windowSeconds call other).1 ∧
      (hit key hkey limit windowSeconds call server).2.redis.entries key =
        (hit key hkey limit windowSeconds call other).2.redis.entries key := by
  unfold hit
  rw [hentry]
  cases hitEntry limit windowSeconds call
      (found call.nowMs (other.redis.entries key)) with
  | error fault => exact ⟨rfl, hentry⟩
  | ok reply =>
      refine ⟨rfl, ?_⟩
      have hserver := Function.update_self key reply.1 server.redis.entries
      have hother := Function.update_self key reply.1 other.redis.entries
      exact hserver.trans hother.symm

theorem checkIpRateLimit_congr
    {sourceIp : Text} (hlimits : SameLimits server.redis other.redis) :
    (checkIpRateLimit sourceIp call server).1 =
        (checkIpRateLimit sourceIp call other).1 ∧
      SameLimits (checkIpRateLimit sourceIp call server).2.redis
        (checkIpRateLimit sourceIp call other).2.redis := by
  obtain ⟨hresult, hentry⟩ := hit_congr (hlimits sourceIp)
  refine ⟨hresult, ?_⟩
  intro address
  by_cases hsame : ipLimitKey address = ipLimitKey sourceIp
  · rw [hsame]
    exact hentry
  · exact (hit_of_ne hsame).trans
      ((hlimits address).trans (hit_of_ne hsame).symm)

theorem resolveReceiverBySlug_ok
    {found : Option ReceiverLookup} (hdatabase : other.database = server.database)
    (hslug : server.database.receivers slug = found) :
    resolveReceiverBySlug slug other = (.ok found, other) := by
  rw [resolveReceiverBySlug, hdatabase, hslug]

theorem tenantSuspended_ok
    {tenantId : Uuid} {status : TenantStatus}
    (hdatabase : other.database = server.database)
    (htenant : server.database.tenants tenantId = some status) :
    tenantSuspended tenantId other =
      (.ok (decide (status = .suspended)), other) := by
  rw [tenantSuspended, hdatabase, htenant]

/-- A rejected send is always counted, and no window is touched. -/
theorem recordRejectedSend_ok
    (server : Server) (nowMs : ℤ) (receiverId : Uuid) :
    ∃ next, recordRejectedSend nowMs receiverId server = (.ok (), next) ∧
      next.database = server.database ∧
      SameLimits next.redis server.redis := by
  have hkept : ∀ value expiresAt, SameLimits
      (server.redis.setRejected receiverId value expiresAt) server.redis := by
    intro value expiresAt sourceIp
    have hne := ipLimitKey_ne_rejectedKey sourceIp receiverId
    exact Function.update_of_ne hne (some (.counter value expiresAt))
      server.redis.entries
  unfold recordRejectedSend
  cases hfound : found nowMs
      (server.redis.entries (rejectedKey receiverId)) with
  | none => exact ⟨_, rfl, rfl, hkept _ _⟩
  | some entry =>
      have hentry := (Option.filter_eq_some_iff.mp hfound).1
      obtain ⟨value, expiresAt, rfl⟩ :=
        server.redis.rejected receiverId entry hentry
      exact ⟨_, rfl, rfl, hkept _ _⟩

end Steps

section Requests

variable {Ip : Type} (addresses : Addresses Ip) (hardMaxBodyBytes : ℤ)
  (store : ReceiverLookup → Text → Request → List UInt8 → ServerM Reply)
  {slug : Text} (request : Request) {server other : Server}

/-- What a slug which is not served answers, from the answer of the limiter. -/
def hiddenOutcome : Except IngestFault RateLimitResult → IngestFault
  | .error fault => fault
  | .ok result =>
      if result.allowed = false then
        .problem
          (rateLimited "Rate limit exceeded for source IP.".toList result)
      else .problem ingestNotFound

theorem ingestSteps_hidden (hhidden : Hidden server.database slug) :
    ∃ next, ingestSteps addresses hardMaxBodyBytes store slug request server =
        (.error (hiddenOutcome (checkIpRateLimit (clientIp addresses request)
          request.ipCall server).1), next) ∧
      next.database = server.database ∧
      SameLimits next.redis (checkIpRateLimit (clientIp addresses request)
        request.ipCall server).2.redis := by
  have hdatabase : (checkIpRateLimit (clientIp addresses request)
      request.ipCall server).2.database = server.database := hit_database
  cases hlimit : checkIpRateLimit (clientIp addresses request)
      request.ipCall server with
  | mk outcome limited =>
      rw [hlimit] at hdatabase
      unfold ingestSteps
      cases outcome with
      | error fault =>
          refine ⟨limited, ?_, hdatabase, fun _ => rfl⟩
          exact bind_of_error hlimit
      | ok result =>
          rw [bind_of_ok hlimit]
          by_cases hallowed : result.allowed = false
          · refine ⟨limited, ?_, hdatabase, fun _ => rfl⟩
            rw [if_pos hallowed, hiddenOutcome, if_pos hallowed]
            rfl
          · rw [if_neg hallowed, hiddenOutcome, if_neg hallowed]
            rcases hhidden with hslug | ⟨receiver, hslug, hstatus⟩ |
              ⟨receiver, hslug, hstatus, htenant⟩
            · rw [bind_of_ok (resolveReceiverBySlug_ok hdatabase hslug)]
              exact ⟨limited, rfl, hdatabase, fun _ => rfl⟩
            · rw [bind_of_ok (resolveReceiverBySlug_ok hdatabase hslug)]
              obtain ⟨next, hrecord, hnext, hlimits⟩ :=
                recordRejectedSend_ok limited request.rejectedAt receiver.id
              refine ⟨next, ?_, hnext.trans hdatabase, hlimits⟩
              simp only [hstatus, ne_eq, reduceCtorEq, not_false_eq_true,
                if_true]
              rw [bind_of_ok hrecord]
              rfl
            · rw [bind_of_ok (resolveReceiverBySlug_ok hdatabase hslug)]
              refine ⟨limited, ?_, hdatabase, fun _ => rfl⟩
              simp only [hstatus, ne_eq, not_true_eq_false, if_false]
              rw [bind_of_ok (tenantSuspended_ok hdatabase htenant)]
              rfl

def hiddenReply : IngestFault → Reply
  | .problem problem => .problem problem
  | _ => .failed

theorem ingest_hidden (hhidden : Hidden server.database slug) :
    ∃ next, ingest addresses hardMaxBodyBytes store slug request server =
        (hiddenReply (hiddenOutcome (checkIpRateLimit
          (clientIp addresses request) request.ipCall server).1), next) ∧
      next.database = server.database ∧
      SameLimits next.redis (checkIpRateLimit (clientIp addresses request)
        request.ipCall server).2.redis := by
  obtain ⟨next, hsteps, hdatabase, hlimits⟩ :=
    ingestSteps_hidden addresses hardMaxBodyBytes store request hhidden
  unfold ingest
  rw [hsteps]
  cases hiddenOutcome (checkIpRateLimit (clientIp addresses request)
      request.ipCall server).1 with
  | problem problem => exact ⟨_, rfl, hdatabase, hlimits⟩
  | pendingRollback => exact ⟨_, rfl, hdatabase, hlimits⟩
  | exception => exact ⟨_, rfl, hdatabase, hlimits⟩
  | cancelled => exact ⟨_, rfl, hdatabase, hlimits⟩

/-- One request: the same reply, and the servers still look alike. -/
theorem Alike.ingest (halike : Alike slug server other) :
    (ingest addresses hardMaxBodyBytes store slug request server).1 =
        (ingest addresses hardMaxBodyBytes store slug request other).1 ∧
      Alike slug
        (ingest addresses hardMaxBodyBytes store slug request server).2
        (ingest addresses hardMaxBodyBytes store slug request other).2 := by
  obtain ⟨next, hserver, hdatabase, hlimits⟩ :=
    ingest_hidden addresses hardMaxBodyBytes store request halike.hidden
  obtain ⟨last, hother, hdatabase_other, hlimits_other⟩ :=
    ingest_hidden addresses hardMaxBodyBytes store request halike.hidden_other
  obtain ⟨hanswer, hwindows⟩ := checkIpRateLimit_congr halike.limits
  rw [hserver, hother, hanswer]
  refine ⟨rfl, ?_, ?_, ?_⟩
  · rw [hdatabase]
    exact halike.hidden
  · rw [hdatabase_other]
    exact halike.hidden_other
  · intro sourceIp
    have hsame := hwindows sourceIp
    rw [← hlimits sourceIp, ← hlimits_other sourceIp] at hsame
    exact hsame

end Requests

/-- Whatever is sent to a slug which is not served, the responses do not tell
why it is not. -/
theorem responses_alike
    {Ip : Type} (addresses : Addresses Ip) (hardMaxBodyBytes : ℤ)
    (store : ReceiverLookup → Text → Request → List UInt8 → ServerM Reply)
    {slug : Text} {server other : Server} (halike : Alike slug server other)
    (requests : List Request) :
    responses addresses hardMaxBodyBytes store slug requests server =
      responses addresses hardMaxBodyBytes store slug requests other := by
  induction requests generalizing server other with
  | nil => rfl
  | cons request rest ih =>
      obtain ⟨hreply, hnext⟩ :=
        halike.ingest addresses hardMaxBodyBytes store request
      rw [responses_cons, responses_cons, hreply, ih hnext]

/-! ## A full window -/

/-- An address which has just sent as often as it may. -/
def fullRedis (sourceIp : Text) : RedisStore where
  entries key :=
    if key = ipLimitKey sourceIp then
      some (.window ⟨List.replicate 300 (1000, []), none⟩)
    else none
  rejected receiverId entry hentry := by
    rw [if_neg (ipLimitKey_ne_rejectedKey sourceIp receiverId).symm] at hentry
    cases hentry

def serverWith
    (receiver : Option ReceiverLookup) (tenant : Option TenantStatus) :
    Server where
  database := ⟨fun _ => receiver, fun _ => tenant⟩
  redis := fullRedis "10.0.0.7".toList
  requestsTotal _ := 0

def exampleReceiver (status : ReceiverStatus) : ReceiverLookup where
  id := 1
  tenantId := 2
  groupId := 3
  status := status
  maxBodyBytes := 1000
  rateLimitPerMin := 1
  defaultSeverity := .info
  exitCodeSeverity := none
  durationThresholdSeconds := none
  durationSeverity := none

def exampleRequest (nowMs : ℤ) (uuid : Uuid) : Request where
  host := some "10.0.0.7".toList
  headers := [("content-type".toList, "image/png".toList)]
  severity := none
  chunks := [[1, 2, 3]]
  requestUuid := uuid
  ipCall := ⟨nowMs, uuid⟩
  slugCall := ⟨nowMs, uuid⟩
  rejectedAt := nowMs

def exampleAddresses : Addresses Empty := ⟨fun _ => none, nofun, nofun⟩

def storeNothing :
    ReceiverLookup → Text → Request → List UInt8 → ServerM Reply :=
  fun _ _ _ _ => raise .exception

/-- An address which is refused, waits and sends twice more. -/
theorem responses_alike_full :
    let run := responses exampleAddresses 1000 storeNothing "backup".toList
      [exampleRequest 2000 1, exampleRequest 70000 2, exampleRequest 70001 3]
    (run (serverWith none none)).map Response.status = [429, 404, 404] ∧
      run (serverWith none none) =
        run (serverWith (some (exampleReceiver .disabled)) (some .active)) ∧
      run (serverWith none none) =
        run (serverWith (some (exampleReceiver .active)) (some .suspended)) := by
  have hlimits : ∀ receiver tenant,
      SameLimits (serverWith none none).redis
        (serverWith receiver tenant).redis :=
    fun _ _ _ => rfl
  have hdisabled : Alike "backup".toList (serverWith none none)
      (serverWith (some (exampleReceiver .disabled)) (some .active)) :=
    ⟨.unknown rfl, .disabled (exampleReceiver .disabled) rfl rfl, hlimits _ _⟩
  have hsuspended : Alike "backup".toList (serverWith none none)
      (serverWith (some (exampleReceiver .active)) (some .suspended)) :=
    ⟨.unknown rfl, .suspended (exampleReceiver .active) rfl rfl rfl,
      hlimits _ _⟩
  refine ⟨by decide +kernel, ?_, ?_⟩
  · exact responses_alike exampleAddresses 1000 storeNothing hdisabled _
  · exact responses_alike exampleAddresses 1000 storeNothing hsuspended _

end NotifyHub.Lookalike
