import NotifyHub.PublicUrls
import NotifyHub.TextReplace
import Mathlib.Tactic

/-!
# Webhook secrets

The path and the query of a webhook URL are the secret of its channel.
`safe_error` takes them out of the text of an exception before it is stored and
logged: three replacements one after the other, and a cut.
-/

namespace NotifyHub.WebhookErrors

open UrlSplit TextReplace PublicUrls

/-! ## The URL of a channel -/

/-- The checks of `urlsplit` and `str.lower`. -/
structure WebhookLibrary where
  checks : NetlocChecks
  lower : Text → Text

structure WebhookSettings where
  insecureHttpHosts : List Text
  hostAllowlist : List Text

/-- `ValueError` is not caught; the others are answers. -/
inductive WebhookRefusal
  | raised (error : UrlError)
  | problem (problem : Problem)
  deriving DecidableEq

def notAbsoluteUrl : Problem :=
  validationError "Webhook URL must be an absolute https URL.".toList

def insecureUrl : Problem :=
  validationError "Webhook URL must use https.".toList

def hostNotAllowed (hostname : Text) : Problem :=
  validationError ("Webhook host '".toList ++ hostname ++
    "' is not in the allowlist.".toList)

/-- `urlparse` splits off parameters; scheme and host are those of `urlsplit`. -/
def validateWebhookUrl (library : WebhookLibrary) (settings : WebhookSettings)
    (webhookUrl : Text) : Except WebhookRefusal Unit :=
  match urlsplit library.checks webhookUrl with
  | .error error => .error (.raised error)
  | .ok parsed =>
      let hostname := (parsed.hostname library.lower).getD []
      if (parsed.scheme ≠ http ∧ parsed.scheme ≠ https) ∨ hostname = [] then
        .error (.problem notAbsoluteUrl)
      else if parsed.scheme = http ∧ hostname ∉ settings.insecureHttpHosts then
        .error (.problem insecureUrl)
      else if settings.hostAllowlist ≠ [] ∧ hostname ∉ settings.hostAllowlist then
        .error (.problem (hostNotAllowed hostname))
      else .ok ()

/-! ## The error of an exception -/

def redacted : Text := "/<redacted>".toList

def errorMaxChars : ℕ := 300

/-- `_host_of`. -/
def hostOf (library : WebhookLibrary) (webhookUrl : Text) :
    Except UrlError Text := do
  let parts ← urlsplit library.checks webhookUrl
  return (parts.hostname library.lower).getD "unknown".toList

/-- What the whole URL is replaced by. -/
def redactedUrl (library : WebhookLibrary) (parts : SplitResult) : Text :=
  parts.scheme ++ "://".toList ++
    (parts.hostname library.lower).getD "None".toList ++ redacted

def redactSecret (message secret : Text) : Text :=
  if 1 < secret.length then replaceAll secret redacted message else message

/-- `name` and `message` are the name of the exception's type and its text. -/
def safeError (library : WebhookLibrary) (name message webhookUrl : Text) :
    Except UrlError Text := do
  let parts ← urlsplit library.checks webhookUrl
  let message := replaceAll webhookUrl (redactedUrl library parts) message
  let message := redactSecret (redactSecret message parts.path) parts.query
  let message := message.take errorMaxChars
  return if message ≠ [] then name ++ ": ".toList ++ message else name

/-! ## What must not be seen -/

/-- What `safe_error` writes itself. -/
def fixedTexts : List Text := ["://".toList, redacted, ": ".toList]

/-- A text which would give something away. -/
def IsSecret (name secret : Text) : Prop :=
  1 < secret.length ∧ (∀ fixed ∈ fixedTexts, ¬secret <:+: fixed) ∧
    ¬secret <:+: name

/-- Neither path nor query can be read in the error. -/
def SecretsKept (name : Text) (parts : SplitResult) (error : Text) : Prop :=
  ∀ secret ∈ [parts.path, parts.query],
    IsSecret name secret → ¬secret <:+: error

/-- The text before the query, which is followed by the slash of its marker, is
the rest of the secret. -/
def Completed (path query secret : Text) : Prop :=
  1 < query.length ∧ secret.length ≤ errorMaxChars ∧
    secret.getLast? = some '/' ∧ FirstAt query secret.dropLast ∧
    (1 < path.length → ¬path <:+: redacted →
      ¬path <:+: secret.dropLast ++ query)

/-- The secret begins in the name or in the colon and the blank after it, and
what follows there can be the start of a message without secrets. -/
def SpansName (name path query secret : Text) : Prop :=
  secret <:+: name ++ ": ".toList ∨
    ∃ front rest, front ≠ [] ∧ rest ≠ [] ∧ front <:+ name ++ ": ".toList ∧
      rest.length ≤ errorMaxChars ∧
      (∀ other ∈ [path, query], IsSecret name other → ¬other <:+: rest) ∧
      secret = front ++ rest

/-- Nothing that is inserted can become a part of a secret. -/
structure Guarded (name path query : Text) : Prop where
  apart : ∀ secret ∈ [path, query], 1 < secret.length →
    ¬Touches redacted secret
  completed : ∀ secret ∈ [path, query], IsSecret name secret →
    ¬Completed path query secret
  spans : ∀ secret ∈ [path, query], IsSecret name secret →
    ¬SpansName name path query secret

/-- No blanks and no brackets of the marker, and no other URL in the query. -/
structure PlainSecrets (path query : Text) : Prop where
  letters : ∀ secret ∈ [path, query], ' ' ∉ secret ∧ '<' ∉ secret ∧ '>' ∉ secret
  single : ¬"://".toList <:+: query

section Redaction

variable {library : WebhookLibrary} {settings : WebhookSettings}
  {webhookUrl name message path query secret error : Text}

/-! ## Accepted URLs -/

structure Accepted (library : WebhookLibrary) (webhookUrl : Text) : Prop where
  urlsplit_eq : urlsplit library.checks webhookUrl = .ok (parts webhookUrl)
  scheme_ne : (parts webhookUrl).scheme ≠ []
  netloc_ne : (parts webhookUrl).netloc ≠ []

theorem accepted_of_validate
    (haccepted : validateWebhookUrl library settings webhookUrl = .ok ()) :
    Accepted library webhookUrl := by
  unfold validateWebhookUrl at haccepted
  cases hsplit : urlsplit library.checks webhookUrl with
  | error error =>
      rw [hsplit] at haccepted
      cases haccepted
  | ok parsed =>
      obtain ⟨-, rfl⟩ := accepted_of_urlsplit hsplit
      rw [hsplit] at haccepted
      simp only at haccepted
      split at haccepted
      · cases haccepted
      next habsolute =>
        rw [not_or, not_and_or, not_not, not_not] at habsolute
        refine ⟨hsplit, ?_, ?_⟩
        · intro hnone
          rw [hnone] at habsolute
          rcases habsolute.1 with hscheme | hscheme
          · cases hscheme
          · cases hscheme
        · intro hnone
          apply habsolute.2
          simp [SplitResult.hostname, hostinfo, hnone, partitionAt]

/-- The message behind the name. -/
def redactedMessage (library : WebhookLibrary) (message webhookUrl : Text) :
    Text :=
  (redactSecret (redactSecret (replaceAll webhookUrl
    (redactedUrl library (parts webhookUrl)) message) (parts webhookUrl).path)
    (parts webhookUrl).query).take errorMaxChars

theorem safeError_eq (haccepted : Accepted library webhookUrl) :
    safeError library name message webhookUrl = .ok
      (if redactedMessage library message webhookUrl ≠ [] then
        name ++ ": ".toList ++ redactedMessage library message webhookUrl
      else name) := by
  rw [safeError, haccepted.urlsplit_eq]
  rfl

/-! ## What is redacted stays redacted -/

theorem redacted_ne : redacted ≠ [] := by decide

theorem not_infix_redactSecret_path
    (hhead : ∀ char ∈ path.head?, char = '/') (hlong : 1 < path.length)
    (hapart : ¬Touches redacted path) (houtside : ¬path <:+: redacted) :
    ¬path <:+: redactSecret message path := by
  rw [redactSecret, if_pos hlong]
  cases path with
  | nil => cases hlong
  | cons head tail =>
      obtain rfl := hhead head rfl
      refine not_infix_replaceAll_self (by simp) redacted_ne hapart houtside ?_
      exact ⟨tail, rfl⟩

/-- A secret in the message was there before the query was taken out, or has
been completed by its marker. -/
theorem infix_redactSecret (hsecret : IsSecret name secret)
    (hapart : ¬Touches redacted secret)
    (hfound : secret <:+: redactSecret message query) :
    ((1 < query.length → secret ≠ query) ∧ secret <:+: message) ∨
      (1 < query.length ∧ secret.getLast? = some '/' ∧
        FirstAt query secret.dropLast ∧
        secret.dropLast ++ query <:+: message) := by
  have houtside : ¬secret <:+: redacted := hsecret.2.1 redacted (by decide)
  rw [redactSecret] at hfound
  split at hfound
  next hlong =>
    have hne : query ≠ [] := by
      rintro rfl
      cases hlong
    rcases infix_replaceAll_apart hne redacted_ne hapart houtside hfound with
      ⟨hother, hmessage⟩ | ⟨front, -, hfront, hfirst, rfl⟩
    · exact .inl ⟨fun _ => hother, hmessage⟩
    · have hlast : redacted.take 1 = ['/'] := rfl
      rw [hlast, List.dropLast_concat, List.getLast?_concat]
      exact .inr ⟨hlong, rfl, hfirst, hfront⟩
  next hshort => exact .inl ⟨fun hlong => absurd hlong hshort, hfound⟩

/-- No secret is left in a guarded message. -/
theorem not_infix_redactedMessage (haccepted : Accepted library webhookUrl)
    (hguarded : Guarded name (parts webhookUrl).path (parts webhookUrl).query)
    (hmem : secret ∈ [(parts webhookUrl).path, (parts webhookUrl).query])
    (hsecret : IsSecret name secret) :
    ¬secret <:+: redactedMessage library message webhookUrl := by
  intro hfound
  have hshort : secret.length ≤ errorMaxChars :=
    hfound.length_le.trans (List.length_take_le _ _)
  have hwhole := hfound.trans (List.take_prefix _ _).isInfix
  have hpath : 1 < (parts webhookUrl).path.length →
      ¬(parts webhookUrl).path <:+: redacted →
      ∀ text, ¬(parts webhookUrl).path <:+:
        redactSecret text (parts webhookUrl).path :=
    fun hlong houtside _ => not_infix_redactSecret_path
      (path_head haccepted.netloc_ne) hlong
      (hguarded.apart _ List.mem_cons_self hlong) houtside
  rcases infix_redactSecret hsecret (hguarded.apart secret hmem hsecret.1)
    hwhole with ⟨hother, hmessage⟩ | ⟨hlong, hlast, hfirst, hmessage⟩
  · rcases List.mem_cons.mp hmem with rfl | hquery
    · exact hpath hsecret.1 (hsecret.2.1 redacted (by decide)) _ hmessage
    · obtain rfl := List.mem_singleton.mp hquery
      exact hother hsecret.1 rfl
  · refine hguarded.completed secret hmem hsecret
      ⟨hlong, hshort, hlast, hfirst, ?_⟩
    intro hpathLong houtside hpart
    exact hpath hpathLong houtside _ (hpart.trans hmessage)

/-- Nothing of a guarded URL is left in the error. -/
theorem kept_of_guarded (haccepted : Accepted library webhookUrl)
    (hguarded : Guarded name (parts webhookUrl).path (parts webhookUrl).query)
    (herror : safeError library name message webhookUrl = .ok error) :
    SecretsKept name (parts webhookUrl) error := by
  intro secret hmem hsecret hfound
  have hmessage : ∀ other ∈ [(parts webhookUrl).path,
      (parts webhookUrl).query], IsSecret name other →
        ¬other <:+: redactedMessage library message webhookUrl :=
    fun _ hother => not_infix_redactedMessage haccepted hguarded hother
  rw [safeError_eq haccepted] at herror
  obtain rfl := Except.ok.inj herror
  split at hfound
  · rcases List.infix_append_iff_ne_nil.mp hfound with hname | hinside |
      ⟨front, rest, hfront, hrest, rfl, hsuffix, hbegins⟩
    · exact hguarded.spans secret hmem hsecret (.inl hname)
    · exact hmessage secret hmem hsecret hinside
    · have hshort : rest.length ≤ errorMaxChars :=
        hbegins.length_le.trans (List.length_take_le _ _)
      refine hguarded.spans _ hmem hsecret
        (.inr ⟨front, rest, hfront, hrest, hsuffix, hshort, ?_, rfl⟩)
      intro other hother hsecret hfound
      exact hmessage other hother hsecret (hfound.trans hbegins.isInfix)
  · exact hsecret.2.2 hfound

/-! ## What gives a secret away -/

theorem apart_of_plain (hopen : '<' ∉ secret) (hclose : '>' ∉ secret) :
    ¬Touches redacted secret := by
  rintro (⟨front, piece, -, hlong, hbegins, rfl⟩ | ⟨start, more, hstart, -, rfl⟩ |
    ⟨front, more, -, -, rfl⟩)
  · have hstart : ['/', '<'] <+: piece :=
      List.prefix_of_prefix_length_le ⟨"redacted>".toList, rfl⟩ hbegins hlong
    exact hopen (List.mem_append_right front (hstart.subset (by decide)))
  · have hend : ∀ start < redacted.length, '>' ∈ redacted.drop start := by decide
    exact hclose (List.mem_append_left more (hend start hstart))
  · have hmarker : '<' ∈ redacted := by decide
    exact hopen (List.mem_append_left more (List.mem_append_right front hmarker))

theorem replaceAll_ne_nil {old new text : Text} (hold : old ≠ []) (hnew : new ≠ [])
    (htext : text ≠ []) : replaceAll old new text ≠ [] := by
  induction text using replace_induction hold with
  | nil => exact absurd rfl htext
  | occurrence rest _ =>
      rw [replaceAll_append hold]
      exact List.append_ne_nil_of_left_ne_nil hnew _
  | letter letter rest hnone _ =>
      rw [replaceAll_cons hnone]
      exact List.cons_ne_nil _ _

theorem redactSecret_ne_nil (secret : Text) (hmessage : message ≠ []) :
    redactSecret message secret ≠ [] := by
  rw [redactSecret]
  split
  next hlong =>
    refine replaceAll_ne_nil ?_ redacted_ne hmessage
    rintro rfl
    cases hlong
  · exact hmessage

theorem redactedMessage_ne_nil (hurl : webhookUrl ≠ []) (hmessage : message ≠ []) :
    redactedMessage library message webhookUrl ≠ [] := by
  have hnew : redactedUrl library (parts webhookUrl) ≠ [] :=
    List.append_ne_nil_of_right_ne_nil _ redacted_ne
  have hreplaced := redactSecret_ne_nil (parts webhookUrl).query
    (redactSecret_ne_nil (parts webhookUrl).path
      (replaceAll_ne_nil hurl hnew hmessage))
  rw [redactedMessage, errorMaxChars]
  intro hnone
  rcases List.take_eq_nil_iff.mp hnone with hzero | hempty
  · cases hzero
  · exact hreplaced hempty

/-- Two texts around `://`. -/
theorem infix_append_separator {front rest : Text}
    (hfound : "://".toList <:+: front ++ rest) :
    "://".toList <:+: front ∨ "://".toList <:+: rest ∨ rest.head? = some '/' := by
  rcases List.infix_append_iff_ne_nil.mp hfound with hfront | hrest |
    ⟨first, last, hfirst, hlast, heq, -, hbegins⟩
  · exact .inl hfront
  · exact .inr (.inl hrest)
  · right
    right
    obtain ⟨head, tail, rfl⟩ := List.exists_cons_of_ne_nil hlast
    obtain ⟨more, rfl⟩ := hbegins
    obtain ⟨colon, slashes, rfl⟩ := List.exists_cons_of_ne_nil hfirst
    have hslashes : ['/', '/'] = slashes ++ head :: tail := (List.cons.inj heq).2
    have hmem : head ∈ ['/', '/'] := by
      rw [hslashes]
      exact List.mem_append_right _ List.mem_cons_self
    have hhead : head = '/' := by simpa using hmem
    rw [hhead]
    rfl

/-- A URL in a text without line breaks has its `://` there. -/
theorem infix_separator (haccepted : Accepted library webhookUrl) {text : Text}
    (htext : ∀ char ∈ text, isUnsafeUrlByte char = false)
    (hfound : webhookUrl <:+: text) : "://".toList <:+: text := by
  have hkept : cleaned webhookUrl =
      webhookUrl.dropWhile isC0ControlOrSpace := by
    rw [cleaned, List.filter_eq_self]
    intro char hchar
    rw [htext char (hfound.subset ((List.dropWhile_sublist _).mem hchar))]
    rfl
  have hcleaned : "://".toList <:+: cleaned webhookUrl :=
    infix_cleaned haccepted.scheme_ne haccepted.netloc_ne
  rw [hkept] at hcleaned
  exact (hcleaned.trans (List.dropWhile_suffix _).isInfix).trans hfound

/-- The whole URL is not in a text before its query. -/
theorem not_infix_url (haccepted : Accepted library webhookUrl)
    (hplain : PlainSecrets (parts webhookUrl).path (parts webhookUrl).query)
    (hmem : secret ∈ [(parts webhookUrl).path, (parts webhookUrl).query])
    (hlast : secret.getLast? = some '/')
    (hfirst : FirstAt (parts webhookUrl).query secret.dropLast)
    (hlong : 1 < secret.length) :
    ¬webhookUrl <:+: secret.dropLast ++ (parts webhookUrl).query := by
  intro hfound
  rcases List.mem_cons.mp hmem with rfl | hquery
  · have hlength := hfound.length_le
    have hparts := length_parts webhookUrl
    rw [List.length_append, List.length_dropLast] at hlength
    omega
  · obtain rfl := List.mem_singleton.mp hquery
    have hwhole : (parts webhookUrl).query.dropLast ++ ['/'] =
        (parts webhookUrl).query :=
      List.dropLast_append_getLast? _ hlast
    have htext : ∀ char ∈ (parts webhookUrl).query.dropLast ++
        (parts webhookUrl).query, isUnsafeUrlByte char = false := by
      intro char hchar
      apply mem_parts_plain haccepted.netloc_ne
      right
      rcases List.mem_append.mp hchar with hfront | hend
      · exact List.mem_of_mem_dropLast hfront
      · exact hend
    rcases infix_append_separator (infix_separator haccepted htext hfound) with
      hfront | hquery | hhead
    · exact hplain.single (hfront.trans (List.dropLast_prefix _).isInfix)
    · exact hplain.single hquery
    · -- the query would be found in front of itself
      refine hfirst 0 ?_ ?_
      · rw [List.length_dropLast]
        omega
      · obtain ⟨tail, htail⟩ := List.head?_eq_some_iff.mp hhead
        rw [List.drop_zero]
        nth_rewrite 1 [← hwhole]
        rw [List.prefix_append_right_inj, htail]
        exact ⟨tail, rfl⟩

/-- A path without brackets is no piece of the marker. -/
theorem not_infix_redacted (hhead : ∀ char ∈ path.head?, char = '/')
    (hlong : 1 < path.length) (hopen : '<' ∉ path) : ¬path <:+: redacted := by
  intro hfound
  rcases List.infix_cons_iff.mp hfound with hbegins | hinside
  · have hstart : ['/', '<'] <+: path :=
      List.prefix_of_prefix_length_le ⟨"redacted>".toList, rfl⟩ hbegins hlong
    exact hopen (hstart.subset (by decide))
  · cases path with
    | nil => cases hlong
    | cons head tail =>
        obtain rfl := hhead head rfl
        have hslash := hinside.subset List.mem_cons_self
        exact absurd hslash (by decide)

/-- The message of a text which the query follows. -/
theorem redactedMessage_completed (haccepted : Accepted library webhookUrl)
    (hplain : PlainSecrets (parts webhookUrl).path (parts webhookUrl).query)
    (hmem : secret ∈ [(parts webhookUrl).path, (parts webhookUrl).query])
    (hlong : 1 < secret.length)
    (hcompleted : Completed (parts webhookUrl).path (parts webhookUrl).query
      secret) :
    redactedMessage library (secret.dropLast ++ (parts webhookUrl).query)
        webhookUrl =
      (secret.dropLast ++ redacted).take errorMaxChars := by
  obtain ⟨hquery, -, hlast, hfirst, hpath⟩ := hcompleted
  have hne : (parts webhookUrl).query ≠ [] := by
    intro hnone
    rw [hnone] at hquery
    cases hquery
  have hurl := not_infix_url haccepted hplain hmem hlast hfirst hlong
  rw [redactedMessage, replaceAll_of_not_infix hurl]
  have hkept : redactSecret (secret.dropLast ++ (parts webhookUrl).query)
      (parts webhookUrl).path = secret.dropLast ++ (parts webhookUrl).query := by
    rw [redactSecret]
    split
    next hpathLong =>
      exact replaceAll_of_not_infix (hpath hpathLong
        (not_infix_redacted (path_head haccepted.netloc_ne) hpathLong
          (hplain.letters _ List.mem_cons_self).2.1))
    · rfl
  rw [hkept, redactSecret, if_pos hquery, replaceAll_firstAt hne hfirst]

/-- A text completed by the marker of the query is in the error. -/
theorem infix_safeError_of_completed (name : Text)
    (haccepted : Accepted library webhookUrl)
    (hplain : PlainSecrets (parts webhookUrl).path (parts webhookUrl).query)
    (hmem : secret ∈ [(parts webhookUrl).path, (parts webhookUrl).query])
    (hlong : 1 < secret.length)
    (hcompleted : Completed (parts webhookUrl).path (parts webhookUrl).query
      secret) :
    ∃ message error, safeError library name message webhookUrl = .ok error ∧
      secret <:+: error := by
  have hvalue := redactedMessage_completed haccepted hplain hmem hlong hcompleted
  obtain ⟨-, hshort, hlast, -, -⟩ := hcompleted
  have hsecret : secret <+:
      (secret.dropLast ++ redacted).take errorMaxChars := by
    rw [List.prefix_take_iff]
    refine ⟨?_, hshort⟩
    nth_rewrite 1 [← List.dropLast_append_getLast? _ hlast]
    exact (List.prefix_append_right_inj _).mpr ⟨"<redacted>".toList, rfl⟩
  refine ⟨secret.dropLast ++ (parts webhookUrl).query, _,
    safeError_eq haccepted, ?_⟩
  rw [hvalue]
  split
  · exact hsecret.isInfix.trans (List.suffix_append _ _).isInfix
  next hempty =>
    rw [not_not] at hempty
    rw [hempty, List.prefix_nil] at hsecret
    rw [hsecret] at hlong
    cases hlong

/-- Without a blank only the name and its colon can be a part of a secret. -/
theorem infix_name_of_spans (hblank : ' ' ∉ secret)
    (hspans : SpansName name path query secret) :
    secret <:+: name ++ ": ".toList := by
  rcases hspans with hname |
    ⟨front, rest, hfront, -, ⟨before, hbefore⟩, -, -, rfl⟩
  · exact hname
  · -- the last letter of the front would be the blank
    exfalso
    have hend := congrArg List.getLast? hbefore
    rw [List.getLast?_append_of_ne_nil _ hfront,
      List.getLast?_append_of_ne_nil _ (by decide)] at hend
    exact hblank (List.mem_append_left rest (List.mem_of_getLast? hend))

/-- A secret which begins in the name is in the error of any message. -/
theorem infix_safeError_of_spans (haccepted : Accepted library webhookUrl)
    (hblank : ' ' ∉ secret) (hspans : SpansName name path query secret) :
    ∃ message error, safeError library name message webhookUrl = .ok error ∧
      secret <:+: error := by
  have hurl : webhookUrl ≠ [] := by
    rintro rfl
    exact haccepted.netloc_ne rfl
  have hmessage : redactedMessage library ['-'] webhookUrl ≠ [] :=
    redactedMessage_ne_nil hurl (by simp)
  refine ⟨['-'], _, safeError_eq haccepted, ?_⟩
  rw [if_pos hmessage]
  exact (infix_name_of_spans hblank hspans).trans
    (List.prefix_append _ _).isInfix

theorem guarded_of_kept (haccepted : Accepted library webhookUrl)
    (hplain : PlainSecrets (parts webhookUrl).path (parts webhookUrl).query)
    (hkept : ∀ message error,
      safeError library name message webhookUrl = .ok error →
        SecretsKept name (parts webhookUrl) error) :
    Guarded name (parts webhookUrl).path (parts webhookUrl).query where
  apart secret hmem _ :=
    apart_of_plain (hplain.letters secret hmem).2.1 (hplain.letters secret hmem).2.2
  completed secret hmem hsecret hcompleted := by
    obtain ⟨message, error, herror, hfound⟩ := infix_safeError_of_completed name
      haccepted hplain hmem hsecret.1 hcompleted
    exact hkept message error herror secret hmem hsecret hfound
  spans secret hmem hsecret hspans := by
    obtain ⟨message, error, herror, hfound⟩ := infix_safeError_of_spans
      haccepted (hplain.letters secret hmem).1 hspans
    exact hkept message error herror secret hmem hsecret hfound

end Redaction

/-- The error of an accepted URL is always written.  No text of an exception
makes it show path or query if nothing that is inserted can become a part of
them; without blanks and brackets this is also necessary. -/
theorem webhook_secrets_kept
    {library : WebhookLibrary} {settings : WebhookSettings} {webhookUrl : Text}
    (haccepted : validateWebhookUrl library settings webhookUrl = .ok ())
    (name : Text) :
    (∀ message, ∃ error,
      safeError library name message webhookUrl = .ok error) ∧
    (Guarded name (parts webhookUrl).path (parts webhookUrl).query →
      ∀ message error, safeError library name message webhookUrl = .ok error →
        SecretsKept name (parts webhookUrl) error) ∧
    (PlainSecrets (parts webhookUrl).path (parts webhookUrl).query →
      (∀ message error, safeError library name message webhookUrl = .ok error →
        SecretsKept name (parts webhookUrl) error) →
      Guarded name (parts webhookUrl).path (parts webhookUrl).query) := by
  have hurl := accepted_of_validate haccepted
  refine ⟨fun message => ⟨_, safeError_eq hurl⟩, ?_, ?_⟩
  · intro hguarded message error herror
    exact kept_of_guarded hurl hguarded herror
  · intro hplain hkept
    exact guarded_of_kept hurl hplain hkept

/-! ## A path which ends with a slash -/

def slackLibrary : WebhookLibrary where
  checks :=
    { bracketedHost := fun _ => false
      normalization := fun _ => true }
  lower := List.map Char.toLower

def slackSettings : WebhookSettings where
  insecureHttpHosts := []
  hostAllowlist := ["hooks.slack.com".toList]

def slackUrl : Text := "https://hooks.slack.com/T0/x?k=v".toList

def slashedUrl : Text := "https://hooks.slack.com/a/?q1".toList

theorem slackUrl_guarded :
    Guarded "ConnectError".toList (parts slackUrl).path (parts slackUrl).query := by
  have hsecrets : [(parts slackUrl).path, (parts slackUrl).query] =
      ["/T0/x".toList, "k=v".toList] := by decide
  refine ⟨?_, ?_, ?_⟩
  · rw [hsecrets]
    intro secret hmem _
    have hletters : ∀ secret ∈ ["/T0/x".toList, "k=v".toList],
        '<' ∉ secret ∧ '>' ∉ secret := by decide
    exact apart_of_plain (hletters secret hmem).1 (hletters secret hmem).2
  · rw [hsecrets]
    rintro secret hmem - ⟨-, -, hlast, -⟩
    have hnoSlash : ∀ secret ∈ ["/T0/x".toList, "k=v".toList],
        secret.getLast? ≠ some '/' := by decide
    exact hnoSlash secret hmem hlast
  · rw [hsecrets]
    rintro secret hmem - hspans
    have hapart : ∀ secret ∈ ["/T0/x".toList, "k=v".toList],
        ' ' ∉ secret ∧ ¬secret <:+: "ConnectError".toList ++ ": ".toList := by
      decide
    exact (hapart secret hmem).2
      (infix_name_of_spans (hapart secret hmem).1 hspans)

/-- Nothing can be read of a path and a query without slashes at their end. -/
theorem webhook_secrets_kept_slack :
    validateWebhookUrl slackLibrary slackSettings slackUrl = .ok () ∧
      ∀ message error,
        safeError slackLibrary "ConnectError".toList message slackUrl =
          .ok error →
        SecretsKept "ConnectError".toList (parts slackUrl) error := by
  have haccepted : validateWebhookUrl slackLibrary slackSettings slackUrl =
      .ok () := by decide
  exact ⟨haccepted,
    (webhook_secrets_kept haccepted "ConnectError".toList).2.1 slackUrl_guarded⟩

/-- The marker of the query completes the path. -/
theorem webhook_secret_completed :
    validateWebhookUrl slackLibrary slackSettings slashedUrl = .ok () ∧
      safeError slackLibrary "ConnectError".toList "/aq1".toList slashedUrl =
        .ok "ConnectError: /a/<redacted>".toList ∧
      ¬SecretsKept "ConnectError".toList (parts slashedUrl)
        "ConnectError: /a/<redacted>".toList := by
  refine ⟨by decide, by decide, ?_⟩
  intro hkept
  exact hkept "/a/".toList (by decide) ⟨by decide, by decide, by decide⟩
    (by decide)

end NotifyHub.WebhookErrors
