import NotifyHub.IngestInputs
import NotifyHub.IsoFormat
import NotifyHub.JsonText
import Mathlib.Tactic

/-!
# The messages of Slack and Google Chat

`app.outbound.formatters`, with what an ingestion stores of a body.  A formatter
sees the first characters of the normalised text and the number of bytes of the
original body, and it cuts the escaped text at its own limit.

Both limits lie below the length of a preview.  So a preview which is cut itself
is too long for every formatter, and whatever the count of bytes says does not
matter.
-/

namespace NotifyHub.Formatter

open JsonText

/-! ## What is stored -/

/-- `CONTENT_PREVIEW_CHARS`. -/
def contentPreviewChars : ℕ := 4096

structure StoredBody where
  contentPreview : Text
  contentSize : ℕ
  deriving DecidableEq

/-- `persist_notification` of what `prepare_notification` has made of a body. -/
def storedBody (rawBody : List UInt8) : StoredBody where
  contentPreview := (Ingestion.normalizeBody rawBody).1.take contentPreviewChars
  contentSize := rawBody.length

/-! ## Texts -/

/-- `_ESCAPES.get(char, char)`. -/
def escapeChar : Char → Text
  | '&' => "&amp;".toList
  | '<' => "&lt;".toList
  | '>' => "&gt;".toList
  | char => [char]

def escaped (text : Text) : Text :=
  text.flatMap escapeChar

/-- The loop of `fit_escaped`. -/
def fitLoop (limit : ℕ) : Text → ℕ → Text → Text × Bool
  | out, _, [] => (out, false)
  | out, size, char :: rest =>
      let piece := escapeChar char
      if limit < size + piece.length then (out, true)
      else fitLoop limit (out ++ piece) (size + piece.length) rest

/-- `fit_escaped`. -/
def fitEscaped (text : Text) (limit : ℕ) : Text × Bool :=
  fitLoop limit [] 0 text

/-- `is_stored_truncation`. -/
def isStoredTruncation (contentPreview : Text) (contentSize : ℕ) : Bool :=
  contentPreviewChars ≤ contentPreview.length &&
    (contentPreview.map Char.utf8Size).sum < contentSize

def natText (number : ℕ) : Text :=
  (toString number).toList

def truncationMarker (contentSize : ℕ) : Text :=
  "\n… [troncato, ".toList ++ natText (contentSize / 1024) ++
    " KB totali]".toList

/-! ## Durations -/

/-- `format_duration_ms`. -/
def formatDurationMs (durationMs : ℤ) : Text :=
  let total := (max durationMs 0).toNat
  let seconds := total / 1000
  let millis := total % 1000
  if seconds < 60 then
    natText seconds ++ '.' :: padded 3 millis ++ ['s']
  else
    let hours := seconds / 3600
    let minutes := seconds % 3600 / 60
    let secs := seconds % 3600 % 60
    if hours ≠ 0 then
      natText hours ++ 'h' :: padded 2 minutes ++ 'm' :: padded 2 secs ++ ['s']
    else natText minutes ++ 'm' :: padded 2 secs ++ ['s']

/-- `duration_note`. -/
def durationNote (durationMs thresholdSeconds : Option ℤ) : Option Text :=
  durationMs.map fun durationMs =>
    let shown := "durata ".toList ++ formatDurationMs durationMs
    match thresholdSeconds with
    | none => shown
    | some threshold =>
        if threshold * 1000 < durationMs then
          shown ++ " — oltre la soglia di ".toList ++
            formatDurationMs (threshold * 1000)
        else shown

/-! ## Payloads -/

/-- What a payload says beside the body. -/
structure Alert where
  receiverName : Text
  severity : Text
  notificationUrl : Text
  durationMs : Option ℤ
  durationThresholdSeconds : Option ℤ
  deriving DecidableEq

def slackBodyLimit : ℕ := 2800

def slackHeaderLimit : ℕ := 150

def googleChatBodyLimit : ℕ := 3800

/-- `_COLOR_MAP`. -/
def colorMap : List (Text × Text) :=
  [("critical".toList, "#990000".toList), ("error".toList, "#FF0000".toList),
    ("warning".toList, "#FF9900".toList), ("info".toList, "#808080".toList),
    ("debug".toList, "#808080".toList)]

/-- The first lines of both formatters. -/
def fittedBody (limit : ℕ) (stored : StoredBody) : Text :=
  let (body, cut) := fitEscaped stored.contentPreview limit
  if cut || isStoredTruncation stored.contentPreview stored.contentSize then
    body ++ truncationMarker stored.contentSize
  else body

def slackBody (stored : StoredBody) : Text :=
  let body := fittedBody slackBodyLimit stored
  if body = [] then "(corpo vuoto)".toList else body

def googleChatBody (stored : StoredBody) : Text :=
  fittedBody googleChatBodyLimit stored

def alertTitle (alert : Alert) : Text :=
  alert.severity.map Char.toUpper ++ " — ".toList ++ alert.receiverName

def mrkdwn (text : Text) : Value :=
  .object [("type".toList, .text "mrkdwn".toList), ("text".toList, .text text)]

def contextBlock (text : Text) : Value :=
  .object [("type".toList, .text "context".toList),
    ("elements".toList, .array [mrkdwn text])]

/-- `build_slack_payload`. -/
def buildSlackPayload (alert : Alert) (stored : StoredBody) : Value :=
  let title := alertTitle alert
  let header :=
    if slackHeaderLimit < title.length then
      title.take (slackHeaderLimit - 1) ++ ['…']
    else title
  let note := durationNote alert.durationMs alert.durationThresholdSeconds
  .object
    [("blocks".toList, .array
      ([.object [("type".toList, .text "header".toList),
          ("text".toList, .object
            [("type".toList, .text "plain_text".toList),
              ("text".toList, .text header)])]] ++
        (note.map fun note => contextBlock ("⏱ ".toList ++ note)).toList ++
        [.object [("type".toList, .text "section".toList),
            ("text".toList, mrkdwn (slackBody stored))],
          contextBlock ('<' :: alert.notificationUrl ++
            "|Apri in NotifyHub>".toList)])),
      ("attachments".toList, .array
        [.object [("color".toList,
          .text ((colorMap.lookup alert.severity).getD "#999999".toList))]])]

/-- `build_google_chat_payload`. -/
def buildGoogleChatPayload (alert : Alert) (stored : StoredBody) : Value :=
  let note := durationNote alert.durationMs alert.durationThresholdSeconds
  let header :=
    ("title".toList, Value.text (alertTitle alert)) ::
      (note.map fun note =>
        ("subtitle".toList, Value.text ("⏱ ".toList ++ note))).toList
  let button := Value.object
    [("text".toList, .text "Apri in NotifyHub".toList),
      ("onClick".toList, .object [("openLink".toList, .object
        [("url".toList, .text alert.notificationUrl)])])]
  .object
    [("cardsV2".toList, .array
      [.object
        [("cardId".toList, .text "notifyhub-alert".toList),
          ("card".toList, .object
            [("header".toList, .object header),
              ("sections".toList, .array
                [.object [("widgets".toList, .array
                  [.object [("textParagraph".toList, .object
                      [("text".toList, .text (googleChatBody stored))])],
                    .object [("buttonList".toList, .object
                      [("buttons".toList, .array [button])])]])]])])]])]

/-! ## What the loop keeps -/

theorem escaped_cons (char : Char) (rest : Text) :
    escaped (char :: rest) = escapeChar char ++ escaped rest :=
  List.flatMap_cons

theorem one_le_length_escapeChar (char : Char) :
    1 ≤ (escapeChar char).length := by
  unfold escapeChar
  split
  · decide
  · decide
  · decide
  · exact le_rfl

theorem length_le_length_escaped (text : Text) :
    text.length ≤ (escaped text).length := by
  induction text with
  | nil => exact le_rfl
  | cons char rest ih =>
      have hpiece := one_le_length_escapeChar char
      rw [escaped_cons, List.length_cons, List.length_append]
      omega

/-- The loop stops exactly if what is left does not fit. -/
theorem fitLoop_cut
    {limit size : ℕ} (hsize : size ≤ limit) (out text : Text) :
    (fitLoop limit out size text).2 = true ↔
      limit < size + (escaped text).length := by
  induction text generalizing out size with
  | nil =>
      have hfits : ¬limit < size + (escaped []).length :=
        Nat.not_lt.mpr hsize
      exact iff_of_false Bool.false_ne_true hfits
  | cons char rest ih =>
      have hlength : (escaped (char :: rest)).length =
          (escapeChar char).length + (escaped rest).length := by
        rw [escaped_cons, List.length_append]
      rw [fitLoop, hlength]
      by_cases hstops : limit < size + (escapeChar char).length
      · rw [if_pos hstops]
        simp only [true_iff]
        omega
      · have hnext := ih (Nat.le_of_not_lt hstops) (out ++ escapeChar char)
        rw [if_neg hstops, hnext, Nat.add_assoc]

theorem fitLoop_uncut
    {limit size : ℕ} {out text : Text}
    (huncut : (fitLoop limit out size text).2 = false) :
    (fitLoop limit out size text).1 = out ++ escaped text := by
  induction text generalizing out size with
  | nil => exact (List.append_nil out).symm
  | cons char rest ih =>
      rw [fitLoop] at huncut ⊢
      by_cases hstops : limit < size + (escapeChar char).length
      · rw [if_pos hstops] at huncut
        cases huncut
      · rw [if_neg hstops] at huncut ⊢
        rw [ih huncut, escaped_cons, List.append_assoc]

theorem fitEscaped_cut (text : Text) (limit : ℕ) :
    (fitEscaped text limit).2 = true ↔ limit < (escaped text).length := by
  rw [fitEscaped, fitLoop_cut limit.zero_le, Nat.zero_add]

theorem fitEscaped_uncut
    {text : Text} {limit : ℕ} (hfits : (escaped text).length ≤ limit) :
    (fitEscaped text limit).1 = escaped text := by
  apply fitLoop_uncut
  rw [← Bool.not_eq_true]
  exact fun hcut => Nat.not_lt.mpr hfits ((fitEscaped_cut text limit).mp hcut)

/-! ## Previews -/

theorem length_escaped_take_le (text : Text) (count : ℕ) :
    (escaped (text.take count)).length ≤ (escaped text).length := by
  have hsplit : (escaped text).length = (escaped (text.take count)).length +
      (escaped (text.drop count)).length := by
    rw [← List.length_append, escaped, escaped, escaped, ← List.flatMap_append,
      List.take_append_drop]
  omega

/-- The escape of a preview is too long for a limit below the length of a
preview exactly if the one of the whole text is. -/
theorem length_escaped_preview
    {limit : ℕ} (hlimit : limit < contentPreviewChars) (text : Text) :
    limit < (escaped (text.take contentPreviewChars)).length ↔
      limit < (escaped text).length := by
  constructor
  · intro hpreview
    exact hpreview.trans_le (length_escaped_take_le text contentPreviewChars)
  · intro hfull
    by_cases hshort : text.length ≤ contentPreviewChars
    · rw [List.take_of_length_le hshort]
      exact hfull
    · have hlength : (text.take contentPreviewChars).length =
          contentPreviewChars := by
        rw [List.length_take]
        omega
      have hpreview :=
        length_le_length_escaped (text.take contentPreviewChars)
      omega

/-- Whatever the count of bytes says, the marker stands where the whole text is
too long. -/
theorem marked_iff
    {limit : ℕ} (hlimit : limit < contentPreviewChars) (text : Text)
    (contentSize : ℕ) :
    ((fitEscaped (text.take contentPreviewChars) limit).2 ||
      isStoredTruncation (text.take contentPreviewChars) contentSize) = true ↔
      limit < (escaped text).length := by
  rw [Bool.or_eq_true, fitEscaped_cut, length_escaped_preview hlimit]
  constructor
  · rintro (hlong | hstored)
    · exact hlong
    · have hpreview : contentPreviewChars ≤
          (text.take contentPreviewChars).length := by
        rw [isStoredTruncation, Bool.and_eq_true] at hstored
        exact of_decide_eq_true hstored.1
      have htext := List.length_take_le contentPreviewChars text
      have hescaped := length_le_length_escaped
        (text.take contentPreviewChars)
      have hfull := length_escaped_take_le text contentPreviewChars
      omega
  · exact Or.inl

/-! ## Messages -/

/-- The normalised text of a body, as a formatter would write all of it. -/
def fullText (rawBody : List UInt8) : Text :=
  escaped (Ingestion.normalizeBody rawBody).1

/-- The body of a message for a text which is too long: the first characters of
the text, and the marker. -/
def Announces (limit : ℕ) (rawBody : List UInt8) (body : Text) : Prop :=
  body = (fitEscaped (storedBody rawBody).contentPreview limit).1 ++
    truncationMarker rawBody.length

theorem fittedBody_eq
    {limit : ℕ} (hlimit : limit < contentPreviewChars) (rawBody : List UInt8) :
    fittedBody limit (storedBody rawBody) =
      if limit < (fullText rawBody).length then
        (fitEscaped (storedBody rawBody).contentPreview limit).1 ++
          truncationMarker rawBody.length
      else fullText rawBody := by
  have hmarked := marked_iff hlimit (Ingestion.normalizeBody rawBody).1
    rawBody.length
  rw [fittedBody]
  by_cases hlong : limit < (fullText rawBody).length
  · rw [if_pos hlong]
    exact if_pos (hmarked.mpr hlong)
  · rw [if_neg hlong]
    have hpreview : (escaped (storedBody rawBody).contentPreview).length ≤
        limit :=
      (length_escaped_take_le _ _).trans (Nat.le_of_not_lt hlong)
    have hwhole : (storedBody rawBody).contentPreview =
        (Ingestion.normalizeBody rawBody).1 := by
      have hlength := length_le_length_escaped
        (Ingestion.normalizeBody rawBody).1
      apply List.take_of_length_le
      rw [fullText] at hlong
      omega
    have hkept := fitEscaped_uncut hpreview
    rw [hwhole] at hkept
    refine (if_neg fun hcut => hlong (hmarked.mp hcut)).trans ?_
    rw [hwhole]
    exact hkept

theorem truncationMarker_ne_nil (contentSize : ℕ) :
    truncationMarker contentSize ≠ [] :=
  List.append_ne_nil_of_right_ne_nil _ (by decide)

/-- A body carries the marker exactly if the whole text is too long. -/
theorem announces_fittedBody
    {limit : ℕ} (hlimit : limit < contentPreviewChars) (rawBody : List UInt8) :
    Announces limit rawBody (fittedBody limit (storedBody rawBody)) ↔
      limit < (fullText rawBody).length := by
  have hbody := fittedBody_eq hlimit rawBody
  by_cases hlong : limit < (fullText rawBody).length
  · rw [if_pos hlong] at hbody
    exact iff_of_true hbody hlong
  · refine iff_of_false ?_ hlong
    intro hannounces
    have hmarked := marked_iff hlimit (Ingestion.normalizeBody rawBody).1
      rawBody.length
    have hplain : fittedBody limit (storedBody rawBody) =
        (fitEscaped (storedBody rawBody).contentPreview limit).1 :=
      if_neg fun hcut => hlong (hmarked.mp hcut)
    rw [Announces, hplain] at hannounces
    exact truncationMarker_ne_nil rawBody.length
      (List.append_right_eq_self.mp hannounces.symm)

/-! ## Payloads -/

def member (name : Text) : Value → Option Value
  | .object members => members.lookup name
  | _ => none

def elements : Value → List Value
  | .array elements => elements
  | _ => []

def textOf : Value → Option Text
  | .text value => some value
  | _ => none

/-- The text of the section block. -/
def slackText (payload : Value) : Option Text := do
  let blocks ← member "blocks".toList payload
  let block ← (elements blocks).find? fun block =>
    (member "type".toList block).bind textOf = some "section".toList
  let text ← member "text".toList block
  (member "text".toList text).bind textOf

/-- The text of the first widget of the card. -/
def googleChatText (payload : Value) : Option Text := do
  let cards ← member "cardsV2".toList payload
  let card ← (elements cards).head?.bind (member "card".toList)
  let sections ← member "sections".toList card
  let widgets ← (elements sections).head?.bind (member "widgets".toList)
  let paragraph ←
    (elements widgets).head?.bind (member "textParagraph".toList)
  (member "text".toList paragraph).bind textOf

theorem slackText_build (alert : Alert) (stored : StoredBody) :
    slackText (buildSlackPayload alert stored) = some (slackBody stored) := by
  unfold buildSlackPayload
  cases durationNote alert.durationMs alert.durationThresholdSeconds with
  | none => rfl
  | some note => rfl

theorem googleChatText_build (alert : Alert) (stored : StoredBody) :
    googleChatText (buildGoogleChatPayload alert stored) =
      some (googleChatBody stored) :=
  rfl

theorem ne_append_of_getLast?
    {text kept last : Text} (hlast : last ≠ [])
    (hne : text.getLast? ≠ last.getLast?) : text ≠ kept ++ last := by
  rintro rfl
  apply hne
  rw [List.getLast?_append, List.getLast?_eq_some_getLast hlast, Option.some_or]

/-- The placeholder of an empty body does not end like the marker. -/
theorem placeholder_ne_marked (kept : Text) (contentSize : ℕ) :
    "(corpo vuoto)".toList ≠ kept ++ truncationMarker contentSize := by
  have hne : "(corpo vuoto)".toList.getLast? ≠ " KB totali]".toList.getLast? := by
    decide
  have hsplit := List.append_assoc kept
    ("\n… [troncato, ".toList ++ natText (contentSize / 1024))
    " KB totali]".toList
  exact hsplit ▸ ne_append_of_getLast? (by decide) hne

theorem announces_slackBody (rawBody : List UInt8) :
    Announces slackBodyLimit rawBody (slackBody (storedBody rawBody)) ↔
      slackBodyLimit < (fullText rawBody).length := by
  have hlimit : slackBodyLimit < contentPreviewChars := by decide
  have hfitted := announces_fittedBody hlimit rawBody
  by_cases hempty : fittedBody slackBodyLimit (storedBody rawBody) = []
  · have hbody : slackBody (storedBody rawBody) = "(corpo vuoto)".toList :=
      if_pos hempty
    have hshort : ¬slackBodyLimit < (fullText rawBody).length := by
      rw [← hfitted, hempty, Announces]
      intro hmarked
      exact truncationMarker_ne_nil _ (List.append_eq_nil_iff.mp hmarked.symm).2
    rw [hbody]
    exact iff_of_false (placeholder_ne_marked _ _) hshort
  · have hbody : slackBody (storedBody rawBody) =
        fittedBody slackBodyLimit (storedBody rawBody) :=
      if_neg hempty
    rw [hbody]
    exact hfitted

/-- Both messages of a stored notification carry the marker exactly if the
whole text is too long for them. -/
theorem truncation_announced (alert : Alert) (rawBody : List UInt8) :
    ∃ slack chat,
      slackText (buildSlackPayload alert (storedBody rawBody)) = some slack ∧
      googleChatText (buildGoogleChatPayload alert (storedBody rawBody)) =
        some chat ∧
      (Announces slackBodyLimit rawBody slack ↔
        slackBodyLimit < (fullText rawBody).length) ∧
      (Announces googleChatBodyLimit rawBody chat ↔
        googleChatBodyLimit < (fullText rawBody).length) := by
  refine ⟨_, _, slackText_build alert _, googleChatText_build alert _, ?_, ?_⟩
  · exact announces_slackBody rawBody
  · exact announces_fittedBody (by decide) rawBody

end NotifyHub.Formatter
