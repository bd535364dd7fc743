import NotifyHub.HexText
import NotifyHub.IsoFormat
import NotifyHub.IngestInputs
import Mathlib.Tactic

/-!
# Cursors

The text of a cursor: a moment and an identifier in URL-safe base64.  What is
written is read back as it was; anything which cannot be read is refused.
-/

namespace NotifyHub

/-! ## Identifiers -/

/-- `uuid.UUID`, as an integer; the bytes are in the same order. -/
abbrev Uuid := Fin (2 ^ 128)

instance uuid_neZero : NeZero (2 ^ 128) := inferInstance

/-- `str` of a UUID. -/
def uuidText (id : Uuid) : Text :=
  let hex := hexText 32 id.val
  hex.take 8 ++ '-' :: (hex.drop 8).take 4 ++ '-' :: (hex.drop 12).take 4 ++
    '-' :: (hex.drop 16).take 4 ++ '-' :: hex.drop 20

def isBrace (char : Char) : Bool :=
  char = '{' || char = '}'

/-- `text.strip('{}')`. -/
def stripBraces (text : Text) : Text :=
  ((text.dropWhile isBrace).reverse.dropWhile isBrace).reverse

/-- `uuid.UUID` of a text which has no URN prefix. -/
def uuidOfText (text : Text) : Option Uuid :=
  let hex := (stripBraces text).filter fun char => char ≠ '-'
  if hex.length = 32 then
    (hexNumber hex).bind fun number =>
      if hbound : number < 2 ^ 128 then some ⟨number, hbound⟩ else none
  else none

theorem stripBraces_of_plain
    {text : Text} (hplain : ∀ char ∈ text, char ≠ '{' ∧ char ≠ '}') :
    stripBraces text = text := by
  have hkept : ∀ chars : Text, (∀ char ∈ chars, char ≠ '{' ∧ char ≠ '}') →
      chars.dropWhile isBrace = chars := by
    intro chars hchars
    cases chars with
    | nil => rfl
    | cons head tail =>
        obtain ⟨hopen, hclose⟩ := hchars head (by simp)
        simp [isBrace, hopen, hclose]
  rw [stripBraces, hkept text hplain, hkept text.reverse, List.reverse_reverse]
  intro char hchar
  exact hplain char (List.mem_reverse.mp hchar)

theorem groups_append (hex : Text) :
    hex.take 8 ++ ((hex.drop 8).take 4 ++ ((hex.drop 12).take 4 ++
      ((hex.drop 16).take 4 ++ hex.drop 20))) = hex := by
  have hjoin : ∀ first, (hex.drop first).take 4 ++ hex.drop (first + 4) =
      hex.drop first := by
    intro first
    rw [← List.drop_drop, List.take_append_drop]
  rw [hjoin 16, hjoin 12, hjoin 8, List.take_append_drop]

/-- Without its hyphens the text of a UUID is its hexadecimal text. -/
theorem filter_uuidText (id : Uuid) :
    (uuidText id).filter (fun char => char ≠ '-') = hexText 32 id.val := by
  have hplain : ∀ digit < 16, hexChar digit ≠ '-' := by decide
  have hparts : (uuidText id).filter (fun char => char ≠ '-') =
      (hexText 32 id.val).filter fun char => char ≠ '-' := by
    conv_rhs => rw [← groups_append (hexText 32 id.val)]
    simp [uuidText]
  rw [hparts, List.filter_eq_self]
  intro char hchar
  obtain ⟨digit, hdigit, rfl⟩ := exists_hexChar_of_mem_hexText hchar
  simpa using hplain digit hdigit

theorem mem_uuidText
    {id : Uuid} {char : Char} (hmem : char ∈ uuidText id) :
    char = '-' ∨ ∃ digit < 16, char = hexChar digit := by
  by_cases hhyphen : char = '-'
  · exact .inl hhyphen
  · right
    have hfilter : char ∈ hexText 32 id.val := by
      rw [← filter_uuidText, List.mem_filter]
      exact ⟨hmem, by simpa using hhyphen⟩
    exact exists_hexChar_of_mem_hexText hfilter

theorem uuidOfText_uuidText (id : Uuid) :
    uuidOfText (uuidText id) = some id := by
  have hplain : ∀ char ∈ uuidText id, char ≠ '{' ∧ char ≠ '}' := by
    intro char hchar
    rcases mem_uuidText hchar with rfl | ⟨digit, hdigit, rfl⟩
    · decide
    · have hdigits : ∀ digit < 16, hexChar digit ≠ '{' ∧ hexChar digit ≠ '}' := by
        decide
      exact hdigits digit hdigit
  have hbound : id.val < 16 ^ 32 := id.isLt
  simp only [uuidOfText, stripBraces_of_plain hplain, filter_uuidText,
    length_hexText, if_true, hexNumber_hexText hbound, Option.bind_some,
    dif_pos id.isLt]

/-! ## Base64 -/

/-- The URL-safe alphabet. -/
def sextetChar (sextet : ℕ) : Char :=
  if sextet < 26 then Char.ofNat (sextet + 65)
  else if sextet < 52 then Char.ofNat (sextet + 71)
  else if sextet < 62 then Char.ofNat (sextet - 4)
  else if sextet = 62 then '-'
  else '_'

/-- The place of a character, of either alphabet. -/
def sextetOf (char : Char) : Option ℕ :=
  if 'A' ≤ char ∧ char ≤ 'Z' then some (char.toNat - 65)
  else if 'a' ≤ char ∧ char ≤ 'z' then some (char.toNat - 71)
  else if char.isDigit then some (char.toNat + 4)
  else if char = '-' ∨ char = '+' then some 62
  else if char = '_' ∨ char = '/' then some 63
  else none

/-- `base64.urlsafe_b64encode`. -/
def urlsafeB64encode : List UInt8 → Text
  | [] => []
  | [first] =>
      [sextetChar (first.toNat / 4), sextetChar (first.toNat % 4 * 16), '=', '=']
  | [first, second] =>
      [sextetChar (first.toNat / 4),
        sextetChar (first.toNat % 4 * 16 + second.toNat / 16),
        sextetChar (second.toNat % 16 * 4), '=']
  | first :: second :: third :: rest =>
      sextetChar (first.toNat / 4) ::
        sextetChar (first.toNat % 4 * 16 + second.toNat / 16) ::
        sextetChar (second.toNat % 16 * 4 + third.toNat / 64) ::
        sextetChar (third.toNat % 64) :: urlsafeB64encode rest

/-- What a character adds in its place of a group of four: a byte, the next
place, and the bits which are left. -/
def takeSextet (place left sextet : ℕ) : List UInt8 × ℕ × ℕ :=
  match place with
  | 0 => ([], 1, sextet)
  | 1 => ([UInt8.ofNat (left * 4 + sextet / 16)], 2, sextet % 16)
  | 2 => ([UInt8.ofNat (left * 16 + sextet / 4)], 3, sextet % 4)
  | _ => ([UInt8.ofNat (left * 64 + sextet)], 0, 0)

/-- `binascii.a2b_base64` from a place on, with the padding so far; other
characters are skipped. -/
def a2bBase64 (place left pads : ℕ) : Text → Option (List UInt8)
  | [] => if place = 0 then some [] else none
  | char :: rest =>
      if char = '=' then
        if place < 2 then a2bBase64 place left pads rest
        else if 4 ≤ place + (pads + 1) then some []
        else a2bBase64 place left (pads + 1) rest
      else
        match sextetOf char with
        | none => a2bBase64 place left pads rest
        | some sextet =>
            let (bytes, next, bits) := takeSextet place left sextet
            (a2bBase64 next bits 0 rest).map (bytes ++ ·)

/-- `base64.urlsafe_b64decode`. -/
def urlsafeB64decode (text : Text) : Option (List UInt8) :=
  a2bBase64 0 0 0 text

theorem sextetOf_sextetChar :
    ∀ sextet < 64, sextetOf (sextetChar sextet) = some sextet ∧
      sextetChar sextet ≠ '=' := by
  decide

/-- One character which carries bits. -/
theorem a2bBase64_sextetChar
    (place left pads : ℕ) {sextet : ℕ} (rest : Text) (hsextet : sextet < 64) :
    a2bBase64 place left pads (sextetChar sextet :: rest) =
      (a2bBase64 (takeSextet place left sextet).2.1
        (takeSextet place left sextet).2.2 0 rest).map
          ((takeSextet place left sextet).1 ++ ·) := by
  obtain ⟨hvalue, hpad⟩ := sextetOf_sextetChar sextet hsextet
  simp only [a2bBase64, if_neg hpad, hvalue]

/-- The bits of a byte, put together again. -/
theorem ofNat_eq_of_toNat
    {number : ℕ} (byte : UInt8) (hnumber : number = byte.toNat) :
    UInt8.ofNat number = byte := by
  rw [hnumber, UInt8.ofNat_toNat]

theorem urlsafeB64decode_urlsafeB64encode (bytes : List UInt8) :
    urlsafeB64decode (urlsafeB64encode bytes) = some bytes := by
  unfold urlsafeB64decode
  fun_induction urlsafeB64encode bytes with
  | case1 => rfl
  | case2 first =>
      have hfirst := first.toNat_lt
      rw [a2bBase64_sextetChar 0 0 0 _ (by omega)]
      simp only [takeSextet]
      rw [a2bBase64_sextetChar 1 _ 0 _ (by omega)]
      simp only [takeSextet]
      rw [ofNat_eq_of_toNat first (by omega)]
      rfl
  | case3 first second =>
      have hfirst := first.toNat_lt
      have hsecond := second.toNat_lt
      rw [a2bBase64_sextetChar 0 0 0 _ (by omega)]
      simp only [takeSextet]
      rw [a2bBase64_sextetChar 1 _ 0 _ (by omega)]
      simp only [takeSextet]
      rw [a2bBase64_sextetChar 2 _ 0 _ (by omega)]
      simp only [takeSextet]
      rw [ofNat_eq_of_toNat first (by omega),
        ofNat_eq_of_toNat second (by omega)]
      rfl
  | case4 first second third rest ih =>
      have hfirst := first.toNat_lt
      have hsecond := second.toNat_lt
      have hthird := third.toNat_lt
      rw [a2bBase64_sextetChar 0 0 0 _ (by omega)]
      simp only [takeSextet]
      rw [a2bBase64_sextetChar 1 _ 0 _ (by omega)]
      simp only [takeSextet]
      rw [a2bBase64_sextetChar 2 _ 0 _ (by omega)]
      simp only [takeSextet]
      rw [a2bBase64_sextetChar 3 _ 0 _ (by omega)]
      simp only [takeSextet]
      rw [ofNat_eq_of_toNat first (by omega),
        ofNat_eq_of_toNat second (by omega), ofNat_eq_of_toNat third (by omega),
        ih]
      rfl

/-! ## Cursors -/

/-- `text.encode()`. -/
def utf8Encode (text : Text) : List UInt8 :=
  text.flatMap String.utf8EncodeChar

/-- `bytes.decode()`, with no value for a `UnicodeDecodeError`. -/
def utf8Decoded (bytes : List UInt8) : Option Text :=
  (Ingestion.utf8Decode none bytes).mapM id

/-- `text.split("|", 1)`, if there are two parts. -/
def splitBar (text : Text) : Option (Text × Text) :=
  match text.span fun char => char ≠ '|' with
  | (before, _ :: after) => some (before, after)
  | (_, []) => none

/-- `_encode_cursor`. -/
def encodeCursor (receivedAt : Datetime) (id : Uuid) : Text :=
  urlsafeB64encode (utf8Encode (isoformat receivedAt ++ '|' :: uuidText id))

/-- `_decode_cursor`; the moments it reads are in UTC. -/
def decodeCursor (cursor : Text) : Except Problem (Instant × Uuid) :=
  let read : Option (Instant × Uuid) := do
    let bytes ← urlsafeB64decode cursor
    let raw ← utf8Decoded bytes
    let (receivedAt, id) ← splitBar raw
    return (← fromisoformat receivedAt, ← uuidOfText id)
  match read with
  | some pair => .ok pair
  | none => .error (validationError "Invalid cursor.".toList)

theorem utf8Decoded_utf8Encode
    {text : Text} (hascii : ∀ char ∈ text, char.toNat < 128) :
    utf8Decoded (utf8Encode text) = some text := by
  induction text with
  | nil => rfl
  | cons char rest ih =>
      have hhead : char.toNat < 128 := hascii char (by simp)
      have htail := ih fun other hother => hascii other (by simp [hother])
      have hbytes : String.utf8EncodeChar char = [UInt8.ofNat char.toNat] := by
        have hshort : char.val.toNat ≤ 127 := Nat.le_of_lt_succ hhead
        simp only [String.utf8EncodeChar, if_pos hshort]
        rfl
      have hbyte : (UInt8.ofNat char.toNat).toNat = char.toNat := by
        rw [UInt8.toNat_ofNat', Nat.mod_eq_of_lt (by omega)]
      rw [utf8Decoded] at htail ⊢
      rw [utf8Encode, List.flatMap_cons, hbytes, List.singleton_append,
        Ingestion.utf8Decode, hbyte]
      simp only [Ingestion.decodeByte, Ingestion.startChar]
      rw [if_pos hhead, Char.ofNat_toNat]
      rw [utf8Encode] at htail
      simp [List.mapM_cons, htail]

theorem splitBar_append
    {before : Text} (after : Text) (hbar : '|' ∉ before) :
    splitBar (before ++ '|' :: after) = some (before, after) := by
  have hspan : (before ++ '|' :: after).span (fun char => char ≠ '|') =
      (before, '|' :: after) := by
    rw [List.span_eq_takeWhile_dropWhile]
    have hkept : ∀ char ∈ before, decide (char ≠ '|') = true := by
      intro char hchar
      have hne : char ≠ '|' := fun heq => hbar (heq ▸ hchar)
      simpa using hne
    rw [List.takeWhile_append_of_pos hkept, List.dropWhile_append_of_pos hkept]
    simp
  rw [splitBar, hspan]

/-! ### Round trip -/

/-- A character which stands in a cursor beside the bar. -/
def cursorChar (char : Char) : Prop :=
  char.toNat < 128 ∧ char ≠ '|'

instance (char : Char) : Decidable (cursorChar char) :=
  inferInstanceAs (Decidable (_ ∧ _))

theorem cursorChar_padded (width number : ℕ) :
    ∀ char ∈ padded width number, cursorChar char := by
  have hdigits : ∀ digit < 10, cursorChar (digitChar digit) := by decide
  induction width generalizing number with
  | zero => nofun
  | succ width ih =>
      rw [padded, List.forall_mem_append, List.forall_mem_singleton]
      exact ⟨ih _, hdigits _ (Nat.mod_lt _ (by decide))⟩

theorem cursorChar_fractionText (microsecond : ℕ) :
    ∀ char ∈ fractionText microsecond, cursorChar char := by
  unfold fractionText
  split
  · nofun
  · rw [List.forall_mem_cons]
    exact ⟨by decide, cursorChar_padded _ _⟩

theorem cursorChar_isoformat (moment : Datetime) :
    ∀ char ∈ isoformat moment, cursorChar char := by
  have hoffset : ∀ char ∈ utcOffset, cursorChar char := by decide
  have hhyphen : cursorChar '-' := by decide
  have hcolon : cursorChar ':' := by decide
  have hletter : cursorChar 'T' := by decide
  simp only [isoformat, dateText, timeText, List.forall_mem_append,
    List.forall_mem_cons, hhyphen, hcolon, hletter, true_and, and_assoc]
  exact ⟨cursorChar_padded _ _, cursorChar_padded _ _, cursorChar_padded _ _,
    cursorChar_padded _ _, cursorChar_padded _ _, cursorChar_padded _ _,
    cursorChar_fractionText _, hoffset⟩

theorem cursorChar_of_mem_uuidText
    {id : Uuid} {char : Char} (hmem : char ∈ uuidText id) :
    cursorChar char := by
  have hdigits : ∀ digit < 16, cursorChar (hexChar digit) := by decide
  rcases mem_uuidText hmem with rfl | ⟨digit, hdigit, rfl⟩
  · decide
  · exact hdigits digit hdigit

/-- A cursor is read back as it was written. -/
theorem decodeCursor_encodeCursor (receivedAt : Datetime) (id : Uuid) :
    decodeCursor (encodeCursor receivedAt id) = .ok (receivedAt.val, id) := by
  have hascii : ∀ char ∈ isoformat receivedAt ++ '|' :: uuidText id,
      char.toNat < 128 := by
    intro char hchar
    rcases List.mem_append.mp hchar with hmoment | hid
    · exact (cursorChar_isoformat _ char hmoment).1
    · rcases List.mem_cons.mp hid with rfl | hid
      · decide
      · exact (cursorChar_of_mem_uuidText hid).1
  have hbar : '|' ∉ isoformat receivedAt := fun hmem =>
    (cursorChar_isoformat _ _ hmem).2 rfl
  simp only [decodeCursor, encodeCursor, urlsafeB64decode_urlsafeB64encode,
    Option.bind_eq_bind, Option.bind_some, utf8Decoded_utf8Encode hascii,
    splitBar_append _ hbar, fromisoformat_isoformat, uuidOfText_uuidText]
  rfl

end NotifyHub
