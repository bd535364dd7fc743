import NotifyHub.ExpectedSchedule
import NotifyHub.UrlSplit
import Mathlib.Data.List.DropRight
import Mathlib.Tactic

/-!
# Public URLs

`app.core.urls`: the origin which links and the downloaded script point to, from
the configuration or from the headers of a request, and the filter of
`app.services.wrapper_script` in front of the script.
-/

namespace NotifyHub.PublicUrls

open UrlSplit

/-! ## Safe texts -/

def isHostChar (char : Char) : Bool :=
  char.isAlphanum || "._~-".toList.contains char

def isIpv6Char (char : Char) : Bool :=
  "0123456789abcdefABCDEF".toList.contains char || ":.".toList.contains char

def isPathChar (char : Char) : Bool :=
  char.isAlphanum || "._~-".toList.contains char

def maxPortDigits : ℕ := 5

/-- The port of an authority, empty without one. -/
def isSafePort (port : Text) : Bool :=
  port.all Char.isDigit && port.length ≤ maxPortDigits

/-- `_is_safe_netloc`. -/
def isSafeNetloc : Text → Bool
  | [] => false
  | '[' :: inside =>
      let address := (partitionAt ']' inside).1
      if ']' ∉ inside then false
      else if address = [] ∨ !address.all isIpv6Char then false
      else
        match (partitionAt ']' inside).2 with
        | [] => true
        | ':' :: port => isSafePort port
        | _ => false
  | netloc =>
      let host := (partitionAt ':' netloc).1
      if host = [] ∨ !host.all isHostChar then false
      else isSafePort (partitionAt ':' netloc).2

/-- `_is_safe_path`. -/
def isSafePath : Text → Bool
  | [] => true
  | '/' :: rest =>
      (rest.splitOn '/').all fun segment =>
        segment ≠ [] && segment.all isPathChar
  | _ => false

/-! ## Normalisation -/

/-- What is taken from Python: `str.isprintable` for a character, the checks of
`urlsplit` and `str.lower`. -/
structure UrlLibrary where
  isPrintable : Char → Bool
  checks : NetlocChecks
  lower : Text → Text

def http : Text := "http".toList

def https : Text := "https".toList

/-- The scheme in front of a bare name. -/
def withScheme (candidate : Text) : Text :=
  if "://".toList <:+: candidate then candidate
  else "https://".toList ++ candidate

def normalizeBaseUrl (library : UrlLibrary) :
    Option Text → Except UrlError (Option Text)
  | none => .ok none
  | some raw =>
      let candidate := strip raw
      if candidate = [] then .ok none
      else if candidate.any fun char =>
          isSpace char || !library.isPrintable char then .ok none
      else do
        let parts ← urlsplit library.checks (withScheme candidate)
        if parts.scheme ≠ http ∧ parts.scheme ≠ https then return none
        if parts.query ≠ [] ∨ parts.fragment ≠ [] then return none
        if !isSafeNetloc parts.netloc then return none
        let path := parts.path.rdropWhile (· = '/')
        if !isSafePath path then return none
        return some (joined parts.scheme parts.netloc path)

/-! ## The origin of a request -/

def defaultBaseUrl : Text := "http://localhost".toList

def loopbackHosts : List Text :=
  ["localhost".toList, "127.0.0.1".toList, "::1".toList, "0.0.0.0".toList]

def isLoopbackBaseUrl (library : UrlLibrary) (url : Text) :
    Except UrlError Bool := do
  let parts ← urlsplit library.checks url
  return loopbackHosts.contains ((parts.hostname library.lower).getD [])

/-- `_first_forwarded_value`. -/
def firstForwardedValue (raw : Option Text) : Option Text :=
  let first := strip ((raw.getD []).takeWhile (· ≠ ','))
  if first = [] then none else some first

/-- What a request says of its own URL. -/
structure RequestOrigin where
  forwardedProto : Option Text
  forwardedHost : Option Text
  forwardedPrefix : Option Text
  host : Option Text
  urlScheme : Text
  urlNetloc : Text

/-- The text which is put together of the headers of a request. -/
def RequestOrigin.text (request : RequestOrigin) : Text :=
  let scheme := (firstForwardedValue request.forwardedProto).getD
    request.urlScheme
  let ownHost := (request.host.filter (· ≠ [])).getD request.urlNetloc
  let host := (firstForwardedValue request.forwardedHost).getD ownHost
  let front := (firstForwardedValue request.forwardedPrefix).getD []
  let path := if front = [] ∨ front.head? = some '/' then front else '/' :: front
  scheme ++ "://".toList ++ host ++ path

def baseUrlFromRequest (library : UrlLibrary) (request : RequestOrigin) :
    Except UrlError (Option Text) :=
  normalizeBaseUrl library (some request.text)

/-- Without a usable configuration the request is asked. -/
def loopbackOnly (library : UrlLibrary) : Option Text → Except UrlError Bool
  | none => .ok true
  | some url => isLoopbackBaseUrl library url

def derivedBaseUrl (library : UrlLibrary) :
    Option RequestOrigin → Except UrlError (Option Text)
  | none => .ok none
  | some request => baseUrlFromRequest library request

/-- `setting` is `notifyhub_public_base_url`. -/
def publicBaseUrl (library : UrlLibrary) (setting : Text)
    (request : Option RequestOrigin) : Except UrlError Text := do
  let configured ← normalizeBaseUrl library (some setting)
  let asked ← loopbackOnly library configured
  if !asked then return configured.getD defaultBaseUrl
  let derived ← derivedBaseUrl library request
  return (derived <|> configured).getD defaultBaseUrl

/-! ## The filter of the script -/

def urlMaxChars : ℕ := 300

def isUrlChar (char : Char) : Bool :=
  char.isAlphanum || ":/._~-[]".toList.contains char

/-- `_is_safe_base_url`. -/
def isSafeBaseUrl (url : Text) : Bool :=
  ("http://".toList.isPrefixOf url || "https://".toList.isPrefixOf url) &&
    url.length ≤ urlMaxChars && url.all isUrlChar

/-! ## The characters of a safe text -/

def isNetlocChar (char : Char) : Bool :=
  char.isAlphanum || "._~-:[]".toList.contains char

theorem lt_of_isUrlChar {char : Char} (hchar : isUrlChar char = true) :
    char.toNat < 128 := by
  rw [isUrlChar, Bool.or_eq_true] at hchar
  rcases hchar with hword | hother
  · delta Char.isAlphanum Char.isAlpha Char.isUpper Char.isLower
      Char.isDigit at hword
    simp only [Bool.or_eq_true, Bool.and_eq_true, decide_eq_true_eq,
      UInt32.le_iff_toNat_le, ge_iff_le] at hword
    have hval : char.toNat = char.val.toNat := rfl
    have hupper : 'Z'.val.toNat = 90 := rfl
    have hlower : 'z'.val.toNat = 122 := rfl
    have hdigit : '9'.val.toNat = 57 := rfl
    omega
  · have hmem := List.contains_iff_mem.mp hother
    have hall : ∀ other ∈ ":/._~-[]".toList, other.toNat < 128 := by decide
    exact hall char hmem

/-- A property of the allowed characters is checked below 128. -/
theorem isUrlChar_forall (holds : Char → Prop)
    (hcheck : ∀ code < 128, isUrlChar (Char.ofNat code) = true →
      holds (Char.ofNat code))
    {char : Char} (hchar : isUrlChar char = true) : holds char := by
  have hcode := hcheck char.toNat (lt_of_isUrlChar hchar)
  rw [Char.ofNat_toNat] at hcode
  exact hcode hchar

theorem isUrlChar_plain {char : Char} (hchar : isUrlChar char = true) :
    ' ' < char ∧ char < '\x7f' ∧ isSpace char = false ∧ char ≠ '?' ∧
      char ≠ '#' :=
  isUrlChar_forall (fun char => ' ' < char ∧ char < '\x7f' ∧
    isSpace char = false ∧ char ≠ '?' ∧ char ≠ '#') (by decide) hchar

/-- Further characters beside the same words. -/
theorem listed_mono
    {fewer more : Text} (hall : ∀ other ∈ fewer, more.contains other = true)
    {isWord : Bool} {char : Char}
    (hchar : (isWord || fewer.contains char) = true) :
    (isWord || more.contains char) = true := by
  rw [Bool.or_eq_true] at hchar ⊢
  exact hchar.imp_right fun hother =>
    hall char (List.contains_iff_mem.mp hother)

theorem isUrlChar_of_isNetlocChar {char : Char}
    (hchar : isNetlocChar char = true) : isUrlChar char = true :=
  listed_mono (by decide) hchar

theorem isNetlocEnd_of_isNetlocChar {char : Char}
    (hchar : isNetlocChar char = true) : isNetlocEnd char = false :=
  isUrlChar_forall
    (fun char => isNetlocChar char = true → isNetlocEnd char = false)
    (by decide) (isUrlChar_of_isNetlocChar hchar) hchar

theorem isUrlChar_of_isPathChar {char : Char} (hchar : isPathChar char = true) :
    isUrlChar char = true :=
  listed_mono (by decide) hchar

theorem isNetlocChar_of_isHostChar {char : Char} (hchar : isHostChar char = true) :
    isNetlocChar char = true :=
  listed_mono (by decide) hchar

theorem isNetlocChar_of_isIpv6Char {char : Char} (hchar : isIpv6Char char = true) :
    isNetlocChar char = true := by
  rw [isIpv6Char, Bool.or_eq_true] at hchar
  have hall : ∀ other ∈ "0123456789abcdefABCDEF:.".toList,
      isNetlocChar other = true := by decide
  apply hall
  rcases hchar with hdigit | hother
  · exact List.mem_append_left ":.".toList (List.contains_iff_mem.mp hdigit)
  · exact List.mem_append_right "0123456789abcdefABCDEF".toList
      (List.contains_iff_mem.mp hother)

theorem isNetlocChar_of_isSafePort {port : Text} (hport : isSafePort port = true) :
    ∀ char ∈ port, isNetlocChar char = true := by
  intro char hchar
  rw [isSafePort, Bool.and_eq_true] at hport
  have hdigit := List.all_eq_true.mp hport.1 char hchar
  simp [isNetlocChar, Char.isAlphanum, hdigit]

theorem isNetlocChar_of_isSafeNetloc {netloc : Text}
    (hsafe : isSafeNetloc netloc = true) :
    ∀ char ∈ netloc, isNetlocChar char = true := by
  intro char hchar
  unfold isSafeNetloc at hsafe
  split at hsafe
  · cases hsafe
  next inside =>
    simp only at hsafe
    split at hsafe
    · cases hsafe
    · split at hsafe
      · cases hsafe
      next haddress =>
        rcases List.mem_cons.mp hchar with rfl | hinside
        · decide
        rcases mem_partitionAt ']' hinside with rfl | hfirst | hlast
        · decide
        · simp only [not_or, Bool.not_eq_true', Bool.not_eq_false] at haddress
          exact isNetlocChar_of_isIpv6Char
            (List.all_eq_true.mp haddress.2 char hfirst)
        · split at hsafe
          next hrest =>
            rw [hrest] at hlast
            cases hlast
          next port hrest =>
            rw [hrest] at hlast
            rcases List.mem_cons.mp hlast with rfl | hport
            · decide
            · exact isNetlocChar_of_isSafePort hsafe char hport
          · cases hsafe
  next =>
    simp only at hsafe
    split at hsafe
    · cases hsafe
    next hhost =>
      rcases mem_partitionAt ':' hchar with rfl | hfirst | hlast
      · decide
      · simp only [not_or, Bool.not_eq_true', Bool.not_eq_false] at hhost
        exact isNetlocChar_of_isHostChar
          (List.all_eq_true.mp hhost.2 char hfirst)
      · exact isNetlocChar_of_isSafePort hsafe char hlast

theorem isSafeNetloc_ne_nil {netloc : Text} (hsafe : isSafeNetloc netloc = true) :
    netloc ≠ [] := by
  rintro rfl
  cases hsafe

/-- A character is a separator or in one of the segments. -/
theorem mem_segments {text : Text} {char : Char} (hchar : char ∈ text) :
    char = '/' ∨ ∃ segment ∈ text.splitOn '/', char ∈ segment := by
  induction text with
  | nil => cases hchar
  | cons head tail ih =>
      rw [List.splitOn_cons_eq_if_modifyHead]
      by_cases hhead : head = '/'
      · rcases List.mem_cons.mp hchar with rfl | htail
        · exact .inl hhead
        · rw [if_pos (by simpa using hhead)]
          refine (ih htail).imp_right ?_
          rintro ⟨segment, hsegment, hmem⟩
          exact ⟨segment, List.mem_cons_of_mem _ hsegment, hmem⟩
      · rw [if_neg (by simpa using hhead)]
        cases hsplit : tail.splitOn '/' with
        | nil => exact absurd hsplit (List.splitOn_ne_nil _ _)
        | cons first others =>
            rw [List.modifyHead_cons]
            rcases List.mem_cons.mp hchar with rfl | htail
            · exact .inr ⟨_, List.mem_cons_self, List.mem_cons_self⟩
            · refine (ih htail).imp_right ?_
              rw [hsplit]
              rintro ⟨segment, hsegment, hmem⟩
              rcases List.mem_cons.mp hsegment with rfl | hother
              · exact ⟨_, List.mem_cons_self, List.mem_cons_of_mem _ hmem⟩
              · exact ⟨segment, List.mem_cons_of_mem _ hother, hmem⟩

theorem isSafePath_chars {path : Text} (hsafe : isSafePath path = true) :
    (∀ char ∈ path.head?, char = '/') ∧
      ∀ char ∈ path, char = '/' ∨ isPathChar char = true := by
  unfold isSafePath at hsafe
  split at hsafe
  · simp
  next rest =>
    refine ⟨fun char hchar => (Option.some.inj hchar).symm, ?_⟩
    intro char hchar
    rcases List.mem_cons.mp hchar with rfl | hrest
    · exact .inl rfl
    · refine (mem_segments hrest).imp_right ?_
      rintro ⟨segment, hsegment, hmem⟩
      have hok := List.all_eq_true.mp hsafe segment hsegment
      rw [Bool.and_eq_true] at hok
      exact List.all_eq_true.mp hok.2 char hmem
  · cases hsafe

/-! ## Normalised URLs -/

/-- `scheme://netloc[/path]` over the allowed characters. -/
def IsPublicUrl (url : Text) : Prop :=
  ∃ scheme netloc path, url = joined scheme netloc path ∧
    (scheme = http ∨ scheme = https) ∧
    netloc ≠ [] ∧ (∀ char ∈ netloc, isNetlocChar char = true) ∧
    (path = [] ∨ path.head? = some '/') ∧
    ∀ char ∈ path, char = '/' ∨ isPathChar char = true

/-- The characters outside the printable ones of ASCII are up to Python. -/
def UrlLibrary.PrintsAscii (library : UrlLibrary) : Prop :=
  ∀ char, ' ' < char → char < '\x7f' → library.isPrintable char = true

/-- What normalisation has found out about a result. -/
structure Normalized (library : UrlLibrary) (url : Text) where
  scheme : Text
  netloc : Text
  path : Text
  url_eq : url = joined scheme netloc path
  scheme_eq : scheme = http ∨ scheme = https
  accepted : NetlocAccepted library.checks netloc
  netloc_safe : isSafeNetloc netloc = true
  path_safe : isSafePath path = true
  path_stripped : path.rdropWhile (· = '/') = path

section Results

variable {library : UrlLibrary} {url : Text}

theorem exists_normalized {raw : Option Text}
    (hresult : normalizeBaseUrl library raw = .ok (some url)) :
    Nonempty (Normalized library url) := by
  cases raw with
  | none => cases hresult
  | some raw =>
      simp only [normalizeBaseUrl] at hresult
      split at hresult
      · cases hresult
      split at hresult
      · cases hresult
      obtain ⟨parts, hsplit, hchecks⟩ := Except.bind_eq_ok.mp hresult
      obtain ⟨haccepted, hparts⟩ := accepted_of_urlsplit hsplit
      split at hchecks
      · cases hchecks
      next hscheme =>
        split at hchecks
        · cases hchecks
        split at hchecks
        · cases hchecks
        next hnetloc =>
          split at hchecks
          · cases hchecks
          next hpath =>
            obtain rfl := Option.some.inj (Except.ok.inj hchecks)
            exact ⟨{
              scheme := parts.scheme
              netloc := parts.netloc
              path := parts.path.rdropWhile (· = '/')
              url_eq := rfl
              scheme_eq := by tauto
              accepted := by
                rw [hparts]
                exact haccepted
              netloc_safe := by simpa using hnetloc
              path_safe := by simpa using hpath
              path_stripped := List.rdropWhile_idempotent _ _ }⟩

theorem Normalized.isScheme (normalized : Normalized library url) :
    IsScheme normalized.scheme := by
  rcases normalized.scheme_eq with hscheme | hscheme
  · rw [hscheme]
    decide
  · rw [hscheme]
    decide

theorem Normalized.url_chars (normalized : Normalized library url) :
    ∀ char ∈ url, isUrlChar char = true := by
  intro char hchar
  rw [normalized.url_eq, joined] at hchar
  have hletters : ∀ char ∈ normalized.scheme ++ "://".toList,
      isUrlChar char = true := by
    rcases normalized.scheme_eq with hscheme | hscheme
    · rw [hscheme]
      decide
    · rw [hscheme]
      decide
  change char ∈ normalized.scheme ++
    ("://".toList ++ (normalized.netloc ++ normalized.path)) at hchar
  rw [← List.append_assoc] at hchar
  rcases List.mem_append.mp hchar with hfront | hrest
  · exact hletters char hfront
  · rcases List.mem_append.mp hrest with hnetloc | hpath
    · exact isUrlChar_of_isNetlocChar
        (isNetlocChar_of_isSafeNetloc normalized.netloc_safe char hnetloc)
    · rcases (isSafePath_chars normalized.path_safe).2 char hpath with rfl | hword
      · decide
      · exact isUrlChar_of_isPathChar hword

theorem Normalized.isPublicUrl (normalized : Normalized library url) :
    IsPublicUrl url := by
  obtain ⟨hhead, hchars⟩ := isSafePath_chars normalized.path_safe
  refine ⟨normalized.scheme, normalized.netloc, normalized.path,
    normalized.url_eq, normalized.scheme_eq,
    isSafeNetloc_ne_nil normalized.netloc_safe,
    isNetlocChar_of_isSafeNetloc normalized.netloc_safe, ?_, hchars⟩
  cases hpath : normalized.path with
  | nil => exact .inl rfl
  | cons head tail =>
      rw [hpath] at hhead
      exact .inr (congrArg some (hhead head rfl))

/-- The parts of a result are the ones which `urlsplit` finds in it. -/
theorem Normalized.urlsplit_eq (normalized : Normalized library url) :
    urlsplit library.checks url =
      .ok ⟨normalized.scheme, normalized.netloc, normalized.path, [], []⟩ := by
  have hplain := fun char hchar =>
    isUrlChar_plain (normalized.url_chars char hchar)
  have hpath : ∀ char ∈ normalized.path, char ∈ url := by
    intro char hchar
    rw [normalized.url_eq, joined]
    exact List.mem_append_right _ (List.mem_cons_of_mem _ (List.mem_cons_of_mem _
      (List.mem_cons_of_mem _ (List.mem_append_right _ hchar))))
  have hjoined := urlsplit_joined normalized.isScheme
    (fun char hchar => isNetlocEnd_of_isNetlocChar
      (isNetlocChar_of_isSafeNetloc normalized.netloc_safe char hchar))
    (isSafePath_chars normalized.path_safe).1
    ⟨fun hquery => (hplain _ (hpath _ hquery)).2.2.2.1 rfl,
      fun hfragment => (hplain _ (hpath _ hfragment)).2.2.2.2 rfl⟩
    (fun char hchar => (hplain char (normalized.url_eq ▸ hchar)).1)
    normalized.accepted
  rw [← normalized.url_eq] at hjoined
  exact hjoined

theorem strip_of_visible {text : Text}
    (hvisible : ∀ char ∈ text, isSpace char = false) : strip text = text := by
  have hkept : ∀ chars : Text, (∀ char ∈ chars, isSpace char = false) →
      chars.dropWhile isSpace = chars := by
    intro chars hchars
    cases chars with
    | nil => rfl
    | cons head tail =>
        rw [List.dropWhile_cons_of_neg]
        simp [hchars head List.mem_cons_self]
  rw [strip, hkept text hvisible, hkept text.reverse, List.reverse_reverse]
  intro char hchar
  exact hvisible char (List.mem_reverse.mp hchar)

theorem Normalized.withScheme_eq (normalized : Normalized library url) :
    withScheme url = url := by
  refine if_pos ⟨normalized.scheme, normalized.netloc ++ normalized.path, ?_⟩
  exact (List.append_assoc _ _ _).trans normalized.url_eq.symm

theorem Normalized.ne_nil (normalized : Normalized library url) : url ≠ [] := by
  rw [normalized.url_eq, joined]
  simp

/-- A result is normalised already. -/
theorem Normalized.fixed (hprints : library.PrintsAscii)
    (normalized : Normalized library url) :
    normalizeBaseUrl library (some url) = .ok (some url) := by
  have hplain := fun char hchar =>
    isUrlChar_plain (normalized.url_chars char hchar)
  have hstrip : strip url = url :=
    strip_of_visible fun char hchar => (hplain char hchar).2.2.1
  have hprintable : ¬(url.any fun char =>
      isSpace char || !library.isPrintable char) = true := by
    rw [List.any_eq_true]
    rintro ⟨char, hchar, hbad⟩
    obtain ⟨hlow, hhigh, hspace, -⟩ := hplain char hchar
    rw [hspace, hprints char hlow hhigh] at hbad
    cases hbad
  simp only [normalizeBaseUrl, hstrip]
  rw [if_neg normalized.ne_nil, if_neg hprintable, normalized.withScheme_eq,
    normalized.urlsplit_eq]
  have hscheme : ¬(normalized.scheme ≠ http ∧ normalized.scheme ≠ https) := by
    have heither := normalized.scheme_eq
    tauto
  have hpath : isSafePath (normalized.path.rdropWhile (· = '/')) = true := by
    rw [normalized.path_stripped]
    exact normalized.path_safe
  simp only [bind, Except.bind, if_neg hscheme, normalized.netloc_safe, hpath]
  rw [normalized.path_stripped, ← normalized.url_eq]
  rfl

theorem Normalized.isSafeBaseUrl (normalized : Normalized library url)
    (hshort : url.length ≤ urlMaxChars) : isSafeBaseUrl url = true := by
  have hstart : ("http://".toList.isPrefixOf url ||
      "https://".toList.isPrefixOf url) = true := by
    rw [normalized.url_eq, joined]
    rcases normalized.scheme_eq with hscheme | hscheme
    · rw [hscheme]
      rfl
    · rw [hscheme]
      rfl
  rw [PublicUrls.isSafeBaseUrl, hstart, Bool.true_and, Bool.and_eq_true,
    decide_eq_true_eq, List.all_eq_true]
  exact ⟨hshort, normalized.url_chars⟩

/-- A text which ends before `urlsplit`, or whose authority it accepts. -/
def SplitsWell (library : UrlLibrary) (raw : Text) : Prop :=
  strip raw = [] ∨
    (∃ char ∈ strip raw,
      isSpace char = true ∨ library.isPrintable char = false) ∨
    NetlocAccepted library.checks (authority (withScheme (strip raw)))

/-- Normalisation raises nothing but what `urlsplit` raises. -/
theorem normalizeBaseUrl_ok_iff (raw : Option Text) :
    (∃ result, normalizeBaseUrl library raw = .ok result) ↔
      ∀ text ∈ raw, SplitsWell library text := by
  cases raw with
  | none => simp [normalizeBaseUrl]
  | some raw =>
      simp only [Option.mem_def, Option.some.injEq, forall_eq', normalizeBaseUrl,
        SplitsWell]
      by_cases hempty : strip raw = []
      · simp [hempty]
      by_cases hplain : ((strip raw).any fun char =>
          isSpace char || !library.isPrintable char) = true
      · rw [if_neg hempty, if_pos hplain]
        simp only [List.any_eq_true, Bool.or_eq_true, Bool.not_eq_true'] at hplain
        exact iff_of_true ⟨none, rfl⟩ (.inr (.inl hplain))
      rw [if_neg hempty, if_neg hplain]
      simp only [List.any_eq_true, Bool.or_eq_true, Bool.not_eq_true'] at hplain
      simp only [hempty, hplain, false_or]
      constructor
      · rintro ⟨result, hresult⟩
        obtain ⟨parts, hsplit, -⟩ := Except.bind_eq_ok.mp hresult
        exact (accepted_of_urlsplit hsplit).1
      · intro haccepted
        rw [urlsplit_of_accepted haccepted]
        simp only [bind, Except.bind]
        split
        · exact ⟨none, rfl⟩
        split
        · exact ⟨none, rfl⟩
        split
        · exact ⟨none, rfl⟩
        split
        · exact ⟨none, rfl⟩
        · exact ⟨_, rfl⟩

end Results

/-- Normalisation returns, and what it returns is a public URL, stays as it is
and passes the filter of the script, exactly if `urlsplit` accepts the text. -/
theorem normalization_total_iff
    {library : UrlLibrary} (hprints : library.PrintsAscii) (raw : Option Text) :
    (∃ result, normalizeBaseUrl library raw = .ok result ∧
      ∀ url ∈ result, IsPublicUrl url ∧
        normalizeBaseUrl library (some url) = .ok (some url) ∧
        (url.length ≤ urlMaxChars → isSafeBaseUrl url = true)) ↔
      ∀ text ∈ raw, SplitsWell library text := by
  rw [← normalizeBaseUrl_ok_iff]
  constructor
  · rintro ⟨result, hresult, -⟩
    exact ⟨result, hresult⟩
  · rintro ⟨result, hresult⟩
    refine ⟨result, hresult, ?_⟩
    rintro url rfl
    obtain ⟨normalized⟩ := exists_normalized hresult
    exact ⟨normalized.isPublicUrl, normalized.fixed hprints,
      normalized.isSafeBaseUrl⟩

/-- Python on ASCII, with the literals of IPv6 loopback. -/
def asciiLibrary : UrlLibrary where
  isPrintable char := ' ' ≤ char && char < '\x7f'
  checks :=
    { bracketedHost := fun netloc => "[::1]".toList.isPrefixOf netloc
      normalization := fun _ => true }
  lower := List.map Char.toLower

theorem asciiLibrary_printsAscii : asciiLibrary.PrintsAscii := by
  intro char hlow hhigh
  have hle : ' ' ≤ char := Nat.le_of_lt hlow
  simp [asciiLibrary, hle, hhigh]

/-- A name without a scheme, with a slash too many. -/
theorem normalization_total_bare :
    normalizeBaseUrl asciiLibrary (some " [::1]:8080/app/ ".toList) =
        .ok (some "https://[::1]:8080/app".toList) ∧
      ∃ result, normalizeBaseUrl asciiLibrary
          (some " [::1]:8080/app/ ".toList) = .ok result ∧
        ∀ url ∈ result, IsPublicUrl url ∧
          normalizeBaseUrl asciiLibrary (some url) = .ok (some url) ∧
          (url.length ≤ urlMaxChars → isSafeBaseUrl url = true) := by
  have hvalue : normalizeBaseUrl asciiLibrary
      (some " [::1]:8080/app/ ".toList) =
        .ok (some "https://[::1]:8080/app".toList) := by decide
  refine ⟨hvalue, ?_⟩
  rw [normalization_total_iff asciiLibrary_printsAscii,
    ← normalizeBaseUrl_ok_iff]
  exact ⟨_, hvalue⟩

/-- A request which calls its host `[`. -/
theorem normalization_raises_bracket :
    ∃ request : RequestOrigin, request.forwardedHost = some "[".toList ∧
      baseUrlFromRequest asciiLibrary request = .error .brackets ∧
      ¬∃ result, normalizeBaseUrl asciiLibrary (some request.text) =
        .ok result := by
  refine ⟨⟨none, some "[".toList, none, none, http, "hub".toList⟩, rfl, ?_, ?_⟩
  · decide
  · rintro ⟨result, hresult⟩
    have hraises : normalizeBaseUrl asciiLibrary (some "http://[".toList) =
        .error .brackets := by decide
    have hsame := hraises.symm.trans hresult
    cases hsame

/-! ## The public URL -/

theorem isPublicUrl_default : IsPublicUrl defaultBaseUrl :=
  ⟨http, "localhost".toList, [], rfl, .inl rfl, by decide, by decide, .inl rfl,
    by simp⟩

theorem isPublicUrl_of_result {library : UrlLibrary} {raw : Option Text}
    {result : Option Text} (hresult : normalizeBaseUrl library raw = .ok result) :
    ∀ url ∈ result, IsPublicUrl url := by
  rintro url rfl
  obtain ⟨normalized⟩ := exists_normalized hresult
  exact normalized.isPublicUrl

/-- Links point to a public URL, whatever the configuration and the headers. -/
theorem publicBaseUrl_isPublicUrl {library : UrlLibrary} {setting url : Text}
    {request : Option RequestOrigin}
    (hresult : publicBaseUrl library setting request = .ok url) :
    IsPublicUrl url := by
  obtain ⟨configured, hconfigured, hrest⟩ := Except.bind_eq_ok.mp hresult
  have hfirst := isPublicUrl_of_result hconfigured
  have hdefault : ∀ result : Option Text, (∀ url ∈ result, IsPublicUrl url) →
      IsPublicUrl (result.getD defaultBaseUrl) := by
    intro result hpublic
    cases result with
    | none => exact isPublicUrl_default
    | some url => exact hpublic url rfl
  obtain ⟨asked, -, hasked⟩ := Except.bind_eq_ok.mp hrest
  cases asked with
  | false =>
      obtain rfl := Except.ok.inj hasked
      exact hdefault configured hfirst
  | true =>
      obtain ⟨derived, hderived, hurl⟩ := Except.bind_eq_ok.mp hasked
      obtain rfl := Except.ok.inj hurl
      apply hdefault
      cases derived with
      | none => exact hfirst
      | some url =>
          cases request with
          | none => cases hderived
          | some request =>
              rw [derivedBaseUrl, baseUrlFromRequest] at hderived
              intro other hother
              exact isPublicUrl_of_result hderived other hother

end NotifyHub.PublicUrls
