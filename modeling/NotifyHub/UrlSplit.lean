import Mathlib.Tactic

/-!
# Splitting URLs

`urllib.parse.urlsplit` on the texts of absolute URLs.  What it asks of other
modules about an authority is a parameter; everything else is the splitting
itself, which a URL made of its parts goes through unchanged.
-/

namespace NotifyHub.UrlSplit

structure SplitResult where
  scheme : List Char
  netloc : List Char
  path : List Char
  query : List Char
  fragment : List Char
  deriving DecidableEq, Repr

/-- The `ValueError`s of `urlsplit`. -/
inductive UrlError
  | brackets
  | bracketedHost
  | normalization
  deriving DecidableEq, Repr

/-- What `ipaddress` accepts of an authority with both brackets, and what
`unicodedata` leaves free of delimiters of one outside ASCII. -/
structure NetlocChecks where
  bracketedHost : List Char → Bool
  normalization : List Char → Bool

/-! ## Splitting -/

/-- `text.partition(char)` without the middle part. -/
def partitionAt (char : Char) (text : List Char) : List Char × List Char :=
  (text.takeWhile (· ≠ char), (text.dropWhile (· ≠ char)).tail)

def isC0ControlOrSpace (char : Char) : Bool :=
  char ≤ ' '

def isUnsafeUrlByte (char : Char) : Bool :=
  char = '\t' || char = '\r' || char = '\n'

def isSchemeChar (char : Char) : Bool :=
  char.isAlphanum || char = '+' || char = '-' || char = '.'

def isNetlocEnd (char : Char) : Bool :=
  char = '/' || char = '?' || char = '#'

/-- Leading blanks and line breaks are dropped without a word. -/
def cleaned (url : List Char) : List Char :=
  (url.dropWhile isC0ControlOrSpace).filter fun char => !isUnsafeUrlByte char

def splitScheme (url : List Char) : List Char × List Char :=
  let front := url.takeWhile (· ≠ ':')
  match url.dropWhile (· ≠ ':') with
  | [] => ([], url)
  | _ :: rest =>
      if front.head?.any Char.isAlpha && front.all isSchemeChar then
        (front.map Char.toLower, rest)
      else ([], url)

/-- `_splitnetloc`, behind two slashes. -/
def splitNetloc : List Char → List Char × List Char
  | '/' :: '/' :: rest =>
      (rest.takeWhile fun char => !isNetlocEnd char,
        rest.dropWhile fun char => !isNetlocEnd char)
  | url => ([], url)

def checkBrackets (checks : NetlocChecks) (netloc : List Char) :
    Except UrlError Unit :=
  if netloc.contains '[' ≠ netloc.contains ']' then .error .brackets
  else if netloc.contains '[' && !checks.bracketedHost netloc then
    .error .bracketedHost
  else .ok ()

/-- `_checknetloc`. -/
def checkNetloc (checks : NetlocChecks) (netloc : List Char) :
    Except UrlError Unit :=
  if netloc.all fun char => char.toNat < 128 then .ok ()
  else if checks.normalization netloc then .ok ()
  else .error .normalization

def urlsplit (checks : NetlocChecks) (url : List Char) :
    Except UrlError SplitResult := do
  let (scheme, rest) := splitScheme (cleaned url)
  let (netloc, rest) := splitNetloc rest
  checkBrackets checks netloc
  let (rest, fragment) := partitionAt '#' rest
  let (path, query) := partitionAt '?' rest
  checkNetloc checks netloc
  return ⟨scheme, netloc, path, query, fragment⟩

/-- What follows the last `@` of an authority. -/
def hostinfo (netloc : List Char) : List Char :=
  (netloc.reverse.takeWhile (· ≠ '@')).reverse

/-- The property `hostname`; `lower` is `str.lower`. -/
def SplitResult.hostname (lower : List Char → List Char)
    (result : SplitResult) : Option (List Char) :=
  let info := hostinfo result.netloc
  let name :=
    if '[' ∈ info then (partitionAt ']' (partitionAt '[' info).2).1
    else (partitionAt ':' info).1
  if name = [] then none
  else some (lower (name.takeWhile (· ≠ '%')) ++ name.dropWhile (· ≠ '%'))

/-! ## What is refused -/

/-- The authority of a URL, before it is checked. -/
def authority (url : List Char) : List Char :=
  (splitNetloc (splitScheme (cleaned url)).2).1

/-- An authority has both brackets or none, a valid literal between them, and
nothing that becomes a delimiter. -/
def NetlocAccepted (checks : NetlocChecks) (netloc : List Char) : Prop :=
  ('[' ∈ netloc ↔ ']' ∈ netloc) ∧
    ('[' ∈ netloc → checks.bracketedHost netloc = true) ∧
      ((∃ char ∈ netloc, 128 ≤ char.toNat) → checks.normalization netloc = true)

variable {checks : NetlocChecks} {url netloc path scheme : List Char}

theorem checkBrackets_eq_ok :
    checkBrackets checks netloc = .ok () ↔
      ('[' ∈ netloc ↔ ']' ∈ netloc) ∧
        ('[' ∈ netloc → checks.bracketedHost netloc = true) := by
  rw [checkBrackets]
  by_cases hopen : '[' ∈ netloc
  · by_cases hclose : ']' ∈ netloc
    · cases checks.bracketedHost netloc
      · simp [hopen, hclose]
      · simp [hopen, hclose]
    · simp [hopen, hclose]
  · by_cases hclose : ']' ∈ netloc
    · simp [hopen, hclose]
    · simp [hopen, hclose]

theorem checkNetloc_eq_ok :
    checkNetloc checks netloc = .ok () ↔
      ((∃ char ∈ netloc, 128 ≤ char.toNat) →
        checks.normalization netloc = true) := by
  rw [checkNetloc]
  by_cases hascii : ∃ char ∈ netloc, 128 ≤ char.toNat
  · have hall : ¬(netloc.all fun char => char.toNat < 128) = true := by
      obtain ⟨char, hchar, hlarge⟩ := hascii
      intro hall
      have hsmall := List.all_eq_true.mp hall char hchar
      rw [decide_eq_true_eq] at hsmall
      omega
    rw [if_neg hall]
    cases hnormal : checks.normalization netloc
    all_goals simp [hascii]
  · have hall : (netloc.all fun char => char.toNat < 128) = true := by
      rw [List.all_eq_true]
      intro char hchar
      rw [decide_eq_true_eq]
      by_contra hlarge
      exact hascii ⟨char, hchar, not_lt.mp hlarge⟩
    rw [if_pos hall]
    exact iff_of_true rfl fun hlarge => absurd hlarge hascii

/-- The parts of a URL whose authority is accepted. -/
def parts (url : List Char) : SplitResult :=
  let split := splitNetloc (splitScheme (cleaned url)).2
  let beforeFragment := partitionAt '#' split.2
  ⟨(splitScheme (cleaned url)).1, split.1,
    (partitionAt '?' beforeFragment.1).1,
    (partitionAt '?' beforeFragment.1).2, beforeFragment.2⟩

theorem urlsplit_eq (checks : NetlocChecks) (url : List Char) :
    urlsplit checks url = do
      checkBrackets checks (authority url)
      checkNetloc checks (authority url)
      return parts url :=
  rfl

theorem urlsplit_of_accepted (haccepted : NetlocAccepted checks (authority url)) :
    urlsplit checks url = .ok (parts url) := by
  obtain ⟨hsame, hhost, hnormal⟩ := haccepted
  rw [urlsplit_eq, checkBrackets_eq_ok.mpr ⟨hsame, hhost⟩,
    checkNetloc_eq_ok.mpr hnormal]
  rfl

theorem accepted_of_urlsplit {result : SplitResult}
    (hsplit : urlsplit checks url = .ok result) :
    NetlocAccepted checks (authority url) ∧ result = parts url := by
  rw [urlsplit_eq] at hsplit
  cases hbrackets : checkBrackets checks (authority url) with
  | error error =>
      rw [hbrackets] at hsplit
      cases hsplit
  | ok done =>
      cases hnetloc : checkNetloc checks (authority url) with
      | error error =>
          rw [hbrackets, hnetloc] at hsplit
          cases hsplit
      | ok done =>
          rw [hbrackets, hnetloc] at hsplit
          obtain ⟨hsame, hhost⟩ := checkBrackets_eq_ok.mp hbrackets
          exact ⟨⟨hsame, hhost, checkNetloc_eq_ok.mp hnetloc⟩,
            (Except.ok.inj hsplit).symm⟩

/-! ## The parts of any URL -/

theorem mem_of_mem_partitionAt {separator char : Char} {text : List Char} :
    (char ∈ (partitionAt separator text).1 → char ∈ text) ∧
      (char ∈ (partitionAt separator text).2 → char ∈ text) := by
  constructor
  · intro hchar
    exact (List.takeWhile_sublist _).mem hchar
  · intro hchar
    exact (List.dropWhile_sublist _).mem (List.mem_of_mem_tail hchar)

/-- What follows the authority starts with a delimiter. -/
theorem splitNetloc_rest {text : List Char} (hnetloc : (splitNetloc text).1 ≠ []) :
    (∃ rest, text = '/' :: '/' :: rest) ∧
      (∀ char ∈ (splitNetloc text).2.head?, isNetlocEnd char = true) ∧
      ∀ char ∈ (splitNetloc text).2, char ∈ text := by
  unfold splitNetloc at hnetloc ⊢
  split at hnetloc
  next rest =>
    refine ⟨⟨rest, rfl⟩, ?_, ?_⟩
    · intro char hchar
      have hhead := List.head?_dropWhile_not (fun char => !isNetlocEnd char) rest
      simp only [Option.mem_def] at hchar
      rw [hchar] at hhead
      simpa using hhead
    · intro char hchar
      exact List.mem_cons_of_mem _ (List.mem_cons_of_mem _
        ((List.dropWhile_sublist _).mem hchar))
  next => exact absurd rfl hnetloc

/-- The path of a URL with an authority is empty or starts with a slash. -/
theorem path_head (hnetloc : (parts url).netloc ≠ []) :
    ∀ char ∈ (parts url).path.head?, char = '/' := by
  intro char hchar
  obtain ⟨-, hdelimiter, -⟩ := splitNetloc_rest hnetloc
  cases hrest : (splitNetloc (splitScheme (cleaned url)).2).2 with
  | nil =>
      simp only [parts, hrest] at hchar
      cases hchar
  | cons head tail =>
      have hend := hdelimiter head (by rw [hrest]; rfl)
      simp only [parts, hrest, partitionAt] at hchar
      by_cases hfragment : head = '#'
      · simp [hfragment] at hchar
      · rw [List.takeWhile_cons_of_pos (by simpa using hfragment)] at hchar
        by_cases hquery : head = '?'
        · simp [hquery] at hchar
        · rw [List.takeWhile_cons_of_pos (by simpa using hquery)] at hchar
          obtain rfl := Option.some.inj hchar
          simpa [isNetlocEnd, hfragment, hquery] using hend

/-- The text stays whole, or its scheme ends at the first colon. -/
theorem splitScheme_cases (text : List Char) :
    splitScheme text = ([], text) ∨
      ∃ front rest, text = front ++ ':' :: rest ∧ (splitScheme text).2 = rest := by
  unfold splitScheme
  cases hdrop : text.dropWhile (· ≠ ':') with
  | nil => exact .inl rfl
  | cons separator rest =>
      have hwhole := List.takeWhile_append_dropWhile (p := (· ≠ ':')) (l := text)
      have hhead := List.head?_dropWhile_not (· ≠ ':') text
      rw [hdrop] at hwhole hhead
      obtain rfl : separator = ':' := by simpa using hhead
      simp only
      split
      · exact .inr ⟨_, rest, hwhole.symm, rfl⟩
      · exact .inl rfl

theorem mem_cleaned_of_mem_rest {char : Char}
    (hchar : char ∈ (splitScheme (cleaned url)).2) : char ∈ cleaned url := by
  rcases splitScheme_cases (cleaned url) with hwhole | ⟨front, rest, htext, hrest⟩
  · rw [hwhole] at hchar
    exact hchar
  · rw [hrest] at hchar
    rw [htext]
    exact List.mem_append_right _ (List.mem_cons_of_mem _ hchar)

/-- Path and query have no line breaks. -/
theorem mem_parts_plain (hnetloc : (parts url).netloc ≠ []) {char : Char}
    (hchar : char ∈ (parts url).path ∨ char ∈ (parts url).query) :
    isUnsafeUrlByte char = false := by
  obtain ⟨-, -, hrest⟩ := splitNetloc_rest hnetloc
  have hbefore : char ∈ (splitNetloc (splitScheme (cleaned url)).2).2 := by
    rcases hchar with hpath | hquery
    · exact mem_of_mem_partitionAt.1 (mem_of_mem_partitionAt.1 hpath)
    · exact mem_of_mem_partitionAt.1 (mem_of_mem_partitionAt.2 hquery)
  have hcleaned := mem_cleaned_of_mem_rest (hrest char hbefore)
  simpa using (List.mem_filter.mp hcleaned).2

/-- The scheme and the authority of a URL are around `://`. -/
theorem infix_cleaned (hscheme : (parts url).scheme ≠ [])
    (hnetloc : (parts url).netloc ≠ []) : "://".toList <:+: cleaned url := by
  obtain ⟨⟨rest, hrest⟩, -, -⟩ := splitNetloc_rest hnetloc
  rcases splitScheme_cases (cleaned url) with hwhole | ⟨front, after, htext, hafter⟩
  · exact absurd (congrArg Prod.fst hwhole) hscheme
  · rw [hafter] at hrest
    rw [htext, hrest]
    exact ⟨front, rest, by simp⟩

theorem length_partitionAt (separator : Char) (text : List Char) :
    (partitionAt separator text).1.length +
      (partitionAt separator text).2.length ≤ text.length := by
  have hwhole := congrArg List.length
    (List.takeWhile_append_dropWhile (p := (· ≠ separator)) (l := text))
  rw [List.length_append] at hwhole
  have htail : (text.dropWhile (· ≠ separator)).tail.length ≤
      (text.dropWhile (· ≠ separator)).length := by
    rw [List.length_tail]
    exact Nat.sub_le _ _
  simp only [partitionAt]
  omega

/-- Path and query are different pieces of a URL. -/
theorem length_parts (url : List Char) :
    (parts url).path.length + (parts url).query.length ≤ url.length := by
  have hcleaned : (cleaned url).length ≤ url.length :=
    (List.length_filter_le _ _).trans (List.dropWhile_sublist _).length_le
  have hrest : (splitScheme (cleaned url)).2.length ≤ (cleaned url).length := by
    rcases splitScheme_cases (cleaned url) with hwhole |
      ⟨front, rest, htext, hrest⟩
    · rw [hwhole]
    · rw [hrest, htext, List.length_append, List.length_cons]
      omega
  have hnetloc : (splitNetloc (splitScheme (cleaned url)).2).2.length ≤
      (splitScheme (cleaned url)).2.length := by
    unfold splitNetloc
    split
    next rest htext =>
      simp only [htext, List.length_cons]
      have hdrop := (List.dropWhile_sublist
        (fun char => !isNetlocEnd char) (l := rest)).length_le
      omega
    · exact le_rfl
  have hfragment := length_partitionAt '#'
    (splitNetloc (splitScheme (cleaned url)).2).2
  have hquery := length_partitionAt '?' (partitionAt '#'
    (splitNetloc (splitScheme (cleaned url)).2).2).1
  simp only [parts]
  omega

/-! ## URLs made of their parts -/

theorem takeWhile_append_of_all {keep : Char → Bool} {front : List Char}
    (rest : List Char) (hfront : ∀ char ∈ front, keep char = true)
    (hrest : ∀ char ∈ rest.head?, keep char = false) :
    (front ++ rest).takeWhile keep = front ∧
      (front ++ rest).dropWhile keep = rest := by
  induction front with
  | nil =>
      cases rest with
      | nil => exact ⟨rfl, rfl⟩
      | cons head tail => simp [hrest head rfl]
  | cons head tail ih =>
      have htail := ih fun char hchar => hfront char (List.mem_cons_of_mem _ hchar)
      have hhead := hfront head List.mem_cons_self
      simp [hhead, htail]

theorem partitionAt_of_notMem {char : Char} {text : List Char}
    (hnone : char ∉ text) : partitionAt char text = (text, []) := by
  have hkeep : ∀ other ∈ text, decide (other ≠ char) = true := by
    intro other hother
    rw [decide_eq_true_eq]
    rintro rfl
    exact hnone hother
  have hsplit := takeWhile_append_of_all [] hkeep (by simp)
  rw [List.append_nil] at hsplit
  rw [partitionAt, hsplit.1, hsplit.2]
  rfl

theorem cleaned_of_visible (hvisible : ∀ char ∈ url, ' ' < char) :
    cleaned url = url := by
  have hdrop : url.dropWhile isC0ControlOrSpace = url := by
    cases url with
    | nil => rfl
    | cons head tail =>
        have hhead := hvisible head List.mem_cons_self
        rw [List.dropWhile_cons_of_neg]
        simpa [isC0ControlOrSpace] using hhead
  rw [cleaned, hdrop, List.filter_eq_self]
  intro char hchar
  have hspace := hvisible char hchar
  simp only [isUnsafeUrlByte, Bool.not_eq_true', Bool.or_eq_false_iff,
    decide_eq_false_iff_not]
  refine ⟨⟨?_, ?_⟩, ?_⟩
  all_goals
    rintro rfl
    exact absurd hspace (by decide)

/-- A character of a text is the separator or in one of the two parts. -/
theorem mem_partitionAt (separator : Char) {char : Char} {text : List Char}
    (hchar : char ∈ text) :
    char = separator ∨ char ∈ (partitionAt separator text).1 ∨
      char ∈ (partitionAt separator text).2 := by
  rw [← List.takeWhile_append_dropWhile (p := (· ≠ separator)) (l := text)]
    at hchar
  rcases List.mem_append.mp hchar with hfirst | hlast
  · exact .inr (.inl hfirst)
  · cases hdrop : text.dropWhile (· ≠ separator) with
    | nil =>
        rw [hdrop] at hlast
        cases hlast
    | cons head tail =>
        have hhead := List.head?_dropWhile_not (· ≠ separator) text
        rw [hdrop] at hhead hlast
        rcases List.mem_cons.mp hlast with rfl | htail
        · left
          simpa using hhead
        · right
          right
          rw [partitionAt, hdrop]
          exact htail

/-- A scheme which stays as it is. -/
def IsScheme (scheme : List Char) : Prop :=
  scheme.head?.any Char.isAlpha = true ∧ scheme.all isSchemeChar = true ∧
    scheme.map Char.toLower = scheme

instance (scheme : List Char) : Decidable (IsScheme scheme) :=
  inferInstanceAs (Decidable (_ ∧ _))

theorem splitScheme_append (hscheme : IsScheme scheme) (rest : List Char) :
    splitScheme (scheme ++ ':' :: rest) = (scheme, rest) := by
  obtain ⟨hfirst, hall, hlower⟩ := hscheme
  have hkeep : ∀ char ∈ scheme, decide (char ≠ ':') = true := by
    intro char hchar
    rw [decide_eq_true_eq]
    rintro rfl
    exact absurd (List.all_eq_true.mp hall _ hchar) (by decide)
  have hsplit := takeWhile_append_of_all (':' :: rest) hkeep (by simp)
  rw [splitScheme, hsplit.1, hsplit.2]
  simp [hfirst, hall, hlower]

theorem splitNetloc_append (hnetloc : ∀ char ∈ netloc, isNetlocEnd char = false)
    (hpath : ∀ char ∈ path.head?, char = '/') :
    splitNetloc ('/' :: '/' :: (netloc ++ path)) = (netloc, path) := by
  have hkeep : ∀ char ∈ netloc, (!isNetlocEnd char) = true := by
    intro char hchar
    rw [hnetloc char hchar]
    rfl
  have hend : ∀ char ∈ path.head?, (!isNetlocEnd char) = false := by
    intro char hchar
    rw [hpath char hchar]
    rfl
  have hsplit := takeWhile_append_of_all path hkeep hend
  rw [splitNetloc, hsplit.1, hsplit.2]

/-- A URL of scheme, authority and path. -/
def joined (scheme netloc path : List Char) : List Char :=
  scheme ++ ':' :: '/' :: '/' :: (netloc ++ path)

/-- The parts of a URL are those of which it is made. -/
theorem urlsplit_joined (hscheme : IsScheme scheme)
    (hnetloc : ∀ char ∈ netloc, isNetlocEnd char = false)
    (hhead : ∀ char ∈ path.head?, char = '/')
    (hpath : '?' ∉ path ∧ '#' ∉ path)
    (hvisible : ∀ char ∈ joined scheme netloc path, ' ' < char)
    (haccepted : NetlocAccepted checks netloc) :
    urlsplit checks (joined scheme netloc path) =
      .ok ⟨scheme, netloc, path, [], []⟩ := by
  have hcleaned := cleaned_of_visible hvisible
  have hsplitScheme : splitScheme (cleaned (joined scheme netloc path)) =
      (scheme, '/' :: '/' :: (netloc ++ path)) := by
    rw [hcleaned, joined, splitScheme_append hscheme]
  have hsplitNetloc := splitNetloc_append hnetloc hhead
  have hauthority : authority (joined scheme netloc path) = netloc := by
    rw [authority, hsplitScheme, hsplitNetloc]
  rw [urlsplit_of_accepted (hauthority.symm ▸ haccepted)]
  simp only [parts, hsplitScheme, hsplitNetloc,
    partitionAt_of_notMem hpath.1, partitionAt_of_notMem hpath.2]

end NotifyHub.UrlSplit
