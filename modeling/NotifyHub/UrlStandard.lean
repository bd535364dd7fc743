import Mathlib.Data.List.DropRight
import Mathlib.Tactic

/-!
# The origin of a resolved URL

The basic parser of the URL standard for a text which is resolved against an
`http` or `https` origin: the scheme, the host and the port with which it ends,
state by state.  Paths, queries and fragments do not change them and are left
out.  The algorithm of the host and the parser of a text with a scheme of its
own are parameters.
-/

namespace NotifyHub.UrlStandard

inductive WebScheme
  | http
  | https
  deriving DecidableEq

def WebScheme.defaultPort : WebScheme → ℕ
  | .http => 80
  | .https => 443

variable {Host : Type*}

/-- A default port is left out. -/
structure Origin (Host : Type*) where
  scheme : WebScheme
  host : Host
  port : Option ℕ
  deriving DecidableEq

/-- The parts of the standard which are taken as given. -/
structure Algorithms (Host : Type*) where
  hostParser : List Char → Option Host
  withScheme : List Char → Origin Host → Option (Origin Host)

/-! ## Characters -/

def isC0ControlOrSpace (char : Char) : Bool :=
  char.toNat ≤ 32

def isTabOrNewline (char : Char) : Bool :=
  char = '\t' || char = '\n' || char = '\r'

/-- The separators of a special URL. -/
def isSlash (char : Char) : Bool :=
  char = '/' || char = '\\'

def isAuthorityEnd (char : Char) : Bool :=
  isSlash char || char = '?' || char = '#'

/-- The end of an input as the parser reads it. -/
def cleanTail (input : List Char) : List Char :=
  (input.rdropWhile isC0ControlOrSpace).filter (!isTabOrNewline ·)

/-- Controls and spaces around the input are dropped, tabs and newlines
everywhere. -/
def clean (input : List Char) : List Char :=
  cleanTail (input.dropWhile isC0ControlOrSpace)

/-! ## The states -/

def isAsciiAlpha (char : Char) : Bool :=
  ('a' ≤ char && char ≤ 'z') || ('A' ≤ char && char ≤ 'Z')

def isAsciiDigit (char : Char) : Bool :=
  '0' ≤ char && char ≤ '9'

def digitsValue (digits : List Char) : ℕ :=
  digits.foldl (fun value digit => value * 10 + (digit.toNat - 48)) 0

/-- The port state, with no value for a failure. -/
def portState (scheme : WebScheme) (digits : List Char) :
    Option (Option ℕ) :=
  if digits.all isAsciiDigit then
    if digits = [] then some none
    else if 65535 < digitsValue digits then none
    else if digitsValue digits = scheme.defaultPort then some none
    else some (some (digitsValue digits))
  else none

def insideBrackets (inside : Bool) (char : Char) : Bool :=
  if char = '[' then true else if char = ']' then false else inside

/-- The host state, whose buffer is not empty at the end of a host. -/
def hostState (algorithms : Algorithms Host) (scheme : WebScheme) :
    Bool → List Char → List Char → Option (Origin Host)
  | _, buffer, [] =>
      if buffer = [] then none
      else (algorithms.hostParser buffer).map (⟨scheme, ·, none⟩)
  | inside, buffer, char :: rest =>
      if char = ':' ∧ inside = false then
        if buffer = [] then none
        else
          (algorithms.hostParser buffer).bind fun host =>
            (portState scheme rest).map (⟨scheme, host, ·⟩)
      else
        hostState algorithms scheme (insideBrackets inside char)
          (buffer ++ [char]) rest

/-- The authority state: credentials end at the last `@`. -/
def authorityState
    (algorithms : Algorithms Host) (scheme : WebScheme) (input : List Char) :
    Option (Origin Host) :=
  let authority := input.takeWhile (!isAuthorityEnd ·)
  hostState algorithms scheme false [] (authority.rtakeWhile (· ≠ '@'))

/-- The special authority ignore slashes state. -/
def ignoreSlashesState
    (algorithms : Algorithms Host) (scheme : WebScheme) (input : List Char) :
    Option (Origin Host) :=
  authorityState algorithms scheme (input.dropWhile isSlash)

def relativeSlashState
    (algorithms : Algorithms Host) (base : Origin Host) :
    List Char → Option (Origin Host)
  | char :: rest =>
      if isSlash char then ignoreSlashesState algorithms base.scheme rest
      else some base
  | [] => some base

def relativeState
    (algorithms : Algorithms Host) (base : Origin Host) :
    List Char → Option (Origin Host)
  | char :: rest =>
      if isSlash char then relativeSlashState algorithms base rest
      else some base
  | [] => some base

/-- The scheme start state: a scheme begins with a letter. -/
def schemeStartState
    (algorithms : Algorithms Host) (base : Origin Host) :
    List Char → Option (Origin Host)
  | char :: rest =>
      if isAsciiAlpha char then algorithms.withScheme (char :: rest) base
      else relativeState algorithms base (char :: rest)
  | [] => relativeState algorithms base []

/-- The origin of the input resolved against `base`, with no value where the
parser fails. -/
def resolve
    (algorithms : Algorithms Host) (base : Origin Host) (input : List Char) :
    Option (Origin Host) :=
  schemeStartState algorithms base (clean input)

/-! ## Inputs which begin with a slash -/

section Slash

variable {algorithms : Algorithms Host} {base : Origin Host}

theorem not_tab_of_not_blank {char : Char}
    (hblank : isC0ControlOrSpace char = false) :
    isTabOrNewline char = false := by
  rw [Bool.eq_false_iff]
  intro htab
  simp only [isTabOrNewline, Bool.or_eq_true, decide_eq_true_eq] at htab
  rcases htab with (rfl | rfl) | rfl
  · exact absurd hblank (by decide)
  · exact absurd hblank (by decide)
  · exact absurd hblank (by decide)

theorem not_blank_of_isSlash {char : Char} (hslash : isSlash char = true) :
    isC0ControlOrSpace char = false := by
  simp only [isSlash, Bool.or_eq_true, decide_eq_true_eq] at hslash
  rcases hslash with rfl | rfl
  · decide
  · decide

theorem rdropWhile_append_cons
    {isBlank : Char → Bool} {char : Char} (hchar : isBlank char = false)
    (front rest : List Char) :
    (front ++ char :: rest).rdropWhile isBlank =
      front ++ char :: rest.rdropWhile isBlank := by
  induction rest using List.reverseRecOn with
  | nil =>
      rw [List.rdropWhile_concat_neg _ _ _ (by simp [hchar]),
        List.rdropWhile_nil]
  | append_singleton rest last ih =>
      have hsplit : front ++ char :: (rest ++ [last]) =
          (front ++ char :: rest) ++ [last] := by simp
      rw [hsplit, List.rdropWhile_concat, List.rdropWhile_concat]
      split
      · exact ih
      · simp

theorem cleanTail_append_cons
    {char : Char} (hchar : isC0ControlOrSpace char = false)
    (front rest : List Char) :
    cleanTail (front ++ char :: rest) =
      front.filter (!isTabOrNewline ·) ++ char :: cleanTail rest := by
  rw [cleanTail, rdropWhile_append_cons hchar, List.filter_append,
    List.filter_cons_of_pos (by simp [not_tab_of_not_blank hchar]), cleanTail]

/-- Where a slash comes first after the cleaning, tabs and newlines alone are in
front of it. -/
theorem exists_of_cleanTail_eq_cons
    {tail more : List Char} {slash : Char} (hslash : isSlash slash = true)
    (hclean : cleanTail tail = slash :: more) :
    ∃ blanks rest, tail = blanks ++ slash :: rest ∧
      (∀ blank ∈ blanks, isTabOrNewline blank = true) ∧
      more = cleanTail rest := by
  obtain ⟨blanks, kept, hkept, hblanks, -, -⟩ :=
    List.filter_eq_cons_iff.mp hclean
  have htabs : ∀ blank ∈ blanks, isTabOrNewline blank = true := by
    intro blank hmem
    simpa using hblanks blank hmem
  have hwhole : tail = blanks ++ slash ::
      (kept ++ tail.rtakeWhile isC0ControlOrSpace) := by
    calc tail
        = tail.rdropWhile isC0ControlOrSpace ++
            tail.rtakeWhile isC0ControlOrSpace :=
          List.rdropWhile_append_rtakeWhile.symm
      _ = blanks ++ slash :: (kept ++ tail.rtakeWhile isC0ControlOrSpace) := by
          rw [hkept, List.append_assoc, List.cons_append]
  refine ⟨blanks, _, hwhole, htabs, ?_⟩
  rw [hwhole, cleanTail_append_cons (not_blank_of_isSlash hslash),
    List.filter_eq_nil_iff.mpr fun blank hmem => by simp [htabs blank hmem],
    List.nil_append] at hclean
  exact (List.cons.inj hclean).2.symm

theorem resolve_slash (tail : List Char) :
    resolve algorithms base ('/' :: tail) =
      relativeSlashState algorithms base (cleanTail tail) := by
  have hblank : isC0ControlOrSpace '/' = false := by decide
  have hclean : clean ('/' :: tail) = '/' :: cleanTail tail := by
    rw [clean, List.dropWhile_cons_of_neg (by simp [hblank])]
    exact cleanTail_append_cons hblank [] tail
  rw [resolve, hclean]
  rfl

/-- A path leaves the origin where a second slash follows behind tabs and
newlines, unless the authority behind it is the origin's own. -/
theorem resolve_slash_eq_base_iff (tail : List Char) :
    resolve algorithms base ('/' :: tail) = some base ↔
      ∀ blanks slash rest, tail = blanks ++ slash :: rest →
        (∀ blank ∈ blanks, isTabOrNewline blank = true) →
        isSlash slash = true →
        ignoreSlashesState algorithms base.scheme (cleanTail rest) =
          some base := by
  rw [resolve_slash]
  constructor
  · rintro hresolved blanks slash rest rfl htabs hslash
    rw [cleanTail_append_cons (not_blank_of_isSlash hslash),
      List.filter_eq_nil_iff.mpr fun blank hmem => by simp [htabs blank hmem],
      List.nil_append, relativeSlashState, if_pos hslash] at hresolved
    exact hresolved
  · intro howned
    cases hclean : cleanTail tail with
    | nil => rfl
    | cons first more =>
        by_cases hslash : isSlash first = true
        · obtain ⟨blanks, rest, htail, htabs, rfl⟩ :=
            exists_of_cleanTail_eq_cons hslash hclean
          rw [relativeSlashState, if_pos hslash]
          exact howned blanks first rest htail htabs hslash
        · rw [relativeSlashState, if_neg hslash]

end Slash

end NotifyHub.UrlStandard
