import NotifyHub.UrlStandard
import Mathlib.Tactic

/-!
# The page after the login

`safeRedirectTarget` keeps a path of the application which the state of the
navigation names.  Its filter looks at the first two characters, while the URL
parser drops tabs and newlines before it looks.
-/

namespace NotifyHub.LoginRedirect

open UrlStandard

/-! ## Texts of JavaScript -/

/-- The code units of a string, whatever they are. -/
abbrev JsString := List UInt16

inductive JsValue
  | string (units : JsString)
  | other

/-- A string of ASCII characters. -/
def asciiUnits (text : String) : JsString :=
  text.toList.map fun char => UInt16.ofNat char.toNat

def isHighSurrogate (unit : UInt16) : Bool :=
  0xd800 ≤ unit && unit ≤ 0xdbff

def isLowSurrogate (unit : UInt16) : Bool :=
  0xdc00 ≤ unit && unit ≤ 0xdfff

def replacementChar : Char := '\uFFFD'

def singleScalar (unit : UInt16) : Char :=
  if isHighSurrogate unit || isLowSurrogate unit then replacementChar
  else Char.ofNat unit.toNat

def pairScalar (high low : UInt16) : Char :=
  Char.ofNat (0x10000 + (high.toNat - 0xd800) * 0x400 + (low.toNat - 0xdc00))

/-- The scalar values which the URL parser is given; a lone surrogate is
replaced. -/
def scalarValues : JsString → List Char
  | [] => []
  | [unit] => [singleScalar unit]
  | high :: low :: rest =>
      if isHighSurrogate high && isLowSurrogate low then
        pairScalar high low :: scalarValues rest
      else singleScalar high :: scalarValues (low :: rest)

/-! ## The filter -/

def startsWith (units : JsString) (front : String) : Bool :=
  (asciiUnits front).isPrefixOf units

/-- The value passes both checks of the function. -/
def isInnerPath (units : JsString) : Bool :=
  !(!startsWith units "/" || startsWith units "//" || startsWith units "/\\") &&
    !(units = asciiUnits "/login" || startsWith units "/login?" ||
      startsWith units "/login#")

def safeRedirectTarget : JsValue → JsString
  | .other => asciiUnits "/"
  | .string value =>
      if !startsWith value "/" || startsWith value "//" ||
          startsWith value "/\\" then asciiUnits "/"
      else if value = asciiUnits "/login" || startsWith value "/login?" ||
          startsWith value "/login#" then asciiUnits "/"
      else value

theorem safeRedirectTarget_string (value : JsString) :
    safeRedirectTarget (.string value) =
      if isInnerPath value then value else asciiUnits "/" := by
  unfold safeRedirectTarget isInnerPath
  by_cases hfirst : (!startsWith value "/" || startsWith value "//" ||
      startsWith value "/\\") = true
  · simp [hfirst]
  · rw [Bool.not_eq_true] at hfirst
    by_cases hlogin : (decide (value = asciiUnits "/login") ||
        startsWith value "/login?" || startsWith value "/login#") = true
    · simp [hfirst, hlogin]
    · rw [Bool.not_eq_true] at hlogin
      simp [hfirst, hlogin]

/-- An inner path begins with a slash for the parser too. -/
theorem scalarValues_of_isInnerPath
    {units : JsString} (hinner : isInnerPath units = true) :
    ∃ tail, scalarValues units = '/' :: tail := by
  have hstart : startsWith units "/" = true := by
    simp only [isInnerPath, Bool.and_eq_true, Bool.not_eq_true',
      Bool.or_eq_false_iff, Bool.not_eq_false'] at hinner
    exact hinner.1.1.1
  obtain ⟨rest, hunits⟩ := List.isPrefixOf_iff_prefix.mp hstart
  have hslash : units = 47 :: rest := hunits.symm
  cases rest with
  | nil => exact ⟨[], by rw [hslash]; rfl⟩
  | cons next rest =>
      refine ⟨scalarValues (next :: rest), ?_⟩
      rw [hslash, scalarValues]
      rfl

/-! ## Where the redirect leads -/

variable {Host : Type*}

/-- A slash, tabs and newlines, a second slash and then an authority which is
not the application's own. -/
def LeavesOrigin
    (algorithms : Algorithms Host) (application : Origin Host)
    (text : List Char) : Prop :=
  ∃ blanks slash rest, text = '/' :: (blanks ++ slash :: rest) ∧
    (∀ blank ∈ blanks, isTabOrNewline blank = true) ∧
    isSlash slash = true ∧
    ignoreSlashesState algorithms application.scheme (cleanTail rest) ≠
      some application

/-- The redirect stays in the application except for the inner paths whose
second slash is hidden behind tabs and newlines. -/
theorem redirect_inside_iff
    (algorithms : Algorithms Host) (application : Origin Host)
    (value : JsValue) :
    resolve algorithms application (scalarValues (safeRedirectTarget value)) =
        some application ↔
      ¬∃ units, value = .string units ∧ isInnerPath units = true ∧
        LeavesOrigin algorithms application (scalarValues units) := by
  have hhome : resolve algorithms application
      (scalarValues (asciiUnits "/")) = some application := by
    have hslash : scalarValues (asciiUnits "/") = ['/'] := by decide
    rw [hslash, resolve_slash]
    rfl
  cases value with
  | other =>
      refine ⟨fun _ hleaves => ?_, fun _ => hhome⟩
      obtain ⟨units, hvalue, -⟩ := hleaves
      cases hvalue
  | string units =>
      rw [safeRedirectTarget_string]
      by_cases hinner : isInnerPath units = true
      · obtain ⟨tail, htail⟩ := scalarValues_of_isInnerPath hinner
        rw [if_pos hinner, htail, resolve_slash_eq_base_iff]
        constructor
        · rintro howned ⟨same, hvalue, -, hleaves⟩
          cases hvalue
          rw [htail] at hleaves
          obtain ⟨blanks, slash, rest, heq, htabs, hslash, hforeign⟩ := hleaves
          exact hforeign
            (howned blanks slash rest (List.cons.inj heq).2 htabs hslash)
        · intro hstays blanks slash rest heq htabs hslash
          by_contra hforeign
          refine hstays ⟨units, rfl, hinner, blanks, slash, rest, ?_, htabs,
            hslash, hforeign⟩
          rw [htail, heq]
      · rw [if_neg hinner]
        refine ⟨fun _ hleaves => ?_, fun _ => hhome⟩
        obtain ⟨same, hvalue, hsame, -⟩ := hleaves
        cases hvalue
        exact hinner hsame

/-- Hosts are taken as they are written. -/
def plainHosts : Algorithms (List Char) :=
  ⟨some, fun _ _ => none⟩

theorem redirect_leaves :
    resolve plainHosts ⟨.https, "hub.example".toList, none⟩
        (scalarValues (safeRedirectTarget
          (.string (asciiUnits "/\t/evil.example")))) =
      some ⟨.https, "evil.example".toList, none⟩ ∧
    ¬∀ value, resolve plainHosts ⟨.https, "hub.example".toList, none⟩
        (scalarValues (safeRedirectTarget value)) =
      some ⟨.https, "hub.example".toList, none⟩ := by
  have hleft : resolve plainHosts ⟨.https, "hub.example".toList, none⟩
      (scalarValues (safeRedirectTarget
        (.string (asciiUnits "/\t/evil.example")))) =
      some ⟨.https, "evil.example".toList, none⟩ := by
    decide +kernel
  refine ⟨hleft, fun hinside => ?_⟩
  rw [hinside] at hleft
  exact absurd hleft (by decide)

end NotifyHub.LoginRedirect
