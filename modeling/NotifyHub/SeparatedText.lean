import Mathlib.Data.List.Chain
import Mathlib.Data.List.DropRight
import Mathlib.Tactic

/-!
# Texts with single separators

Runs of unwanted letters collapse to one separator, and separators at the ends
are trimmed.  A text with neither is left as it is, so collapsing and trimming
twice is the same as once, also with a truncation in between.
-/

namespace NotifyHub.SeparatedText

variable {Letter : Type*} [DecidableEq Letter]

/-- A letter which is not kept becomes a separator, unless the text so far is
empty or ends in one. -/
def collapseStep
    (keep : Letter → Bool) (separator : Letter) (chars : List Letter)
    (char : Letter) : List Letter :=
  if keep char then chars ++ [char]
  else if chars ≠ [] ∧ chars.getLast? ≠ some separator then
    chars ++ [separator]
  else chars

def collapse
    (keep : Letter → Bool) (separator : Letter) (text : List Letter) :
    List Letter :=
  text.foldl (collapseStep keep separator) []

/-- `str.strip` of one letter. -/
def trim (separator : Letter) (text : List Letter) : List Letter :=
  (text.dropWhile (· = separator)).rdropWhile (· = separator)

/-- No two separators in a row. -/
def Single (separator : Letter) (text : List Letter) : Prop :=
  text.IsChain fun left right => ¬(left = separator ∧ right = separator)

structure Tidy (separator : Letter) (text : List Letter) : Prop where
  head : text.head? ≠ some separator
  last : text.getLast? ≠ some separator
  single : Single separator text

/-! ## Trimming -/

section Trim

variable {separator : Letter} {text : List Letter}

theorem trim_within (separator : Letter) (text : List Letter) :
    trim separator text <:+: text :=
  (List.rdropWhile_prefix _ _).isInfix.trans
    (List.dropWhile_suffix _).isInfix

theorem head?_trim (separator : Letter) (text : List Letter) :
    (trim separator text).head? ≠ some separator := by
  intro hhead
  obtain ⟨rest, hrest⟩ : ∃ rest, trim separator text = separator :: rest :=
    List.head?_eq_some_iff.mp hhead
  obtain ⟨dropped, hdropped⟩ : trim separator text <+:
      text.dropWhile (· = separator) :=
    List.rdropWhile_prefix _ _
  have hkept := List.head?_dropWhile_not (· = separator) text
  rw [← hdropped, hrest] at hkept
  simp at hkept

theorem getLast?_trim (separator : Letter) (text : List Letter) :
    (trim separator text).getLast? ≠ some separator := by
  intro hlast
  have hne : trim separator text ≠ [] := by
    intro hnil
    rw [hnil] at hlast
    cases hlast
  have hkept := List.rdropWhile_last_not (· = separator)
    (text.dropWhile (· = separator)) hne
  rw [List.getLast?_eq_some_getLast hne, Option.some.injEq] at hlast
  exact hkept (decide_eq_true hlast)

omit [DecidableEq Letter] in
theorem Single.within
    {part : List Letter} (hsingle : Single separator text)
    (hpart : part <:+: text) : Single separator part :=
  List.IsChain.infix hsingle hpart

theorem Single.trim (hsingle : Single separator text) :
    Tidy separator (trim separator text) where
  head := head?_trim separator text
  last := getLast?_trim separator text
  single := hsingle.within (trim_within separator text)

theorem Tidy.trim_eq (htidy : Tidy separator text) :
    SeparatedText.trim separator text = text := by
  have hfront : text.dropWhile (· = separator) = text := by
    cases text with
    | nil => rfl
    | cons first rest =>
        have hfirst : first ≠ separator := by
          simpa using htidy.head
        rw [List.dropWhile_cons_of_neg (by simpa using hfirst)]
  rw [SeparatedText.trim, hfront, List.rdropWhile_eq_self_iff]
  intro hne hlast
  apply htidy.last
  rw [List.getLast?_eq_some_getLast hne, of_decide_eq_true hlast]

omit [DecidableEq Letter] in
theorem Tidy.no_pair (htidy : Tidy separator text) :
    ¬[separator, separator] <:+: text := by
  intro hdouble
  have hpair := htidy.single.within hdouble
  simp [Single] at hpair

end Trim

/-! ## Collapsing -/

section Collapse

variable {keep : Letter → Bool} {separator : Letter}
variable {chars text : List Letter}

/-- What the text of the walk so far meets. -/
structure Collapsed
    (keep : Letter → Bool) (separator : Letter) (chars : List Letter) :
    Prop where
  letters : ∀ char ∈ chars, keep char = true ∨ char = separator
  head : chars.head? ≠ some separator
  single : Single separator chars

omit [DecidableEq Letter] in
theorem collapsed_nil : Collapsed keep separator [] where
  letters := by simp
  head := by simp
  single := List.isChain_nil

omit [DecidableEq Letter] in
theorem Single.append_singleton
    (hsingle : Single separator chars) {char : Letter}
    (hnext : char = separator → chars.getLast? ≠ some separator) :
    Single separator (chars ++ [char]) := by
  refine List.isChain_append.mpr ⟨hsingle, List.isChain_singleton _, ?_⟩
  rintro left hleft right hright ⟨hleftSep, hrightSep⟩
  have hchar : char = right := by simpa using hright
  rw [hleftSep] at hleft
  exact hnext (hchar.trans hrightSep) hleft

theorem Collapsed.step
    (hcollapsed : Collapsed keep separator chars)
    (hseparator : keep separator = false) (char : Letter) :
    Collapsed keep separator (collapseStep keep separator chars char) := by
  obtain ⟨hletters, hhead, hsingle⟩ := hcollapsed
  unfold collapseStep
  split
  · next hkeep =>
      have hother : char ≠ separator := by
        rintro rfl
        rw [hseparator] at hkeep
        cases hkeep
      refine ⟨?_, ?_, hsingle.append_singleton fun h => absurd h hother⟩
      · intro letter hletter
        rcases List.mem_append.mp hletter with hbefore | hnew
        · exact hletters letter hbefore
        · exact .inl ((List.mem_singleton.mp hnew) ▸ hkeep)
      · cases chars with
        | nil => simpa using hother
        | cons first rest => simpa using hhead
  · split
    · next hlast =>
        refine ⟨?_, ?_, hsingle.append_singleton fun _ => hlast.2⟩
        · intro letter hletter
          rcases List.mem_append.mp hletter with hbefore | hnew
          · exact hletters letter hbefore
          · exact .inr (List.mem_singleton.mp hnew)
        · cases chars with
          | nil => exact absurd rfl hlast.1
          | cons first rest => simpa using hhead
    · exact ⟨hletters, hhead, hsingle⟩

theorem collapse_collapsed
    (hseparator : keep separator = false) (text : List Letter) :
    Collapsed keep separator (collapse keep separator text) := by
  have hwalk : ∀ chars, Collapsed keep separator chars →
      Collapsed keep separator
        (text.foldl (collapseStep keep separator) chars) := by
    induction text with
    | nil => exact fun chars hchars => hchars
    | cons char rest ih =>
        exact fun chars hchars => ih _ (hchars.step hseparator char)
  exact hwalk [] collapsed_nil

/-- The walk adds what is left of a collapsed text as it stands. -/
theorem foldl_collapseStep
    (hseparator : keep separator = false)
    (hwhole : Collapsed keep separator (chars ++ text)) :
    text.foldl (collapseStep keep separator) chars = chars ++ text := by
  induction text generalizing chars with
  | nil => rw [List.foldl_nil, List.append_nil]
  | cons char rest ih =>
      have hsplit : chars ++ char :: rest = chars ++ [char] ++ rest := by simp
      have hstep : collapseStep keep separator chars char =
          chars ++ [char] := by
        unfold collapseStep
        rcases hwhole.letters char (by simp) with hkeep | hchar
        · rw [if_pos hkeep]
        · subst hchar
          rw [if_neg (by simp [hseparator]), if_pos]
          constructor
          · rintro rfl
            exact hwhole.head rfl
          · intro hlast
            have hjoin := (List.isChain_append.mp hwhole.single).2.2
            exact hjoin char hlast char rfl ⟨rfl, rfl⟩
      rw [List.foldl_cons, hstep, ih (hsplit ▸ hwhole), hsplit]

theorem collapse_eq_self
    (hseparator : keep separator = false)
    (htext : Collapsed keep separator text) :
    collapse keep separator text = text :=
  foldl_collapseStep hseparator htext

end Collapse

/-! ## Splitting -/

omit [DecidableEq Letter] in
/-- The parts of a text have its letters, and no separator. -/
theorem mem_part_of_splitOnP
    {isSeparator : Letter → Bool} {text part : List Letter} {letter : Letter}
    (hpart : part ∈ text.splitOnP isSeparator) (hletter : letter ∈ part) :
    letter ∈ text ∧ isSeparator letter = false := by
  induction text generalizing part with
  | nil =>
      rw [List.splitOnP_nil, List.mem_singleton] at hpart
      rw [hpart] at hletter
      cases hletter
  | cons first rest ih =>
      rw [List.splitOnP_cons_eq_if_modifyHead] at hpart
      split at hpart
      · rcases List.mem_cons.mp hpart with hnil | hrest
        · rw [hnil] at hletter
          cases hletter
        · exact (ih hrest hletter).imp_left (List.mem_cons_of_mem _)
      · next hfirst =>
          obtain ⟨head, others, hsplit⟩ :=
            List.exists_cons_of_ne_nil (List.splitOnP_ne_nil isSeparator rest)
          rw [hsplit, List.modifyHead_cons] at hpart
          rcases List.mem_cons.mp hpart with rfl | hother
          · rcases List.mem_cons.mp hletter with rfl | hhead
            · exact ⟨List.mem_cons_self, by simpa using hfirst⟩
            · exact (ih (hsplit ▸ List.mem_cons_self) hhead).imp_left
                (List.mem_cons_of_mem _)
          · exact (ih (hsplit ▸ List.mem_cons_of_mem _ hother) hletter).imp_left
              (List.mem_cons_of_mem _)

end NotifyHub.SeparatedText
