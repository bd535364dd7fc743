import NotifyHub.DashboardQueries
import NotifyHub.LikePatterns
import NotifyHub.TextReplace
import Mathlib.Tactic

/-!
# Searching the content of notifications

The pattern which `search_condition` builds, under ILIKE with the backslash as
the escape character.  The backslash is replaced first, so none of the
backslashes which the later replacements insert is escaped again.
-/

namespace NotifyHub.Dashboard

open LikePattern TextReplace

/-- The three replacements of `search_condition`. -/
def escapedQuery (q : Text) : Text :=
  let backslashes := replaceAll ['\\'] ['\\', '\\'] q
  let percents := replaceAll ['%'] ['\\', '%'] backslashes
  replaceAll ['_'] ['\\', '_'] percents

def searchPattern (q : Text) : Text :=
  '%' :: escapedQuery q ++ ['%']

/-- `ESCAPE '\'`. -/
def likeSpecials : Specials Char where
  many := '%'
  one := '_'
  escape := '\\'

/-- `text ILIKE pattern`, with no value for a pattern which is refused. -/
def ilike (fold : Char → Char) (pattern text : Text) : Option Bool :=
  like likeSpecials fold pattern text

/-- A database whose ILIKE folds characters like this. -/
def foldingBy {Id Key : Type} (env : Env Id Key) (fold : Char → Char) :
    Env Id Key :=
  { env with ilike := fun pattern text => ilike fold pattern text = some true }

/-- What the three replacements make of one character. -/
theorem escapedQuery_char (char : Char) :
    ((if char = '\\' then ['\\', '\\'] else [char]).flatMap fun other =>
      (if other = '%' then ['\\', '%'] else [other]).flatMap fun other =>
        if other = '_' then ['\\', '_'] else [other]) =
      if char = '\\' ∨ char = '%' ∨ char = '_' then ['\\', char]
      else [char] := by
  by_cases hbackslash : char = '\\'
  · subst hbackslash
    decide
  by_cases hpercent : char = '%'
  · subst hpercent
    decide
  by_cases hunderscore : char = '_'
  · subst hunderscore
    decide
  simp [hbackslash, hpercent, hunderscore]

theorem escapedQuery_eq_flatMap (q : Text) :
    escapedQuery q = escapeText likeSpecials q := by
  simp only [escapedQuery, replaceAll_singleton, List.flatMap_assoc,
    escapedQuery_char]
  rfl

theorem searchPattern_eq (q : Text) :
    searchPattern q = '%' :: escapeLike q ++ ['%'] := by
  rw [searchPattern, escapedQuery_eq_flatMap]
  rfl

theorem ilike_searchPattern (fold : Char → Char) (q text : Text) :
    ilike fold (searchPattern q) text =
      some (decide (q.map fold <:+: text.map fold)) := by
  rw [searchPattern, escapedQuery_eq_flatMap]
  exact like_contains (by decide) q text

/-- A search finds the rows whose content, or else whose preview, contains the
text, up to the case of its characters. -/
theorem searchCondition_literal
    {Id Key : Type} [LinearOrder Id] [LinearOrder Key]
    (env : Env Id Key) (fold : Char → Char) (q : Text) :
    (∀ text, ilike fold (searchPattern q) text =
      some (decide (q.map fold <:+: text.map fold))) ∧
    ∀ id row, searchCondition (foldingBy env fold) q id row = true ↔
      q.map fold <:+: (row.content.getD row.contentPreview).map fold := by
  refine ⟨ilike_searchPattern fold q, fun id row => ?_⟩
  rw [searchCondition, ← searchPattern_eq, foldingBy]
  simp [ilike_searchPattern]

/-- A percent sign is looked for as such. -/
example : ilike Char.toLower (searchPattern "50%".toList)
    "a 50 percent sale".toList = some false := by decide

end NotifyHub.Dashboard
