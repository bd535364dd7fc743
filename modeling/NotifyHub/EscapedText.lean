import NotifyHub.OutboundFormatters
import Mathlib.Tactic

/-!
# Escaping to a limit

`fit_escaped` keeps the longest prefix whose escape fits, so a cut never falls
inside an entity.
-/

namespace NotifyHub.Formatter

/-! ## Escaped texts -/

def entities : List Text :=
  ["&amp;".toList, "&lt;".toList, "&gt;".toList]

/-- No markup, and every `&` starts an entity. -/
structure WellEscaped (text : Text) : Prop where
  noLess : '<' ∉ text
  noGreater : '>' ∉ text
  entity : ∀ rest, '&' :: rest <:+ text →
    ∃ entity ∈ entities, entity <+: '&' :: rest

theorem wellEscaped_nil : WellEscaped [] := by
  constructor <;> simp

/-- An entity in front of an escaped text. -/
theorem WellEscaped.entity_append
    {text entity : Text} (htext : WellEscaped text)
    (hentity : entity ∈ entities) : WellEscaped (entity ++ text) := by
  have hletters : '<' ∉ entity ∧ '>' ∉ entity := by
    revert entity
    decide
  refine ⟨?_, ?_, ?_⟩
  · simp [hletters.1, htext.noLess]
  · simp [hletters.2, htext.noGreater]
  · intro rest hrest
    simp only [entities, List.mem_cons, List.not_mem_nil, or_false] at hentity
    rcases hentity with rfl | rfl | rfl
    all_goals
      simp only [String.reduceToList, List.cons_append, List.nil_append,
        List.suffix_cons_iff, List.cons.injEq, Char.reduceEq, false_and,
        false_or, true_and] at hrest
      rcases hrest with rfl | hrest
      · simp [entities]
      · exact htext.entity rest hrest

/-- A character which stands for itself in front of an escaped text. -/
theorem WellEscaped.plain_append
    {text : Text} (htext : WellEscaped text) {char : Char}
    (hamp : char ≠ '&') (hless : char ≠ '<') (hgreater : char ≠ '>') :
    WellEscaped (char :: text) := by
  refine ⟨?_, ?_, ?_⟩
  · simp [hless.symm, htext.noLess]
  · simp [hgreater.symm, htext.noGreater]
  · intro rest hrest
    rw [List.suffix_cons_iff, List.cons.injEq] at hrest
    rcases hrest with ⟨hhead, -⟩ | hrest
    · exact absurd hhead.symm hamp
    · exact htext.entity rest hrest

theorem WellEscaped.escapeChar_append
    {text : Text} (htext : WellEscaped text) (char : Char) :
    WellEscaped (escapeChar char ++ text) := by
  unfold escapeChar
  split
  · exact htext.entity_append (by simp [entities])
  · exact htext.entity_append (by simp [entities])
  · exact htext.entity_append (by simp [entities])
  · next hamp hless hgreater =>
    exact htext.plain_append hamp hless hgreater

theorem wellEscaped_escaped (text : Text) : WellEscaped (escaped text) := by
  induction text with
  | nil => exact wellEscaped_nil
  | cons char rest ih =>
      rw [escaped_cons]
      exact ih.escapeChar_append char

/-! ## The longest prefix -/

/-- The longest prefix of a text whose escape has at most `limit`
characters. -/
structure LongestFitting (limit : ℕ) (text kept : Text) : Prop where
  isPrefix : kept <+: text
  fits : (escaped kept).length ≤ limit
  longest : ∀ other, other <+: text → (escaped other).length ≤ limit →
    other <+: kept

theorem length_escaped_cons (char : Char) (rest : Text) :
    (escaped (char :: rest)).length =
      (escapeChar char).length + (escaped rest).length := by
  rw [escaped_cons, List.length_append]

theorem longestFitting_nil (limit : ℕ) : LongestFitting limit [] [] :=
  ⟨List.prefix_rfl, limit.zero_le, fun _ hprefix _ => hprefix⟩

theorem LongestFitting.stop
    {limit : ℕ} {char : Char} (hstops : limit < (escapeChar char).length)
    (rest : Text) : LongestFitting limit (char :: rest) [] := by
  refine ⟨List.nil_prefix, limit.zero_le, ?_⟩
  intro other hprefix hfits
  cases other with
  | nil => exact List.prefix_rfl
  | cons head tail =>
      obtain ⟨rfl, -⟩ := List.cons_prefix_cons.mp hprefix
      rw [length_escaped_cons] at hfits
      omega

theorem LongestFitting.cons
    {limit : ℕ} {char : Char} {rest kept : Text}
    (hkept : LongestFitting (limit - (escapeChar char).length) rest kept)
    (hfits : (escapeChar char).length ≤ limit) :
    LongestFitting limit (char :: rest) (char :: kept) := by
  refine ⟨?_, ?_, ?_⟩
  · exact List.cons_prefix_cons.mpr ⟨rfl, hkept.isPrefix⟩
  · have hrest := hkept.fits
    rw [length_escaped_cons]
    omega
  · intro other hprefix hother
    cases other with
    | nil => exact List.nil_prefix
    | cons head tail =>
        obtain ⟨rfl, htail⟩ := List.cons_prefix_cons.mp hprefix
        rw [length_escaped_cons] at hother
        exact List.cons_prefix_cons.mpr
          ⟨rfl, hkept.longest tail htail (by omega)⟩

/-- What the loop adds is the escape of the longest prefix which the room left
can hold. -/
theorem fitLoop_longest
    {limit size : ℕ} (hsize : size ≤ limit) (out text : Text) :
    ∃ kept, LongestFitting (limit - size) text kept ∧
      (fitLoop limit out size text).1 = out ++ escaped kept := by
  induction text generalizing out size with
  | nil => exact ⟨[], longestFitting_nil _, (List.append_nil out).symm⟩
  | cons char rest ih =>
      rw [fitLoop]
      by_cases hstops : limit < size + (escapeChar char).length
      · rw [if_pos hstops]
        exact ⟨[], .stop (by omega) rest, (List.append_nil out).symm⟩
      · rw [if_neg hstops]
        have hroom : size + (escapeChar char).length ≤ limit := by omega
        obtain ⟨kept, hkept, hout⟩ := ih hroom (out ++ escapeChar char)
        rw [Nat.sub_add_eq] at hkept
        refine ⟨char :: kept, hkept.cons (by omega), ?_⟩
        rw [hout, escaped_cons, List.append_assoc]

/-- The answer of `fit_escaped` for every text and every limit. -/
theorem fitEscaped_longest (text : Text) (limit : ℕ) :
    (fitEscaped text limit).1.length ≤ limit ∧
      (∃ kept, LongestFitting limit text kept ∧
        (fitEscaped text limit).1 = escaped kept) ∧
      WellEscaped (fitEscaped text limit).1 ∧
      ((fitEscaped text limit).2 = true ↔ limit < (escaped text).length) := by
  obtain ⟨kept, hkept, hout⟩ := fitLoop_longest limit.zero_le [] text
  have hescaped : (fitEscaped text limit).1 = escaped kept := hout
  rw [hescaped]
  exact ⟨hkept.fits, ⟨kept, hkept, rfl⟩, wellEscaped_escaped kept,
    fitEscaped_cut text limit⟩

/-- A limit of six characters leaves out the second entity as a whole. -/
example : fitEscaped "a&&b".toList 6 = ("a&amp;".toList, true) := by decide

end NotifyHub.Formatter
