import Mathlib.Data.List.Infix
import Mathlib.Tactic

/-!
# LIKE patterns

Patterns with a letter for any text, one for any letter, and one which takes
the letter after it literally.  A text whose special letters are escaped is
matched as it stands, whatever else the pattern contains; between two letters
for any text it is found exactly where it occurs.
-/

namespace NotifyHub.LikePattern

variable {Letter Folded : Type*} [DecidableEq Letter] [DecidableEq Folded]

/-- `%`, `_` and the escape letter of a pattern. -/
structure Specials (Letter : Type*) where
  many : Letter
  one : Letter
  escape : Letter

inductive Token (Letter : Type*)
  | many
  | one
  | literal (letter : Letter)

/-- The tokens of a pattern from left to right; the escape letter cannot be
the last one. -/
def tokens (specials : Specials Letter) :
    List Letter → Option (List (Token Letter))
  | [] => some []
  | letter :: rest =>
      if letter = specials.escape then
        match rest with
        | [] => none
        | escaped :: rest =>
            (tokens specials rest).map fun found => .literal escaped :: found
      else if letter = specials.many then
        (tokens specials rest).map fun found => .many :: found
      else if letter = specials.one then
        (tokens specials rest).map fun found => .one :: found
      else (tokens specials rest).map fun found => .literal letter :: found

/-- Letters are the same if they are folded to the same. -/
def covers (fold : Letter → Folded) : List (Token Letter) → List Letter → Bool
  | [], text => text.isEmpty
  | .many :: rest, text => text.tails.any (covers fold rest)
  | .one :: _, [] => false
  | .one :: rest, _ :: text => covers fold rest text
  | .literal _ :: _, [] => false
  | .literal letter :: rest, head :: text =>
      decide (fold letter = fold head) && covers fold rest text

/-- Whether a text matches a pattern; a pattern which ends with the escape
letter is refused. -/
def like
    (specials : Specials Letter) (fold : Letter → Folded)
    (pattern text : List Letter) : Option Bool :=
  (tokens specials pattern).map fun found => covers fold found text

/-- The special letters of a text, escaped. -/
def escapeText (specials : Specials Letter) (text : List Letter) :
    List Letter :=
  text.flatMap fun letter =>
    if letter = specials.escape ∨ letter = specials.many ∨
        letter = specials.one then
      [specials.escape, letter]
    else [letter]

variable {specials : Specials Letter} {fold : Letter → Folded}

/-! ## Tokens of an escaped text -/

theorem tokens_escape (letter : Letter) (rest : List Letter) :
    tokens specials (specials.escape :: letter :: rest) =
      (tokens specials rest).map fun found => .literal letter :: found := by
  rw [tokens, if_pos rfl]

theorem tokens_many (hmany : specials.many ≠ specials.escape)
    (rest : List Letter) :
    tokens specials (specials.many :: rest) =
      (tokens specials rest).map fun found => .many :: found := by
  rw [tokens.eq_def]
  simp [hmany]

theorem tokens_plain {letter : Letter}
    (hplain : ¬(letter = specials.escape ∨ letter = specials.many ∨
      letter = specials.one)) (rest : List Letter) :
    tokens specials (letter :: rest) =
      (tokens specials rest).map fun found => .literal letter :: found := by
  push Not at hplain
  rw [tokens.eq_def]
  simp [hplain]

theorem tokens_escapeText (text rest : List Letter) :
    tokens specials (escapeText specials text ++ rest) =
      (tokens specials rest).map fun found =>
        text.map Token.literal ++ found := by
  induction text with
  | nil => simp [escapeText]
  | cons letter text ih =>
      rw [escapeText, List.flatMap_cons, ← escapeText, List.append_assoc]
      split
      · rw [List.cons_append, List.singleton_append, tokens_escape, ih]
        simp [Function.comp_def]
      · next hplain =>
        rw [List.singleton_append, tokens_plain hplain, ih]
        simp [Function.comp_def]

/-! ## Matching literal letters -/

omit [DecidableEq Letter] in
theorem covers_many {rest : List (Token Letter)} {text : List Letter} :
    covers fold (.many :: rest) text = true ↔
      ∃ front back, text = front ++ back ∧ covers fold rest back = true := by
  simp only [covers, List.any_eq_true, List.mem_tails]
  constructor
  · rintro ⟨back, ⟨front, rfl⟩, hback⟩
    exact ⟨front, back, rfl, hback⟩
  · rintro ⟨front, back, rfl, hback⟩
    exact ⟨back, ⟨front, rfl⟩, hback⟩

omit [DecidableEq Letter] in
theorem covers_many_nil (text : List Letter) :
    covers fold [.many] text = true :=
  covers_many.mpr ⟨text, [], (List.append_nil text).symm, rfl⟩

omit [DecidableEq Letter] in
theorem covers_literals {query text : List Letter}
    {rest : List (Token Letter)} :
    covers fold (query.map Token.literal ++ rest) text = true ↔
      ∃ found back, text = found ++ back ∧
        query.map fold = found.map fold ∧ covers fold rest back = true := by
  induction query generalizing text with
  | nil =>
      constructor
      · intro hrest
        exact ⟨[], text, rfl, rfl, hrest⟩
      · rintro ⟨found, back, rfl, hnil, hrest⟩
        obtain rfl := List.map_eq_nil_iff.mp hnil.symm
        exact hrest
  | cons letter query ih =>
      cases text with
      | nil => simp [covers]
      | cons head text =>
          rw [List.map_cons, List.cons_append, covers, Bool.and_eq_true,
            decide_eq_true_eq, ih]
          constructor
          · rintro ⟨hsame, found, back, rfl, hfound, hrest⟩
            exact ⟨head :: found, back, rfl, by simp [hsame, hfound], hrest⟩
          · rintro ⟨found, back, htext, hfound, hrest⟩
            cases found with
            | nil => simp at hfound
            | cons other found =>
                obtain ⟨rfl, rfl⟩ := List.cons.inj htext
                obtain ⟨hsame, hfound⟩ := List.cons.inj hfound
                exact ⟨hsame, found, back, rfl, hfound, hrest⟩

omit [DecidableEq Letter] [DecidableEq Folded] in
/-- A stretch of a folded text is the folding of a stretch. -/
theorem infix_map_iff {query : List Folded} {text : List Letter} :
    query <:+: text.map fold ↔
      ∃ front found back, text = front ++ (found ++ back) ∧
        query = found.map fold := by
  constructor
  · rintro ⟨front, back, htext⟩
    obtain ⟨first, last, rfl, hfirst, rfl⟩ := List.map_eq_append_iff.mp htext.symm
    obtain ⟨before, found, rfl, -, rfl⟩ := List.map_eq_append_iff.mp hfirst
    exact ⟨before, found, last, List.append_assoc .., rfl⟩
  · rintro ⟨front, found, back, rfl, rfl⟩
    exact ⟨front.map fold, back.map fold, by simp⟩

/-- A search for an escaped text finds the text and nothing else. -/
theorem like_contains
    (hmany : specials.many ≠ specials.escape) (query text : List Letter) :
    like specials fold
        (specials.many :: escapeText specials query ++ [specials.many]) text =
      some (decide (query.map fold <:+: text.map fold)) := by
  have hlast : tokens specials [specials.many] = some [.many] := by
    rw [tokens_many hmany, tokens, Option.map_some]
  rw [like, List.cons_append, tokens_many hmany, tokens_escapeText, hlast]
  simp only [Option.map_some, Option.some.injEq]
  rw [Bool.eq_iff_iff, covers_many, decide_eq_true_eq, infix_map_iff]
  constructor
  · rintro ⟨front, back, rfl, hback⟩
    obtain ⟨found, rest, rfl, hfound, -⟩ := covers_literals.mp hback
    exact ⟨front, found, rest, rfl, hfound⟩
  · rintro ⟨front, found, rest, rfl, hfound⟩
    exact ⟨front, found ++ rest, rfl, covers_literals.mpr
      ⟨found, rest, rfl, hfound, covers_many_nil rest⟩⟩

end NotifyHub.LikePattern
