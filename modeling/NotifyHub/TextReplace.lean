import Mathlib.Data.List.Infix
import Mathlib.Tactic

/-!
# Replacing the occurrences of a text

The replacement of all occurrences from left to right, none of which overlap.
What occurs in the result occurs in the text already, or touches one of the
inserted markers; how it can touch one is a question about the replaced text
and the marker alone.
-/

namespace NotifyHub.TextReplace

variable {Letter : Type*} [DecidableEq Letter]

/-- The number counts the letters of an occurrence which is being left out. -/
def replaceSkipping (old new : List Letter) : ℕ → List Letter → List Letter
  | _, [] => []
  | 0, letter :: rest =>
      if old.isPrefixOf (letter :: rest) then
        new ++ replaceSkipping old new (old.length - 1) rest
      else letter :: replaceSkipping old new 0 rest
  | skipped + 1, _ :: rest => replaceSkipping old new skipped rest

/-- `text.replace(old, new)` of a text `old` which is not empty. -/
def replaceAll (old new text : List Letter) : List Letter :=
  replaceSkipping old new 0 text

/-- In the text followed by `old`, `old` is found at the end only. -/
def FirstAt (old front : List Letter) : Prop :=
  ∀ start < front.length, ¬old <+: (front ++ old).drop start

instance (old front : List Letter) : Decidable (FirstAt old front) :=
  inferInstanceAs (Decidable (∀ _ < _, _))

section Rules

variable {old new text found rest marker : List Letter}

@[simp] theorem replaceAll_nil (old new : List Letter) :
    replaceAll old new [] = [] :=
  rfl

theorem replaceSkipping_eq (old new : List Letter) (skipped : ℕ)
    (text : List Letter) :
    replaceSkipping old new skipped text =
      replaceAll old new (text.drop skipped) := by
  induction text generalizing skipped with
  | nil =>
      rw [List.drop_nil]
      cases skipped with
      | zero => rfl
      | succ skipped => rfl
  | cons letter rest ih =>
      cases skipped with
      | zero => rfl
      | succ skipped => exact ih skipped

theorem replaceAll_append (hold : old ≠ []) (rest : List Letter) :
    replaceAll old new (old ++ rest) = new ++ replaceAll old new rest := by
  obtain ⟨first, others, rfl⟩ := List.exists_cons_of_ne_nil hold
  have hbegins : (first :: others).isPrefixOf (first :: (others ++ rest)) =
      true := by
    rw [List.isPrefixOf_iff_prefix]
    exact ⟨rest, rfl⟩
  rw [List.cons_append, replaceAll, replaceSkipping, if_pos hbegins,
    replaceSkipping_eq, List.length_cons, Nat.add_sub_cancel,
    List.drop_left]

theorem replaceAll_cons {letter : Letter}
    (hnone : ¬old <+: letter :: rest) :
    replaceAll old new (letter :: rest) =
      letter :: replaceAll old new rest := by
  have hbegins : ¬old.isPrefixOf (letter :: rest) = true := by
    rw [List.isPrefixOf_iff_prefix]
    exact hnone
  rw [replaceAll, replaceSkipping, if_neg hbegins]
  rfl

/-- The cases of a replacement: an occurrence in front, or a letter. -/
theorem replace_induction {motive : List Letter → Prop} (hold : old ≠ [])
    (nil : motive [])
    (occurrence : ∀ rest, motive rest → motive (old ++ rest))
    (letter : ∀ letter rest, ¬old <+: letter :: rest → motive rest →
      motive (letter :: rest)) (text : List Letter) : motive text := by
  induction hlength : text.length using Nat.strong_induction_on
    generalizing text with
  | _ length ih =>
    cases text with
    | nil => exact nil
    | cons head tail =>
        by_cases hbegins : old <+: head :: tail
        · obtain ⟨rest, hrest⟩ := hbegins
          rw [← hrest] at hlength ⊢
          have hpos := List.length_pos_of_ne_nil hold
          rw [List.length_append] at hlength
          exact occurrence rest (ih rest.length (by omega) rest rfl)
        · rw [List.length_cons] at hlength
          exact letter head tail hbegins (ih tail.length (by omega) tail rfl)

theorem replaceAll_of_not_infix (hnone : ¬old <:+: text) :
    replaceAll old new text = text := by
  induction text with
  | nil => rfl
  | cons letter rest ih =>
      have hrest : ¬old <:+: rest := fun hpart =>
        hnone (hpart.trans (List.suffix_cons letter rest).isInfix)
      rw [replaceAll_cons fun hbegins => hnone hbegins.isInfix, ih hrest]

/-- A single letter is replaced wherever it stands. -/
theorem replaceAll_singleton (letter : Letter) (new text : List Letter) :
    replaceAll [letter] new text =
      text.flatMap fun other => if other = letter then new else [other] := by
  induction text with
  | nil => rfl
  | cons head rest ih =>
      rw [List.flatMap_cons, ← ih]
      by_cases hhead : head = letter
      · subst hhead
        rw [if_pos rfl]
        exact replaceAll_append (List.cons_ne_nil _ _) rest
      · have hnone : ¬[letter] <+: head :: rest := by
          simp [Ne.symm hhead]
        rw [if_neg hhead, replaceAll_cons hnone]
        rfl

/-- The text in front of an occurrence stays. -/
theorem replaceAll_firstAt (hold : old ≠ []) {front : List Letter}
    (hfirst : FirstAt old front) :
    replaceAll old new (front ++ old) = front ++ new := by
  induction front with
  | nil =>
      have hwhole : replaceAll old new (old ++ []) =
          new ++ replaceAll old new [] := replaceAll_append hold []
      rw [List.append_nil, replaceAll_nil, List.append_nil] at hwhole
      exact hwhole
  | cons letter front ih =>
      have hnone : ¬old <+: letter :: (front ++ old) :=
        hfirst 0 (Nat.zero_lt_succ _)
      have hrest : FirstAt old front := fun start hstart =>
        hfirst (start + 1) (Nat.succ_lt_succ hstart)
      rw [List.cons_append, replaceAll_cons hnone, ih hrest, List.cons_append]

/-! ## Occurrences in the result -/

/-- What the result begins with begins the text, and nothing is replaced in it,
or it runs into the marker of the first occurrence. -/
theorem prefix_replaceAll (hold : old ≠ [])
    (hfound : found <+: replaceAll old new text) :
    (found <+: text ∧ ∀ start < found.length, ¬old <+: text.drop start) ∨
      ∃ front piece, front ++ old <+: text ∧ FirstAt old front ∧
        piece ≠ [] ∧ found = front ++ piece ∧
        (piece <+: new ∨ new <+: piece) := by
  induction text using replace_induction hold generalizing found with
  | nil =>
      obtain rfl := List.prefix_nil.mp hfound
      exact .inl ⟨List.prefix_rfl, by simp⟩
  | occurrence rest _ =>
      rw [replaceAll_append hold] at hfound
      cases found with
      | nil => exact .inl ⟨List.nil_prefix, by simp⟩
      | cons head tail =>
          refine .inr ⟨[], head :: tail, List.prefix_append old rest, ?_, by simp,
            rfl, ?_⟩
          · intro start hstart
            cases hstart
          · exact List.prefix_or_prefix_of_prefix hfound
              (List.prefix_append new _)
  | letter letter rest hnone ih =>
      rw [replaceAll_cons hnone] at hfound
      cases found with
      | nil => exact .inl ⟨List.nil_prefix, by simp⟩
      | cons head tail =>
          obtain ⟨rfl, htail⟩ := List.cons_prefix_cons.mp hfound
          rcases ih htail with ⟨hrest, hkept⟩ | ⟨front, piece, hfront, hfirst,
            hpiece, rfl, hmarker⟩
          · refine .inl ⟨List.cons_prefix_cons.mpr ⟨rfl, hrest⟩, ?_⟩
            intro start hstart
            cases start with
            | zero => exact hnone
            | succ start => exact hkept start (Nat.lt_of_succ_lt_succ hstart)
          · refine .inr ⟨head :: front, piece,
              List.cons_prefix_cons.mpr ⟨rfl, hfront⟩, ?_, hpiece, rfl, hmarker⟩
            intro start hstart
            cases start with
            | zero =>
                intro hbegins
                exact hnone (hbegins.trans
                  (List.cons_prefix_cons.mpr ⟨rfl, hfront⟩))
            | succ start => exact hfirst start (Nat.lt_of_succ_lt_succ hstart)

omit [DecidableEq Letter] in
theorem infix_append_cases {front : List Letter} (hfound : found <:+: front ++ rest) :
    found <:+: rest ∨
      ∃ start < front.length, found <+: front.drop start ++ rest := by
  induction front with
  | nil => exact .inl hfound
  | cons letter front ih =>
      rcases List.infix_cons_iff.mp hfound with hbegins | hpart
      · exact .inr ⟨0, Nat.zero_lt_succ _, hbegins⟩
      · refine (ih hpart).imp_right ?_
        rintro ⟨start, hstart, hlater⟩
        exact ⟨start + 1, Nat.succ_lt_succ hstart, hlater⟩

/-- An occurrence in the result starts with a letter that was kept, or with the
marker, or inside of it. -/
theorem infix_replaceAll (hold : old ≠ [])
    (hfound : found <:+: replaceAll old new text) :
    ∃ rest, rest <:+ text ∧
      (found <+: replaceAll old new rest ∨
        ∃ start, 0 < start ∧ start < new.length ∧
          found <+: new.drop start ++ replaceAll old new rest) := by
  induction text using replace_induction hold with
  | nil => exact ⟨[], List.suffix_rfl, .inl (by simpa using hfound)⟩
  | occurrence rest ih =>
      rw [replaceAll_append hold] at hfound
      rcases infix_append_cases hfound with hrest | ⟨start, hstart, hinside⟩
      · obtain ⟨later, hsuffix, hlater⟩ := ih hrest
        exact ⟨later, hsuffix.trans (List.suffix_append old rest), hlater⟩
      · cases start with
        | zero =>
            refine ⟨old ++ rest, List.suffix_rfl, .inl ?_⟩
            rw [replaceAll_append hold]
            exact hinside
        | succ start =>
            exact ⟨rest, List.suffix_append old rest,
              .inr ⟨start + 1, Nat.zero_lt_succ _, hstart, hinside⟩⟩
  | letter letter rest hnone ih =>
      rw [replaceAll_cons hnone] at hfound
      rcases List.infix_cons_iff.mp hfound with hbegins | hpart
      · refine ⟨letter :: rest, List.suffix_rfl, .inl ?_⟩
        rw [replaceAll_cons hnone]
        exact hbegins
      · obtain ⟨later, hsuffix, hlater⟩ := ih hpart
        exact ⟨later, hsuffix.trans (List.suffix_cons letter rest), hlater⟩

/-! ## Texts apart from the marker -/

/-- A text made of letters and a piece of the marker: it ends with the start of
the marker, of more than one letter, or begins with its end, or contains it. -/
def Touches (marker found : List Letter) : Prop :=
  (∃ front piece, front ≠ [] ∧ 2 ≤ piece.length ∧ piece <+: marker ∧
      found = front ++ piece) ∨
    (∃ start more, start < marker.length ∧ more ≠ [] ∧
      found = marker.drop start ++ more) ∨
    ∃ front more, front ≠ [] ∧ more ≠ [] ∧ found = front ++ marker ++ more

omit [DecidableEq Letter] in
/-- Letters and a piece of the marker at the end of them. -/
theorem piece_apart {front piece : List Letter}
    (hapart : ¬Touches marker (front ++ piece))
    (houtside : ¬front ++ piece <:+: marker) (hpiece : piece ≠ [])
    (hmarker : piece <+: marker) :
    front ≠ [] ∧ piece = marker.take 1 := by
  have hfront : front ≠ [] := by
    rintro rfl
    exact houtside hmarker.isInfix
  have hlength := List.length_pos_of_ne_nil hpiece
  have hshort : piece.length = 1 := by
    by_contra hlong
    exact hapart (.inl ⟨front, piece, hfront, by omega, hmarker, rfl⟩)
  refine ⟨hfront, ?_⟩
  have htake := List.prefix_iff_eq_take.mp hmarker
  rwa [hshort] at htake

/-- A text apart from the marker occurs in the result because it occurs in the
text, or because the first letter of a marker completes it. -/
theorem infix_replaceAll_apart (hold : old ≠ []) (hnew : new ≠ [])
    (hapart : ¬Touches new found) (houtside : ¬found <:+: new)
    (hfound : found <:+: replaceAll old new text) :
    (found ≠ old ∧ found <:+: text) ∨
      ∃ front, front ≠ [] ∧ front ++ old <:+: text ∧ FirstAt old front ∧
        found = front ++ new.take 1 := by
  obtain ⟨rest, hsuffix, hstarts | ⟨start, _, hlast, hinside⟩⟩ :=
    infix_replaceAll hold hfound
  · rcases prefix_replaceAll hold hstarts with ⟨hbegins, hkept⟩ |
      ⟨front, piece, hfront, hfirst, hpiece, rfl, hshort | ⟨more, rfl⟩⟩
    · refine .inl ⟨?_, hbegins.isInfix.trans hsuffix.isInfix⟩
      rintro rfl
      exact hkept 0 (List.length_pos_of_ne_nil hold) hbegins
    · obtain ⟨hletters, rfl⟩ := piece_apart hapart houtside hpiece hshort
      exact .inr ⟨front, hletters, hfront.isInfix.trans hsuffix.isInfix, hfirst,
        rfl⟩
    · cases more with
      | nil =>
          rw [List.append_nil] at hapart houtside hpiece
          obtain ⟨hletters, htake⟩ :=
            piece_apart hapart houtside hpiece List.prefix_rfl
          refine .inr ⟨front, hletters, hfront.isInfix.trans hsuffix.isInfix,
            hfirst, ?_⟩
          rw [List.append_nil, ← htake]
      | cons head tail =>
          exfalso
          cases front with
          | nil =>
              exact hapart (.inr (.inl ⟨0, head :: tail,
                List.length_pos_of_ne_nil hnew, by simp, rfl⟩))
          | cons first others =>
              exact hapart (.inr (.inr ⟨first :: others, head :: tail, by simp,
                by simp, (List.append_assoc _ _ _).symm⟩))
  · exfalso
    rcases List.prefix_or_prefix_of_prefix hinside
      (List.prefix_append (new.drop start) _) with hshort | ⟨more, rfl⟩
    · exact houtside (hshort.isInfix.trans (List.drop_suffix start new).isInfix)
    · cases more with
      | nil =>
          rw [List.append_nil] at houtside
          exact houtside (List.drop_suffix start new).isInfix
      | cons head tail =>
          exact hapart (.inr (.inl ⟨start, head :: tail, hlast, by simp, rfl⟩))

/-- A text which begins like the marker does not occur when it is replaced. -/
theorem not_infix_replaceAll_self (hold : old ≠ []) (hnew : new ≠ [])
    (hapart : ¬Touches new old) (houtside : ¬old <:+: new)
    (hhead : new.take 1 <+: old) : ¬old <:+: replaceAll old new text := by
  intro hfound
  rcases infix_replaceAll_apart hold hnew hapart houtside hfound with
    ⟨hne, -⟩ | ⟨front, hletters, -, hfirst, heq⟩
  · exact hne rfl
  · -- the letters in front and the first letter of the text are an occurrence
    refine hfirst 0 (List.length_pos_of_ne_nil hletters) ?_
    rw [List.drop_zero]
    nth_rewrite 1 [heq]
    exact (List.prefix_append_right_inj front).mpr hhead

end Rules

end NotifyHub.TextReplace
