import Mathlib.Data.List.Infix
import Mathlib.Tactic

/-!
# Rotated files

Numbered files, the newest one with number zero.  A rotation moves every file to
the next number, from the oldest one on, and any of its moves may fail.  What
the files hold together, from the oldest one to the newest one, then stays as it
was, but for the oldest file when its number is the last one.
-/

namespace NotifyHub.RotatedFiles

/-- The files there are. -/
abbrev Files (α : Type) := ℕ → Option (List α)

variable {α : Type}

def content (files : Files α) (index : ℕ) : List α := (files index).getD []

/-- What the files up to a number hold, the oldest one first. -/
def joined (files : Files α) : ℕ → List α
  | 0 => content files 0
  | last + 1 => content files (last + 1) ++ joined files last

/-- Move a file; one at the target is replaced. -/
def rename (files : Files α) (source target : ℕ) : Files α :=
  fun index =>
    if index = source then none
    else if index = target then files source
    else files index

/-- Move the files from a number down to one, each to the next number, and stop
where a move fails. -/
def shift (fails : ℕ → Bool) : ℕ → Files α → Except (Files α) (Files α)
  | 0, files => .ok files
  | index + 1, files =>
      if (files (index + 1)).isSome then
        if fails (index + 1) then .error files
        else shift fails index (rename files (index + 1) (index + 2))
      else shift fails index files

/-- The files a rotation leaves, whether it has failed or not. -/
def left : Except (Files α) (Files α) → Files α
  | .ok files => files
  | .error files => files

variable {files others : Files α} {index last : ℕ}

theorem joined_congr
    (hsame : ∀ index ≤ last, content files index = content others index) :
    joined files last = joined others last := by
  induction last with
  | zero => exact hsame 0 le_rfl
  | succ last ih =>
      rw [joined, joined, hsame (last + 1) le_rfl,
        ih fun index hindex => hsame index (Nat.le_succ_of_le hindex)]

theorem joined_eq_nil (hempty : ∀ number, files number = none) :
    joined files last = [] := by
  induction last with
  | zero => rw [joined, content, hempty]; rfl
  | succ last ih => rw [joined, content, hempty, ih]; rfl

/-- What the newest file holds comes last. -/
theorem joined_append
    {added : List α} (hnewest : content files 0 = content others 0 ++ added)
    (hsame : ∀ index, content files (index + 1) = content others (index + 1)) :
    joined files last = joined others last ++ added := by
  induction last with
  | zero => exact hnewest
  | succ last ih => rw [joined, joined, hsame, ih, List.append_assoc]

theorem content_rename_source (files : Files α) (source target : ℕ) :
    content (rename files source target) source = [] := by
  simp [content, rename]

theorem content_rename_target
    (files : Files α) {source target : ℕ} (hne : target ≠ source) :
    content (rename files source target) target = content files source := by
  simp [content, rename, hne]

theorem content_rename_other
    (files : Files α) {source target index : ℕ} (hsource : index ≠ source)
    (htarget : index ≠ target) :
    content (rename files source target) index = content files index := by
  simp [content, rename, hsource, htarget]

/-- A move to the last number loses at most the file which was there. -/
theorem joined_rename_last (files : Files α) (last : ℕ) :
    joined (rename files last (last + 1)) (last + 1) = joined files last := by
  rw [joined, content_rename_target files (Nat.succ_ne_self last)]
  cases last with
  | zero => rw [joined, content_rename_source, List.append_nil]; rfl
  | succ last =>
      rw [joined, joined, content_rename_source, List.nil_append]
      congr 1
      apply joined_congr
      intro index hindex
      apply content_rename_other <;> omega

/-- A move to a number without a file loses nothing. -/
theorem joined_rename
    (hfree : files (index + 1) = none) (hindex : index < last) :
    joined (rename files index (index + 1)) last = joined files last := by
  induction last with
  | zero => omega
  | succ last ih =>
      rcases Nat.eq_or_lt_of_le (Nat.le_of_lt_succ hindex) with rfl | hless
      · rw [joined_rename_last, joined, content, hfree, Option.getD_none,
          List.nil_append]
      · rw [joined, joined, ih hless]
        congr 1
        apply content_rename_other <;> omega

theorem joined_suffix_succ (files : Files α) (last : ℕ) :
    joined files last <:+ joined files (last + 1) :=
  List.suffix_append _ _

/-- The files above the last number stay, and so does the newest one. -/
theorem shift_other
    (fails : ℕ → Bool) (files : Files α) (index number : ℕ)
    (hnumber : number = 0 ∨ index + 1 < number) :
    left (shift fails index files) number = files number := by
  induction index generalizing files with
  | zero => rfl
  | succ index ih =>
      rw [shift]
      split
      next hexists =>
        split
        next hfails => rfl
        next hmoved =>
          rw [ih _ (by omega), rename, if_neg (by omega), if_neg (by omega)]
      next habsent => exact ih _ (by omega)

/-- Moves below a number without a file lose nothing. -/
theorem joined_shift
    (fails : ℕ → Bool) (hfree : files (index + 1) = none)
    (hindex : index < last) :
    joined (left (shift fails index files)) last = joined files last := by
  induction index generalizing files with
  | zero => rfl
  | succ index ih =>
      rw [shift]
      split
      next hexists =>
        split
        next hfails => rfl
        next hmoved =>
          rw [ih (by simp [rename]) (by omega), joined_rename hfree hindex]
      next habsent =>
        exact ih (Option.not_isSome_iff_eq_none.mp habsent) (by omega)

/-- All moves together lose at most the oldest file. -/
theorem joined_shift_last (fails : ℕ → Bool) (files : Files α) (last : ℕ) :
    joined (left (shift fails last files)) (last + 1) <:+
      joined files (last + 1) := by
  cases last with
  | zero => exact List.suffix_rfl
  | succ last =>
      rw [shift]
      split
      next hexists =>
        split
        next hfails => exact List.suffix_rfl
        next hmoved =>
          rw [joined_shift fails (by simp [rename]) (by omega),
            joined_rename_last]
          exact joined_suffix_succ files (last + 1)
      next habsent =>
        rw [joined_shift fails (Option.not_isSome_iff_eq_none.mp habsent)
          (by omega)]

/-- Every file is one which was there, and the newest one is no other. -/
theorem shift_source
    (fails : ℕ → Bool) {number : ℕ} {held : List α}
    (hheld : left (shift fails index files) number = some held) :
    ∃ source, (source = 0 ↔ number = 0) ∧ files source = some held := by
  induction index generalizing files with
  | zero => exact ⟨number, Iff.rfl, hheld⟩
  | succ index ih =>
      rw [shift] at hheld
      split at hheld
      next hexists =>
        split at hheld
        next hfails => exact ⟨number, Iff.rfl, hheld⟩
        next hmoved =>
          obtain ⟨source, hzero, hsource⟩ := ih hheld
          rw [rename] at hsource
          split at hsource
          next hmovedAway => contradiction
          next hother =>
            split at hsource
            next htarget => exact ⟨index + 1, by omega, hsource⟩
            next hsame => exact ⟨source, hzero, hsource⟩
      next habsent => exact ih hheld

theorem shift_isOk
    {fails : ℕ → Bool} (hfails : ∀ index, fails index = false) (index : ℕ)
    (files : Files α) : ∃ moved, shift fails index files = .ok moved := by
  induction index generalizing files with
  | zero => exact ⟨files, rfl⟩
  | succ index ih =>
      rw [shift, hfails]
      split
      next hexists => exact ih _
      next habsent => exact ih _

/-- When every move has been made, number one is free. -/
theorem shift_ok_first
    {fails : ℕ → Bool} {moved : Files α}
    (hmoved : shift fails (index + 1) files = .ok moved) : moved 1 = none := by
  induction index generalizing files with
  | zero =>
      rw [shift] at hmoved
      split at hmoved
      next hexists =>
        split at hmoved
        next hfails => contradiction
        next hmade =>
          obtain rfl := Except.ok.inj hmoved
          simp [rename]
      next habsent =>
        obtain rfl := Except.ok.inj hmoved
        exact Option.not_isSome_iff_eq_none.mp habsent
  | succ index ih =>
      rw [shift] at hmoved
      split at hmoved
      next hexists =>
        split at hmoved
        next hfails => contradiction
        next hmade => exact ih hmoved
      next habsent => exact ih hmoved

/-- When every move has been made, each file has the next number. -/
theorem shift_ok
    {fails : ℕ → Bool} {moved : Files α}
    (hmoved : shift fails index files = .ok moved)
    (hgapless : files index = none → files (index + 1) = none) {number : ℕ}
    (hpositive : 0 < number) (hnumber : number ≤ index) :
    moved (number + 1) = files number := by
  induction index generalizing files with
  | zero => omega
  | succ index ih =>
      have hlast : moved (index + 2) =
          left (shift fails (index + 1) files) (index + 2) := by
        rw [hmoved]
        rfl
      rw [shift] at hmoved hlast
      split at hmoved
      next hexists =>
        rw [if_pos hexists] at hlast
        split at hmoved
        next hfails => contradiction
        next hmade =>
          rw [if_neg hmade, shift_other fails _ _ _ (by omega)] at hlast
          rcases Nat.eq_or_lt_of_le hnumber with rfl | hless
          · simpa [rename] using hlast
          · rw [ih hmoved (by simp [rename]) (Nat.le_of_lt_succ hless), rename,
              if_neg (by omega), if_neg (by omega)]
      next habsent =>
        rw [if_neg habsent, shift_other fails _ _ _ (by omega)] at hlast
        have hnone := Option.not_isSome_iff_eq_none.mp habsent
        rcases Nat.eq_or_lt_of_le hnumber with rfl | hless
        · rw [hlast, hnone]
          exact hgapless hnone
        · exact ih hmoved (fun _ => hnone) (Nat.le_of_lt_succ hless)

/-- Files one number higher, with nothing in the newest one. -/
theorem joined_next
    (hnewest : content others 0 = [])
    (hnext : ∀ number ≤ last,
      content others (number + 1) = content files number) :
    joined others (last + 1) = joined files last := by
  induction last with
  | zero =>
      rw [joined, joined, joined, hnewest, List.append_nil]
      exact hnext 0 le_rfl
  | succ last ih =>
      have hrest := ih fun number hnumber =>
        hnext number (Nat.le_succ_of_le hnumber)
      rw [joined, hrest, hnext (last + 1) le_rfl]
      rfl

theorem length_joined
    {size : ℕ} (hsize : ∀ number, 0 < number → number ≤ last →
      size ≤ (content files number).length) :
    last * size ≤ (joined files last).length := by
  induction last with
  | zero => simp
  | succ last ih =>
      have hothers := ih fun number hpositive hnumber =>
        hsize number hpositive (Nat.le_succ_of_le hnumber)
      have holdest := hsize (last + 1) (Nat.succ_pos last) le_rfl
      rw [joined, List.length_append, Nat.succ_mul, Nat.add_comm]
      exact Nat.add_le_add holdest hothers

end NotifyHub.RotatedFiles
