import Mathlib.Data.List.Nodup
import Mathlib.Data.Set.Function
import Mathlib.Tactic

/-!
# Renumbering in two passes

Members with distinct numbers get new numbers one by one, in any order.  As long
as no new number is in use yet, the numbers stay distinct all the way.  Two
passes over numbers that are not in use turn any numbering into that of a list:
the first one leaves the numbers below zero, where the second one finds nothing
that it assigns.
-/

namespace NotifyHub.Renumbering

variable {Id Number : Type*} [DecidableEq Id]

/-- The numbers after some assignments, one after the other. -/
def renumber (number : Id → Number) (updates : List (Id × Number)) :
    Id → Number :=
  updates.foldl (fun number update => Function.update number update.1 update.2)
    number

section Assignments

variable {number : Id → Number} {updates others : List (Id × Number)} {id : Id}
  {value : Number} {members : Set Id}

theorem renumber_cons (number : Id → Number) (update : Id × Number)
    (updates : List (Id × Number)) :
    renumber number (update :: updates) =
      renumber (Function.update number update.1 update.2) updates :=
  rfl

theorem renumber_of_notMem (hid : id ∉ updates.map Prod.fst) :
    renumber number updates id = number id := by
  induction updates generalizing number with
  | nil => rfl
  | cons update updates ih =>
      rw [List.map_cons, List.mem_cons, not_or] at hid
      rw [renumber_cons, ih hid.2, Function.update_of_ne hid.1]

theorem renumber_of_mem (hkeys : (updates.map Prod.fst).Nodup)
    (hmem : (id, value) ∈ updates) : renumber number updates id = value := by
  induction updates generalizing number with
  | nil => cases hmem
  | cons update updates ih =>
      rw [List.map_cons, List.nodup_cons] at hkeys
      rw [renumber_cons]
      rcases List.mem_cons.mp hmem with rfl | hrest
      · rw [renumber_of_notMem hkeys.1, Function.update_self]
      · exact ih hkeys.2 hrest

/-- A member has its old number or one which is assigned to it. -/
theorem renumber_cases (number : Id → Number)
    (hkeys : (updates.map Prod.fst).Nodup) (id : Id) :
    (renumber number updates id = number id ∧ id ∉ updates.map Prod.fst) ∨
      (id, renumber number updates id) ∈ updates := by
  by_cases hid : id ∈ updates.map Prod.fst
  · right
    obtain ⟨⟨key, value⟩, hmem, rfl⟩ := List.mem_map.mp hid
    rw [renumber_of_mem hkeys hmem]
    exact hmem
  · exact Or.inl ⟨renumber_of_notMem hid, hid⟩

/-- Distinct numbers of which none is in use keep the numbering distinct. -/
theorem renumber_injOn (hnumber : members.InjOn number)
    (hkeys : (updates.map Prod.fst).Nodup)
    (hvalues : (updates.map Prod.snd).Nodup)
    (hunused : ∀ update ∈ updates, ∀ id ∈ members, number id ≠ update.2) :
    members.InjOn (renumber number updates) := by
  intro id hid other hother heq
  rcases renumber_cases number hkeys id with
    ⟨hkept, -⟩ | hassigned
  · rcases renumber_cases number hkeys other with
      ⟨hkept', -⟩ | hassigned'
    · rw [hkept, hkept'] at heq
      exact hnumber hid hother heq
    · rw [hkept] at heq
      exact absurd heq (hunused _ hassigned' id hid)
  · rcases renumber_cases number hkeys other with
      ⟨hkept', -⟩ | hassigned'
    · rw [hkept'] at heq
      exact absurd heq.symm (hunused _ hassigned other hother)
    · have hsame := List.inj_on_of_nodup_map hvalues hassigned hassigned' heq
      exact congrArg Prod.fst hsame

/-- The order of the assignments does not matter in the end. -/
theorem renumber_perm (hkeys : (updates.map Prod.fst).Nodup)
    (hperm : others.Perm updates) :
    renumber number others = renumber number updates := by
  have hkeys' : (others.map Prod.fst).Nodup :=
    (hperm.map _).nodup_iff.mpr hkeys
  funext id
  rcases renumber_cases number hkeys' id with
    ⟨hkept, hid⟩ | hassigned
  · have hid' : id ∉ updates.map Prod.fst := by
      rw [← (hperm.map _).mem_iff]
      exact hid
    rw [hkept, renumber_of_notMem hid']
  · exact (renumber_of_mem hkeys (hperm.mem_iff.mp hassigned)).symm

end Assignments

/-! ## The two passes -/

/-- The members of a list below zero. -/
def below (ids : List Id) : List (Id × ℤ) :=
  ids.zipIdx.map fun entry => (entry.1, -((entry.2 : ℤ) + 1))

/-- The members of a list in steps. -/
def inSteps (step : ℤ) (ids : List Id) : List (Id × ℤ) :=
  ids.zipIdx.map fun entry => (entry.1, ((entry.2 : ℤ) + 1) * step)

section Passes

variable {ids : List Id} {step : ℤ} {number : Id → ℤ} {members : Set Id}
  {first second : List (Id × ℤ)}

omit [DecidableEq Id] in
theorem keys_zipIdx (value : ℕ → ℤ) :
    (ids.zipIdx.map fun entry => (entry.1, value entry.2)).map Prod.fst =
      ids := by
  rw [List.map_map]
  exact List.zipIdx_map_fst 0 ids

omit [DecidableEq Id] in
theorem values_zipIdx_nodup {value : ℕ → ℤ} (hvalue : Function.Injective value) :
    ((ids.zipIdx.map fun entry => (entry.1, value entry.2)).map
      Prod.snd).Nodup := by
  have hvalues : (ids.zipIdx.map fun entry => (entry.1, value entry.2)).map
      Prod.snd = (List.range' 0 ids.length).map value := by
    rw [List.map_map, ← List.zipIdx_map_snd 0 ids, List.map_map]
    rfl
  rw [hvalues]
  exact List.Nodup.map hvalue List.nodup_range'

theorem below_injective : Function.Injective fun index : ℕ =>
    -((index : ℤ) + 1) := by
  intro index other heq
  simp only at heq
  omega

theorem inSteps_injective (hstep : 0 < step) :
    Function.Injective fun index : ℕ => ((index : ℤ) + 1) * step := by
  intro index other heq
  have hsum := mul_right_cancel₀ hstep.ne' heq
  omega

omit [DecidableEq Id] in
theorem mem_below {update : Id × ℤ} (hupdate : update ∈ below ids) :
    update.2 < 0 := by
  obtain ⟨entry, -, rfl⟩ := List.mem_map.mp hupdate
  change -((entry.2 : ℤ) + 1) < 0
  omega

omit [DecidableEq Id] in
theorem mem_inSteps (hstep : 0 < step) {update : Id × ℤ}
    (hupdate : update ∈ inSteps step ids) : 0 < update.2 := by
  obtain ⟨entry, -, rfl⟩ := List.mem_map.mp hupdate
  exact mul_pos (by omega) hstep

omit [DecidableEq Id] in
/-- A part of a permuted pass assigns distinct numbers to distinct members. -/
theorem nodup_of_part {pass done : List (Id × ℤ)}
    (hkeys : (pass.map Prod.fst).Nodup) (hvalues : (pass.map Prod.snd).Nodup)
    (hperm : first.Perm pass) (hdone : done.Sublist first) :
    (done.map Prod.fst).Nodup ∧ (done.map Prod.snd).Nodup ∧
      ∀ update ∈ done, update ∈ pass := by
  refine ⟨?_, ?_, ?_⟩
  · exact ((hperm.map _).nodup_iff.mpr hkeys).sublist (hdone.map _)
  · exact ((hperm.map _).nodup_iff.mpr hvalues).sublist (hdone.map _)
  · exact fun update hupdate => hperm.mem_iff.mp (hdone.subset hupdate)

/-- The numbers stay distinct in the first pass. -/
theorem first_pass (hids : ids.Nodup) (hnumber : members.InjOn number)
    (hnonneg : ∀ id ∈ members, 0 ≤ number id) (hfirst : first.Perm (below ids))
    {done : List (Id × ℤ)} (hdone : done.Sublist first) :
    members.InjOn (renumber number done) := by
  have hkeys : ((below ids).map Prod.fst).Nodup := by
    rw [below, keys_zipIdx fun index => -((index : ℤ) + 1)]
    exact hids
  obtain ⟨hdoneKeys, hdoneValues, hpart⟩ := nodup_of_part hkeys
    (values_zipIdx_nodup below_injective) hfirst hdone
  apply renumber_injOn hnumber hdoneKeys hdoneValues
  intro update hupdate id hid heq
  have hnegative := mem_below (hpart update hupdate)
  have hpositive := hnonneg id hid
  omega

/-- After the first pass the members of the list are below zero. -/
theorem first_pass_neg (number : Id → ℤ) (hids : ids.Nodup) (hfirst : first.Perm (below ids))
    {id : Id} (hid : id ∈ ids) : renumber number first id < 0 := by
  have hpass : (below ids).map Prod.fst = ids :=
    keys_zipIdx fun index => -((index : ℤ) + 1)
  have hkeys : (first.map Prod.fst).Nodup := by
    rw [(hfirst.map _).nodup_iff, hpass]
    exact hids
  rcases renumber_cases number hkeys id with ⟨-, hnone⟩ | hassigned
  · rw [(hfirst.map _).mem_iff, hpass] at hnone
    exact absurd hid hnone
  · exact mem_below (hfirst.mem_iff.mp hassigned)

/-- The numbers stay distinct in the second pass. -/
theorem second_pass (hids : ids.Nodup) (hstep : 0 < step)
    (hmembers : ∀ id ∈ members, id ∈ ids) (hnumber : members.InjOn number)
    (hnonneg : ∀ id ∈ members, 0 ≤ number id) (hfirst : first.Perm (below ids))
    (hsecond : second.Perm (inSteps step ids))
    {done : List (Id × ℤ)} (hdone : done.Sublist second) :
    members.InjOn (renumber (renumber number first) done) := by
  have hkeys : ((inSteps step ids).map Prod.fst).Nodup := by
    rw [inSteps, keys_zipIdx fun index => ((index : ℤ) + 1) * step]
    exact hids
  obtain ⟨hdoneKeys, hdoneValues, hpart⟩ := nodup_of_part hkeys
    (values_zipIdx_nodup (inSteps_injective hstep)) hsecond hdone
  have hbetween := first_pass hids hnumber hnonneg hfirst (.refl first)
  apply renumber_injOn hbetween hdoneKeys hdoneValues
  intro update hupdate id hid heq
  have hpositive := mem_inSteps hstep (hpart update hupdate)
  have hnegative := first_pass_neg number hids hfirst (hmembers id hid)
  omega

/-- Both passes leave the numbering of the list. -/
theorem both_passes (hids : ids.Nodup) (hsecond : second.Perm (inSteps step ids))
    {index : ℕ} (hindex : index < ids.length) :
    renumber number second ids[index] = ((index : ℤ) + 1) * step := by
  have hkeys : ((inSteps step ids).map Prod.fst).Nodup := by
    rw [inSteps, keys_zipIdx fun index => ((index : ℤ) + 1) * step]
    exact hids
  rw [renumber_perm hkeys hsecond]
  apply renumber_of_mem hkeys
  refine List.mem_map.mpr ⟨(ids[index], index), ?_, rfl⟩
  exact List.mk_mem_zipIdx_iff_getElem?.mpr (List.getElem?_eq_getElem hindex)

end Passes

end NotifyHub.Renumbering
