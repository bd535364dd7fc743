import NotifyHub.RelationalTables
import Mathlib.Tactic

/-!
# Rows numbered by their order

`ROW_NUMBER()` gives each row of a part of a table its place in an order.
The numbers tell the rows of a part apart and are at most as many as these, and
a query which sorts by the numbers instead returns the rows it returned
before.
-/

namespace NotifyHub

/-- The place of an element of a strictly ascending list. -/
theorem idxOf_lt_idxOf
    {α : Type*} [DecidableEq α] {Before : α → α → Prop} {values : List α}
    (hsorted : values.Pairwise Before) (hasymm : ∀ a b, Before a b → ¬Before b a)
    {first second : α} (hfirst : first ∈ values) (hsecond : second ∈ values)
    (hbefore : Before first second) :
    values.idxOf first < values.idxOf second := by
  have hplace := List.idxOf_lt_length_iff.mpr hfirst
  have hother := List.idxOf_lt_length_iff.mpr hsecond
  rcases lt_trichotomy (values.idxOf first) (values.idxOf second) with
    hlt | heq | hgt
  · exact hlt
  · have hsame : first = second := (List.idxOf_inj hfirst).mp heq
    subst hsame
    exact absurd hbefore (hasymm _ _ hbefore)
  · have hafter := List.pairwise_iff_getElem.mp hsorted _ _ hother hplace hgt
    rw [List.getElem_idxOf, List.getElem_idxOf] at hafter
    exact absurd hbefore (hasymm _ _ hafter)

namespace Table

variable {Id Row α β Part : Type*} [LinearOrder Id] [LinearOrder α]
  [LinearOrder β] [DecidableEq Part]

/-- The key of a row, ties going by the id. -/
def orderOf (table : Table Id Row) (key : Id → Row → α) (id : Id) : α ×ₗ Id :=
  toLex (key id (table.row id), id)

/-- The rows of the same part. -/
def partOf (table : Table Id Row) (part : Row → Part) (id : Id) : Finset Id :=
  table.select fun _ row => part row = part (table.row id)

/-- `ROW_NUMBER() OVER (PARTITION BY part ORDER BY key, id)`. -/
def rowNumber
    (table : Table Id Row) (part : Row → Part) (key : Id → Row → α)
    (id : Id) : ℕ :=
  ((table.fetch key (table.partOf part id)).map Prod.fst).idxOf id + 1

variable {table : Table Id Row} {part : Row → Part} {key : Id → Row → α}

omit [LinearOrder Id] [LinearOrder α] in
theorem orderOf_injective : Function.Injective (table.orderOf key) := by
  intro first second hsame
  exact congrArg (fun pair => (ofLex pair).2) hsame

theorem keys_pairwise (ids : Finset Id) :
    ((table.fetch key ids).map Prod.fst).Pairwise fun first second =>
      table.orderOf key first < table.orderOf key second := by
  rw [List.pairwise_map]
  refine (table.fetch_pairwise key).imp_of_mem ?_
  intro first second hfirst hsecond hlt
  rw [(mem_fetch.mp hfirst).2, (mem_fetch.mp hsecond).2] at hlt
  exact hlt

theorem mem_keys {ids : Finset Id} {id : Id} :
    id ∈ (table.fetch key ids).map Prod.fst ↔ id ∈ ids := by
  simp only [List.mem_map, mem_fetch]
  constructor
  · rintro ⟨entry, ⟨hid, -⟩, rfl⟩
    exact hid
  · intro hid
    exact ⟨(id, table.row id), ⟨hid, rfl⟩, rfl⟩

theorem fetch_eq_map (ids : Finset Id) :
    table.fetch key ids = ((table.fetch key ids).map Prod.fst).map fun id =>
      (id, table.row id) := by
  rw [List.map_map]
  refine (List.map_id _).symm.trans (List.map_congr_left fun entry hentry => ?_)
  exact Prod.ext rfl (mem_fetch.mp hentry).2

theorem length_fetch (ids : Finset Id) :
    (table.fetch key ids).length = ids.card := by
  have hkeys : ((table.fetch key ids).map Prod.fst).toFinset = ids := by
    ext id
    rw [List.mem_toFinset, mem_keys]
  rw [← List.length_map Prod.fst,
    ← List.toFinset_card_of_nodup (table.nodup_fetch key), hkeys]

theorem rowNumber_le
    (part : Row → Part) (key : Id → Row → α) {id : Id}
    (hid : id ∈ table.ids) :
    table.rowNumber part key id ≤ (table.partOf part id).card := by
  have hmem : id ∈ (table.fetch key (table.partOf part id)).map Prod.fst :=
    mem_keys.mpr (by simp [partOf, hid])
  have hplace := List.idxOf_lt_length_iff.mpr hmem
  rw [List.length_map, length_fetch] at hplace
  exact hplace

/-- The last row of a part gets the number of its rows. -/
theorem exists_rowNumber
    (part : Row → Part) (key : Id → Row → α) {id : Id}
    (hid : id ∈ table.ids) :
    ∃ last ∈ table.partOf part id,
      table.rowNumber part key last = (table.partOf part id).card := by
  have hlength : ((table.fetch key (table.partOf part id)).map
      Prod.fst).length = (table.partOf part id).card := by
    rw [List.length_map, length_fetch]
  have hpos : 0 < (table.partOf part id).card :=
    Finset.card_pos.mpr ⟨id, by simp [partOf, hid]⟩
  have hplace : (table.partOf part id).card - 1 <
      ((table.fetch key (table.partOf part id)).map Prod.fst).length := by
    omega
  obtain ⟨last, hlast⟩ : ∃ last,
      last = ((table.fetch key (table.partOf part id)).map Prod.fst)[
        (table.partOf part id).card - 1] := ⟨_, rfl⟩
  have hmem : last ∈ table.partOf part id :=
    mem_keys.mp (hlast ▸ List.getElem_mem hplace)
  have hpart : part (table.row last) = part (table.row id) := by
    simpa using (mem_select.mp hmem).2
  have hsame : table.partOf part last = table.partOf part id := by
    rw [partOf, partOf, hpart]
  refine ⟨last, hmem, ?_⟩
  rw [rowNumber, hsame, hlast, (table.nodup_fetch key).idxOf_getElem]
  omega

/-- A row which comes first gets the smaller number. -/
theorem rowNumber_lt
    {first second : Id} (hfirst : first ∈ table.ids)
    (hsecond : second ∈ table.ids)
    (hpart : part (table.row first) = part (table.row second))
    (hbefore : table.orderOf key first < table.orderOf key second) :
    table.rowNumber part key first < table.rowNumber part key second := by
  have hsame : table.partOf part first = table.partOf part second := by
    rw [partOf, partOf, hpart]
  rw [rowNumber, rowNumber, hsame, Nat.add_lt_add_iff_right]
  refine idxOf_lt_idxOf (keys_pairwise _) (fun a b hlt => lt_asymm hlt) ?_ ?_
    hbefore
  · exact mem_keys.mpr (by simp [partOf, hfirst, hpart])
  · exact mem_keys.mpr (by simp [partOf, hsecond])

theorem rowNumber_inj
    {first second : Id} (hfirst : first ∈ table.ids)
    (hsecond : second ∈ table.ids)
    (hpart : part (table.row first) = part (table.row second))
    (hsame : table.rowNumber part key first =
      table.rowNumber part key second) : first = second := by
  by_contra hne
  have hdiffer : table.orderOf key first ≠ table.orderOf key second :=
    fun heq => hne (orderOf_injective heq)
  rcases lt_or_gt_of_ne hdiffer with hlt | hgt
  · exact absurd (rowNumber_lt hfirst hsecond hpart hlt) hsame.not_lt
  · exact absurd (rowNumber_lt hsecond hfirst hpart.symm hgt) hsame.not_gt

/-- Orders which put the selected rows in the same order fetch the same
keys. -/
theorem keys_eq
    {other : Table Id Row} {otherKey : Id → Row → β} {ids : Finset Id}
    (horder : ∀ first ∈ ids, ∀ second ∈ ids,
      table.orderOf key first < table.orderOf key second →
        other.orderOf otherKey first < other.orderOf otherKey second) :
    (table.fetch key ids).map Prod.fst =
      (other.fetch otherKey ids).map Prod.fst := by
  have hperm : ((table.fetch key ids).map Prod.fst).Perm
      ((other.fetch otherKey ids).map Prod.fst) := by
    rw [List.perm_ext_iff_of_nodup (table.nodup_fetch key)
      (other.nodup_fetch otherKey)]
    intro id
    rw [mem_keys, mem_keys]
  have hsorted : ((table.fetch key ids).map Prod.fst).Pairwise
      fun first second =>
        other.orderOf otherKey first < other.orderOf otherKey second :=
    (keys_pairwise ids).imp_of_mem fun hfirst hsecond hlt =>
      horder _ (mem_keys.mp hfirst) _ (mem_keys.mp hsecond) hlt
  exact hperm.eq_of_pairwise
    (fun first second _ _ hlt hgt => absurd hlt (lt_asymm hgt)) hsorted
    (keys_pairwise ids)

end Table

end NotifyHub
