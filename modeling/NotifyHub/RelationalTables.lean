import Mathlib.Tactic

/-!
# Tables and queries

A table is a finite set of primary keys with a row under each of them, so two
tables may agree on some keys and differ anywhere else.  A query which selects
only among the keys two tables agree on, by conditions which do not tell the
tables apart, returns the same rows from both.
-/

namespace NotifyHub

structure Table (Id Row : Type*) where
  ids : Finset Id
  row : Id → Row

namespace Table

variable {Id Row α : Type*}

/-- The keys of the rows which meet a condition. -/
def select (table : Table Id Row) (condition : Id → Row → Bool) : Finset Id :=
  table.ids.filter fun id => condition id (table.row id)

@[simp] theorem mem_select
    {table : Table Id Row} {condition : Id → Row → Bool} {id : Id} :
    id ∈ table.select condition ↔
      id ∈ table.ids ∧ condition id (table.row id) = true := by
  simp [select]

theorem select_subset (table : Table Id Row) (condition : Id → Row → Bool) :
    table.select condition ⊆ table.ids :=
  Finset.filter_subset ..

/-- The row under a foreign key. -/
def find [DecidableEq Id] (table : Table Id Row) (id : Id) : Option Row :=
  if id ∈ table.ids then some (table.row id) else none

variable [LinearOrder Id] [LinearOrder α]

/-- The selected rows, in ascending order of a key and then of the id. -/
def fetch (table : Table Id Row) (key : Id → Row → α) (ids : Finset Id) :
    List (Id × Row) :=
  ((ids.image fun id => toLex (key id (table.row id), id)).sort).map
    fun entry => ((ofLex entry).2, table.row (ofLex entry).2)

omit [LinearOrder Id] in
/-- Both tables have these rows, and the rows are the same. -/
structure AgreeOn (first second : Table Id Row) (ids : Finset Id) : Prop where
  left : ids ⊆ first.ids
  right : ids ⊆ second.ids
  row : ∀ id ∈ ids, first.row id = second.row id

variable {first second : Table Id Row} {ids : Finset Id}

omit [LinearOrder Id] in
theorem AgreeOn.mono
    (hagree : first.AgreeOn second ids) {fewer : Finset Id}
    (hsubset : fewer ⊆ ids) : first.AgreeOn second fewer where
  left := hsubset.trans hagree.left
  right := hsubset.trans hagree.right
  row id hid := hagree.row id (hsubset hid)

omit [LinearOrder Id] in
/-- A condition which only rows under the agreed keys meet. -/
theorem AgreeOn.select_eq
    (hagree : first.AgreeOn second ids)
    {condition other : Id → Row → Bool}
    (hleft : first.select condition ⊆ ids)
    (hright : second.select other ⊆ ids)
    (hsame : ∀ id ∈ ids,
      condition id (first.row id) = other id (first.row id)) :
    first.select condition = second.select other := by
  ext id
  constructor
  · intro hid
    have hmem := hleft hid
    rw [mem_select] at hid ⊢
    rw [← hagree.row id hmem, ← hsame id hmem]
    exact ⟨hagree.right hmem, hid.2⟩
  · intro hid
    have hmem := hright hid
    rw [mem_select] at hid ⊢
    rw [hsame id hmem, hagree.row id hmem]
    exact ⟨hagree.left hmem, hid.2⟩

theorem AgreeOn.fetch_eq
    (hagree : first.AgreeOn second ids) {key other : Id → Row → α}
    (hsame : ∀ id ∈ ids, key id (first.row id) = other id (first.row id)) :
    first.fetch key ids = second.fetch other ids := by
  have hkeys : (ids.image fun id => toLex (key id (first.row id), id)) =
      ids.image fun id => toLex (other id (second.row id), id) :=
    Finset.image_congr fun id hid => by
      show toLex (key id (first.row id), id) = _
      rw [hsame id hid, hagree.row id hid]
  unfold fetch
  rw [hkeys]
  refine List.map_congr_left fun entry hentry => ?_
  obtain ⟨id, hid, rfl⟩ := Finset.mem_image.mp
    ((Finset.mem_sort _).mp hentry)
  simp only [ofLex_toLex, hagree.row id hid]

theorem AgreeOn.find_eq
    (hagree : first.AgreeOn second ids) {id : Id} (hid : id ∈ ids) :
    first.find id = second.find id := by
  simp only [find, hagree.left hid, hagree.right hid, if_true,
    hagree.row id hid]

theorem mem_fetch
    {table : Table Id Row} {key : Id → Row → α} {entry : Id × Row} :
    entry ∈ table.fetch key ids ↔
      entry.1 ∈ ids ∧ entry.2 = table.row entry.1 := by
  constructor
  · intro hentry
    obtain ⟨sorted, hsorted, rfl⟩ := List.mem_map.mp hentry
    obtain ⟨id, hid, rfl⟩ := Finset.mem_image.mp
      ((Finset.mem_sort _).mp hsorted)
    exact ⟨hid, rfl⟩
  · rintro ⟨hid, hrow⟩
    refine List.mem_map.mpr
      ⟨toLex (key entry.1 (table.row entry.1), entry.1), ?_, ?_⟩
    · exact (Finset.mem_sort _).mpr (Finset.mem_image_of_mem _ hid)
    · exact Prod.ext rfl hrow.symm

theorem fetch_pair
    (table : Table Id Row) (key : Id → Row → α) {first second : Id}
    (hlt : toLex (key first (table.row first), first) <
      toLex (key second (table.row second), second)) :
    table.fetch key {first, second} =
      [(first, table.row first), (second, table.row second)] := by
  have hsort : (({first, second} : Finset Id).image fun id =>
      toLex (key id (table.row id), id)).sort =
        [toLex (key first (table.row first), first),
          toLex (key second (table.row second), second)] := by
    rw [Finset.image_insert, Finset.image_singleton, Finset.sort_insert,
      Finset.sort_singleton]
    · simpa using hlt.le
    · simpa using hlt.ne
  rw [fetch, hsort]
  rfl

/-- The fetched rows ascend. -/
theorem fetch_pairwise (table : Table Id Row) (key : Id → Row → α) :
    (table.fetch key ids).Pairwise fun first second =>
      toLex (key first.1 first.2, first.1) <
        toLex (key second.1 second.2, second.1) := by
  have hsorted : ∀ entry ∈
      (ids.image fun id => toLex (key id (table.row id), id)).sort,
      toLex (key (ofLex entry).2 (table.row (ofLex entry).2),
        (ofLex entry).2) = entry := by
    intro entry hentry
    obtain ⟨id, -, rfl⟩ := Finset.mem_image.mp ((Finset.mem_sort _).mp hentry)
    rfl
  unfold fetch
  rw [List.pairwise_map]
  refine (Finset.sortedLT_sort _).pairwise.imp_of_mem ?_
  intro first second hfirst hsecond hlt
  rw [hsorted first hfirst, hsorted second hsecond]
  exact hlt

omit [LinearOrder Id] in
theorem select_and
    (table : Table Id Row) (condition other : Id → Row → Bool) :
    (table.select fun id row => condition id row && other id row) =
      (table.select condition).filter fun id => other id (table.row id) := by
  ext id
  simp [and_assoc]

theorem find_eq_some {table : Table Id Row} {id : Id} {row : Row} :
    table.find id = some row ↔ id ∈ table.ids ∧ table.row id = row := by
  simp [find]

/-! ## Counting -/

theorem nodup_fetch (table : Table Id Row) (key : Id → Row → α) :
    ((table.fetch key ids).map Prod.fst).Nodup := by
  have hpairwise : (table.fetch key ids).Pairwise fun first second =>
      toLex (key first.1 first.2, first.1) <
        toLex (key second.1 second.2, second.1) :=
    table.fetch_pairwise key
  rw [List.nodup_iff_pairwise_ne, List.pairwise_map]
  refine hpairwise.imp_of_mem ?_
  intro first second hfirst hsecond hlt hsame
  have hrow : first.2 = second.2 := by
    rw [(mem_fetch.mp hfirst).2, (mem_fetch.mp hsecond).2, hsame]
  rw [hsame, hrow] at hlt
  exact lt_irrefl _ hlt

/-- Every selected row is fetched once. -/
theorem sum_fetch {Total : Type*} [AddCommMonoid Total]
    (table : Table Id Row) (key : Id → Row → α) (value : Id × Row → Total) :
    ((table.fetch key ids).map value).sum =
      ∑ id ∈ ids, value (id, table.row id) := by
  have hvalues : (table.fetch key ids).map value =
      ((table.fetch key ids).map Prod.fst).map fun id =>
        value (id, table.row id) := by
    rw [List.map_map]
    refine List.map_congr_left fun entry hentry => ?_
    rw [Function.comp_apply, ← (mem_fetch.mp hentry).2]
  have hids : ((table.fetch key ids).map Prod.fst).toFinset = ids := by
    ext id
    simp only [List.mem_toFinset, List.mem_map, mem_fetch]
    constructor
    · rintro ⟨entry, ⟨hid, -⟩, rfl⟩
      exact hid
    · intro hid
      exact ⟨(id, table.row id), ⟨hid, rfl⟩, rfl⟩
  rw [hvalues, ← List.sum_toFinset _ (table.nodup_fetch key), hids]

omit [LinearOrder Id] in
/-- A count is the sum of the counts by the values of a column. -/
theorem card_select_eq_sum {Value : Type*} [DecidableEq Value]
    (table : Table Id Row) (condition : Id → Row → Bool)
    (column : Row → Value) {values : Finset Value}
    (hvalues : ∀ id ∈ table.select condition,
      column (table.row id) ∈ values) :
    (table.select condition).card = ∑ value ∈ values,
      (table.select fun id row =>
        condition id row && decide (column row = value)).card := by
  rw [Finset.card_eq_sum_card_fiberwise hvalues]
  refine Finset.sum_congr rfl fun value _ => congrArg Finset.card ?_
  ext id
  simp [and_assoc]

/-! ## Tables which agree where a condition holds -/

omit [LinearOrder Id] in
/-- Either table has the same rows where its condition holds. -/
structure AgreeWhere
    (first second : Table Id Row) (condition other : Id → Row → Bool) :
    Prop where
  ids : first.select condition = second.select other
  row : ∀ id ∈ first.select condition, first.row id = second.row id

variable {condition other : Id → Row → Bool}

omit [LinearOrder Id] in
theorem AgreeWhere.agreeOn
    (hagree : first.AgreeWhere second condition other) :
    first.AgreeOn second (first.select condition) where
  left := first.select_subset condition
  right := hagree.ids ▸ second.select_subset other
  row := hagree.row

omit [LinearOrder Id] in
/-- Queries which select only rows where the tables agree, by conditions which
do not tell these rows apart. -/
theorem AgreeWhere.select_eq
    (hagree : first.AgreeWhere second condition other)
    {query queried : Id → Row → Bool}
    (hleft : ∀ id row, query id row = true → condition id row = true)
    (hright : ∀ id row, queried id row = true → other id row = true)
    (hsame : ∀ id row, condition id row = true →
      query id row = queried id row) :
    first.select query = second.select queried ∧
      first.select query ⊆ first.select condition := by
  have hsubset : first.select query ⊆ first.select condition :=
    fun id hid => by
      rw [mem_select] at hid ⊢
      exact ⟨hid.1, hleft id _ hid.2⟩
  refine ⟨hagree.agreeOn.select_eq hsubset ?_ ?_, hsubset⟩
  · intro id hid
    rw [hagree.ids]
    rw [mem_select] at hid ⊢
    exact ⟨hid.1, hright id _ hid.2⟩
  · exact fun id hid => hsame id _ (mem_select.mp hid).2

/-- Tables which agree on all their rows. -/
theorem AgreeWhere.find_eq
    (hagree : first.AgreeWhere second (fun _ _ => true) fun _ _ => true)
    (id : Id) : first.find id = second.find id := by
  have hids : first.ids = second.ids := by
    simpa [select] using hagree.ids
  by_cases hid : id ∈ first.ids
  · exact hagree.agreeOn.find_eq (by simpa using hid)
  · have hother : id ∉ second.ids := hids ▸ hid
    simp only [find, hid, hother, if_false]

end Table

end NotifyHub
