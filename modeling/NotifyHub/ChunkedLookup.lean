import NotifyHub.RelationalTables
import Mathlib.Data.List.AList
import Mathlib.Tactic

/-!
# Dictionaries and chunked queries

A dictionary which is filled by a loop over another one, and the rows of a
table loaded by chunks of ids.  What a key is mapped to depends on the entries
under that key alone.
-/

namespace NotifyHub

abbrev Dict (Key Value : Type*) := AList fun _ : Key => Value

namespace Dict

variable {Key Value Other : Type*} [DecidableEq Key]

/-- A loop over the items of a dictionary which writes at most one value
under the key of each into another one. -/
def fill
    (value : Key → Value → Option Other) (source : Dict Key Value)
    (target : Dict Key Other) : Dict Key Other :=
  source.entries.foldl (fun filled item =>
    match value item.1 item.2 with
    | some other => filled.insert item.1 other
    | none => filled) target

theorem lookup_insert_eq
    (dict : Dict Key Value) (key other : Key) (value : Value) :
    (dict.insert other value).lookup key =
      if key = other then some value else dict.lookup key := by
  by_cases hkey : key = other
  · subst hkey
    rw [if_pos rfl, AList.lookup_insert]
  · rw [if_neg hkey, AList.lookup_insert_ne hkey]

theorem lookup_fillEntries
    (value : Key → Value → Option Other) (entries : List ((_ : Key) × Value))
    (hnodup : entries.NodupKeys) (target : Dict Key Other) (key : Key) :
    (entries.foldl (fun filled item =>
      match value item.1 item.2 with
      | some other => filled.insert item.1 other
      | none => filled) target).lookup key =
      ((entries.dlookup key).bind (value key)).or (target.lookup key) := by
  induction entries generalizing target with
  | nil => rfl
  | cons item rest ih =>
      obtain ⟨hfresh, hrest⟩ := List.nodupKeys_cons.mp hnodup
      rw [List.foldl_cons, ih hrest]
      by_cases hkey : key = item.1
      · subst hkey
        rw [List.dlookup_eq_none.mpr hfresh, Option.bind_none, Option.none_or,
          List.dlookup_cons_eq, Option.bind_some]
        cases value item.1 item.2 with
        | none => simp
        | some other => simp
      · rw [List.dlookup_cons_ne _ _ hkey]
        cases value item.1 item.2 with
        | none => rfl
        | some other => simp [AList.lookup_insert_ne hkey]

/-- The value which a filled dictionary has under a key. -/
theorem lookup_fill
    (value : Key → Value → Option Other) (source : Dict Key Value)
    (target : Dict Key Other) (key : Key) :
    (fill value source target).lookup key =
      ((source.lookup key).bind (value key)).or (target.lookup key) :=
  lookup_fillEntries value source.entries source.nodupKeys target key

/-- The values of a dictionary. -/
def values [DecidableEq Value] (dict : Dict Key Value) : Finset Value :=
  (dict.entries.map Sigma.snd).toFinset

theorem mem_values [DecidableEq Value] {dict : Dict Key Value} {value : Value} :
    value ∈ dict.values ↔ ∃ key, dict.lookup key = some value := by
  simp only [values, List.mem_toFinset, List.mem_map]
  constructor
  · rintro ⟨item, hitem, rfl⟩
    exact ⟨item.1, AList.mem_lookup_iff.mpr hitem⟩
  · rintro ⟨key, hkey⟩
    exact ⟨⟨key, value⟩, AList.mem_lookup_iff.mp hkey, rfl⟩

end Dict

/-! ## Chunks -/

section Chunks

variable {Value : Type*}

/-- The consecutive stretches of at most `size` values. -/
def chunks (size : ℕ+) (values : List Value) : List (List Value) :=
  (List.range ((values.length + size - 1) / size)).map fun index =>
    (values.drop (index * size)).take size

theorem flatten_range_chunks (size count : ℕ) (values : List Value) :
    ((List.range count).map fun index =>
        (values.drop (index * size)).take size).flatten =
      values.take (count * size) := by
  induction count with
  | zero => simp
  | succ count ih =>
      rw [List.range_succ, List.map_append, List.flatten_append, ih,
        Nat.succ_mul, List.take_add]
      simp

theorem flatten_chunks (size : ℕ+) (values : List Value) :
    (chunks size values).flatten = values := by
  rw [chunks, flatten_range_chunks, List.take_of_length_le]
  have hsize : 0 < (size : ℕ) := size.pos
  have hlast := Nat.lt_div_mul_add (a := values.length + size - 1) hsize
  omega

end Chunks

/-! ## Rows of a table -/

namespace Table

variable {Id Row : Type*} [LinearOrder Id]

/-- The rows which one query returns, written into a dictionary. -/
def loadChunk
    (table : Table Id Row) (found : Dict Id Row) (ids : List Id) :
    Dict Id Row :=
  ((table.select fun id _ => id ∈ ids).sort).foldl
    (fun found id => found.insert id (table.row id)) found

/-- The rows under the ids of a set, by one query for each chunk. -/
def load (table : Table Id Row) (size : ℕ+) (ids : Finset Id) : Dict Id Row :=
  (chunks size ids.sort).foldl table.loadChunk ∅

theorem lookup_insertRows
    (table : Table Id Row) (found : Dict Id Row) (ids : List Id) (id : Id) :
    (ids.foldl (fun found other => found.insert other (table.row other))
        found).lookup id =
      if id ∈ ids then some (table.row id) else found.lookup id := by
  induction ids generalizing found with
  | nil => simp
  | cons other rest ih =>
      rw [List.foldl_cons, ih, Dict.lookup_insert_eq]
      by_cases hrest : id ∈ rest
      · simp [hrest]
      · by_cases hsame : id = other
        · subst hsame
          simp
        · simp [hrest, hsame]

theorem lookup_loadChunk
    (table : Table Id Row) (found : Dict Id Row) (ids : List Id) (id : Id) :
    (table.loadChunk found ids).lookup id =
      if id ∈ ids then (table.find id).or (found.lookup id)
      else found.lookup id := by
  rw [loadChunk, lookup_insertRows, find]
  simp only [Finset.mem_sort, mem_select, decide_eq_true_eq]
  by_cases hids : id ∈ ids
  · by_cases hrow : id ∈ table.ids
    · simp [hids, hrow]
    · simp [hids, hrow]
  · simp [hids]

theorem lookup_loadChunks
    (table : Table Id Row) (found : Dict Id Row) (lists : List (List Id))
    (id : Id) :
    (lists.foldl table.loadChunk found).lookup id =
      if id ∈ lists.flatten then (table.find id).or (found.lookup id)
      else found.lookup id := by
  induction lists generalizing found with
  | nil => simp
  | cons ids rest ih =>
      rw [List.foldl_cons, ih, lookup_loadChunk, List.flatten_cons]
      cases table.find id with
      | none => simp
      | some row =>
          by_cases hids : id ∈ ids
          · simp [hids]
          · simp [hids]

/-- A loaded dictionary has the row of every id it was asked for. -/
theorem lookup_load
    (table : Table Id Row) (size : ℕ+) (ids : Finset Id) (id : Id) :
    (table.load size ids).lookup id =
      if id ∈ ids then table.find id else none := by
  rw [load, lookup_loadChunks, flatten_chunks]
  simp

end Table

end NotifyHub
