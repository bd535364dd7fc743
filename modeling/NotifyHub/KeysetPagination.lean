import Mathlib.Data.Finset.Sort
import Mathlib.Tactic

/-!
# Keyset pagination

Rows in descending order of a key without ties.  A page holds the first rows
below its cursor, and the cursor of the next page is the key of its last row;
one row more than the page holds tells whether there is a next page.  Blocks
are read without that row, until one is short.
-/

namespace NotifyHub.Keyset

section Rows

variable {Row Key : Type} [LinearOrder Key] (key : Row → Key)

/-- From the newest row to the oldest one. -/
def Descending (rows : List Row) : Prop :=
  rows.Pairwise fun first second => key second < key first

/-- The rows after a cursor. -/
def below (cursor : Option Key) (rows : List Row) : List Row :=
  match cursor with
  | none => rows
  | some last => rows.filter fun row => key row < last

structure Page (Row Key : Type) where
  rows : List Row
  next : Option Key

def page (limit : ℕ) (cursor : Option Key) (rows : List Row) : Page Row Key :=
  let found := (below key cursor rows).take (limit + 1)
  ⟨found.take limit,
    if limit < found.length then (found.take limit).getLast?.map key
    else none⟩

/-- Rows have been inserted, all newer than the first one there was. -/
def Grown (first later : List Row) : Prop :=
  ∃ newer, later = newer ++ first ∧
    ∀ row ∈ newer, ∀ old ∈ first.head?, key old < key row

variable {key} {first later done rest : List Row}

theorem Grown.refl (first : List Row) : Grown key first first :=
  ⟨[], rfl, nofun⟩

/-- A row newer than the first one is newer than all. -/
theorem lt_of_lt_first
    {row : Row} (hdescending : Descending key first)
    (hnewer : ∀ old ∈ first.head?, key old < key row) :
    ∀ old ∈ first, key old < key row := by
  intro old hold
  cases first with
  | nil => cases hold
  | cons head tail =>
      have hhead : key head < key row := hnewer head rfl
      rcases List.mem_cons.mp hold with rfl | htail
      · exact hhead
      · exact ((List.pairwise_cons.mp hdescending).1 old htail).trans hhead

/-- What a cursor leaves does not change when newer rows are inserted. -/
theorem below_of_grown
    (hdescending : Descending key first) (hgrown : Grown key first later)
    (hsplit : first = done ++ rest) (hstart : done = [] → later = first) :
    below key (done.getLast?.map key) later = rest := by
  rcases List.eq_nil_or_concat' done with rfl | ⟨visited, last, rfl⟩
  · rw [hstart rfl, hsplit]
    rfl
  · obtain ⟨newer, rfl, hnewer⟩ := hgrown
    subst hsplit
    have hlast : ((visited ++ [last]).getLast?).map key = some (key last) := by
      simp
    obtain ⟨hdone, -, hcross⟩ := List.pairwise_append.mp hdescending
    have hvisited : ∀ row ∈ visited ++ [last], key last ≤ key row := by
      intro row hrow
      rcases List.mem_append.mp hrow with hbefore | hself
      · exact ((List.pairwise_append.mp hdone).2.2 row hbefore last
          (List.mem_singleton_self last)).le
      · rw [List.mem_singleton.mp hself]
    have hinserted : ∀ row ∈ newer, key last ≤ key row := by
      intro row hrow
      exact (lt_of_lt_first hdescending (hnewer row hrow) last (by simp)).le
    have hkept : ∀ rows : List Row, (∀ row ∈ rows, key last ≤ key row) →
        rows.filter (fun row => key row < key last) = [] := by
      intro rows hrows
      rw [List.filter_eq_nil_iff]
      intro row hrow
      simpa using hrows row hrow
    rw [hlast, below, List.filter_append, List.filter_append,
      hkept newer hinserted, hkept _ hvisited, List.nil_append, List.nil_append,
      List.filter_eq_self]
    intro row hrow
    simpa using hcross last (by simp) row hrow

/-! ## Pages -/

variable {limit : ℕ} {cursor : Option Key}

/-- The last page. -/
theorem page_of_le
    (hbelow : below key cursor later = rest) (hlast : rest.length ≤ limit) :
    page key limit cursor later = ⟨rest, none⟩ := by
  have htake : rest.take (limit + 1) = rest :=
    List.take_of_length_le (Nat.le_succ_of_le hlast)
  simp only [page, hbelow, htake, List.take_of_length_le hlast,
    if_neg (Nat.not_lt.mpr hlast)]

/-- A page which is not the last one. -/
theorem page_of_lt
    (hbelow : below key cursor later = rest) (hmore : limit < rest.length) :
    page key limit cursor later =
      ⟨rest.take limit, (rest.take limit).getLast?.map key⟩ := by
  have hfound : limit < (rest.take (limit + 1)).length := by
    rw [List.length_take]
    omega
  have htake : (rest.take (limit + 1)).take limit = rest.take limit := by
    rw [List.take_take, Nat.min_eq_left (Nat.le_succ limit)]
  simp only [page, hbelow, if_pos hfound, htake]

end Rows

/-! ## Following the cursors -/

section Walk

variable {Item Cursor : Type}

/-- What is visited from a cursor on; the answer to the next request may be
computed from other rows. -/
inductive Walk (ask : ℕ → Option Cursor → Option (List Item × Option Cursor)) :
    ℕ → Option Cursor → List Item → Prop
  | last {step : ℕ} {cursor : Option Cursor} {items : List Item}
      (hask : ask step cursor = some (items, none)) : Walk ask step cursor items
  | next {step : ℕ} {cursor : Option Cursor} {items rest : List Item}
      {following : Cursor} (hask : ask step cursor = some (items, some following))
      (hrest : Walk ask (step + 1) (some following) rest) :
      Walk ask step cursor (items ++ rest)

variable {ask : ℕ → Option Cursor → Option (List Item × Option Cursor)}
  {step : ℕ} {cursor : Option Cursor} {visited others : List Item}

theorem Walk.unique
    (hwalk : Walk ask step cursor visited) (hother : Walk ask step cursor others) :
    visited = others := by
  induction hwalk generalizing others with
  | last hask =>
      cases hother with
      | last hagain =>
          rw [hask] at hagain
          exact (Prod.mk.inj (Option.some.inj hagain)).1
      | next hagain _ =>
          rw [hask] at hagain
          cases (Prod.mk.inj (Option.some.inj hagain)).2
  | next hask _ ih =>
      cases hother with
      | last hagain =>
          rw [hask] at hagain
          cases (Prod.mk.inj (Option.some.inj hagain)).2
      | next hagain hrest =>
          rw [hask] at hagain
          obtain ⟨rfl, hcursor⟩ := Prod.mk.inj (Option.some.inj hagain)
          obtain rfl := Option.some.inj hcursor
          rw [ih hrest]

variable {Row Key : Type} [LinearOrder Key] {key : Row → Key}
  {first done rest : List Row} {dataset : ℕ → List Row} {limit : ℕ}
  {encode : Key → Cursor} {item : Row → Item}

/-- A page, as it is answered. -/
def answer (encode : Key → Cursor) (item : Row → Item) (page : Page Row Key) :
    List Item × Option Cursor :=
  (page.rows.map item, page.next.map encode)

/-- The rows which are left when some have been visited. -/
theorem walk_rest
    (hlimit : 0 < limit) (hdescending : Descending key first)
    (hgrown : ∀ step, Grown key first (dataset step))
    (hask : ∀ step, ∀ row ∈ first, ask step (some (encode (key row))) =
      some (answer encode item
        (page key limit (some (key row)) (dataset step))))
    (hsplit : first = done ++ rest) (hdone : done ≠ []) :
    Walk ask step ((done.getLast?.map key).map encode) (rest.map item) := by
  induction hlength : rest.length using Nat.strong_induction_on
    generalizing done rest step with
  | _ length ih =>
      obtain ⟨row, hrow⟩ := List.getLast?_isSome.mpr hdone |> Option.isSome_iff_exists.mp
      have hmem : row ∈ first := by
        rw [hsplit]
        exact List.mem_append_left _ (List.mem_of_getLast? hrow)
      have hbelow : below key (done.getLast?.map key) (dataset step) = rest :=
        below_of_grown hdescending (hgrown step) hsplit
          fun hnone => absurd hnone hdone
      rw [hrow, Option.map_some] at hbelow
      rw [hrow, Option.map_some, Option.map_some]
      rcases Nat.lt_or_ge limit rest.length with hmore | hlast
      · have hpage := page_of_lt hbelow hmore
        have htaken : rest.take limit ≠ [] := by
          apply List.ne_nil_of_length_pos
          rw [List.length_take]
          omega
        obtain ⟨last, hlastRow⟩ :=
          Option.isSome_iff_exists.mp (List.getLast?_isSome.mpr htaken)
        have hshorter : (rest.drop limit).length < length := by
          rw [List.length_drop]
          omega
        have hnext : Walk ask (step + 1)
            (((done ++ rest.take limit).getLast?.map key).map encode)
            ((rest.drop limit).map item) := by
          apply ih _ hshorter ?_ ?_ rfl
          · rw [hsplit, List.append_assoc, List.take_append_drop]
          · exact List.append_ne_nil_of_left_ne_nil hdone _
        rw [List.getLast?_append, hlastRow, Option.some_or, Option.map_some,
          Option.map_some] at hnext
        have hstep := hask step row hmem
        rw [hpage, answer, hlastRow] at hstep
        have hjoined := Walk.next hstep hnext
        rwa [← List.map_append, List.take_append_drop] at hjoined
      · have hstep := hask step row hmem
        rw [page_of_le hbelow hlast] at hstep
        exact .last hstep

/-- Following the cursors from the first page visits every row there was once,
in order, and comes to an end. -/
theorem walk_iff
    (hlimit : 0 < limit) (hdescending : Descending key first)
    (hzero : dataset 0 = first)
    (hgrown : ∀ step, Grown key first (dataset step))
    (hstart : ask 0 none =
      some (answer encode item (page key limit none (dataset 0))))
    (hask : ∀ step, ∀ row ∈ first, ask step (some (encode (key row))) =
      some (answer encode item
        (page key limit (some (key row)) (dataset step)))) :
    Walk ask 0 none visited ↔ visited = first.map item := by
  have hwalk : Walk ask 0 none (first.map item) := by
    have hbelow : below key none (dataset 0) = first := hzero
    rcases Nat.lt_or_ge limit first.length with hmore | hlast
    · rw [page_of_lt hbelow hmore] at hstart
      have htaken : first.take limit ≠ [] := by
        apply List.ne_nil_of_length_pos
        rw [List.length_take]
        omega
      obtain ⟨last, hlastRow⟩ :=
        Option.isSome_iff_exists.mp (List.getLast?_isSome.mpr htaken)
      have hnext : Walk ask 1 (((first.take limit).getLast?.map key).map encode)
          ((first.drop limit).map item) :=
        walk_rest hlimit hdescending hgrown hask
          (List.take_append_drop limit first).symm htaken
      rw [hlastRow, Option.map_some, Option.map_some] at hnext
      rw [answer, hlastRow] at hstart
      have hjoined := Walk.next hstart hnext
      rwa [← List.map_append, List.take_append_drop] at hjoined
    · rw [page_of_le hbelow hlast] at hstart
      exact .last hstart
  constructor
  · exact fun hother => hother.unique hwalk
  · rintro rfl
    exact hwalk

end Walk

/-! ## Blocks -/

section Blocks

variable {Row Key : Type} [LinearOrder Key] (key : Row → Key)

/-- Blocks of rows, each with the cursor of the one before it, until one is
short or a number of rows has been read. -/
def blocks (size maximum : ℕ) (dataset : ℕ → List Row) (step emitted : ℕ)
    (cursor : Option Key) : List (List Row) :=
  if emitted < maximum then
    let block := (below key cursor (dataset step)).take size
    if block = [] then []
    else if block.length < size then [block]
    else
      block :: blocks size maximum dataset (step + 1) (emitted + block.length)
        (block.getLast?.map key)
  else []
termination_by maximum - emitted
decreasing_by
  have hpositive : 0 < block.length := List.length_pos_iff.mpr ‹_›
  exact Nat.sub_lt_sub_left ‹_› (Nat.lt_add_of_pos_right hpositive)

variable {key} {size maximum : ℕ} {dataset : ℕ → List Row}
  {first done rest : List Row}

/-- The blocks hold the rows there were, in order. -/
theorem flatten_blocks
    (hsize : 0 < size) (hdescending : Descending key first)
    (hzero : dataset 0 = first)
    (hgrown : ∀ step, Grown key first (dataset step))
    (hmaximum : first.length ≤ maximum) (hsplit : first = done ++ rest)
    {step : ℕ} (hstep : done = [] → step = 0) :
    (blocks key size maximum dataset step done.length
      (done.getLast?.map key)).flatten = rest := by
  induction hlength : rest.length using Nat.strong_induction_on
    generalizing done rest step with
  | _ length ih =>
      have hbelow : below key (done.getLast?.map key) (dataset step) = rest :=
        below_of_grown hdescending (hgrown step) hsplit fun hnone => by
          rw [hstep hnone, hzero]
      have htotal : done.length + rest.length ≤ maximum := by
        rw [← List.length_append, ← hsplit]
        exact hmaximum
      rw [blocks]
      simp only [hbelow]
      split
      next hroom =>
        split
        next hnone =>
          have hempty : rest = [] := by
            rcases List.take_eq_nil_iff.mp hnone with hzero | hempty
            · omega
            · exact hempty
          rw [hempty]
          rfl
        next hsome =>
          split
          next hshort =>
            have hall : rest.length ≤ size := by
              rw [List.length_take] at hshort
              omega
            rw [List.take_of_length_le hall]
            simp
          next hfull =>
            have htaken : (rest.take size).getLast? =
                (done ++ rest.take size).getLast? := by
              rw [List.getLast?_append,
                Option.or_of_isSome (List.getLast?_isSome.mpr hsome)]
            have hshorter : (rest.drop size).length < length := by
              rw [List.length_take] at hfull
              rw [List.length_drop]
              omega
            rw [List.flatten_cons, htaken, ← List.length_append,
              ih _ hshorter ?_ ?_ rfl, List.take_append_drop]
            · rw [hsplit, List.append_assoc, List.take_append_drop]
            · intro hnone
              exact absurd (List.append_eq_nil_iff.mp hnone).2 hsome
      next hfull =>
        have hempty : rest = [] := by
          apply List.length_eq_zero_iff.mp
          omega
        rw [hempty]
        rfl

end Blocks

/-! ## Blocks of changing rows -/

section Changes

variable {Row Key : Type} [LinearOrder Key] {key : Row → Key}
  {dataset : ℕ → List Row}

theorem mem_below {cursor : Option Key} {rows : List Row} {row : Row} :
    row ∈ below key cursor rows ↔
      row ∈ rows ∧ ∀ last ∈ cursor, key row < last := by
  cases cursor with
  | none => simp [below]
  | some last => simp [below]

theorem Descending.below
    {rows : List Row} (hrows : Descending key rows) (cursor : Option Key) :
    Descending key (below key cursor rows) := by
  cases cursor with
  | none => exact hrows
  | some last => exact hrows.filter _

theorem add_le_of_dvd
    {size emitted maximum : ℕ} (hless : emitted < maximum)
    (hemitted : size ∣ emitted) (hdivides : size ∣ maximum) :
    emitted + size ≤ maximum := by
  obtain ⟨done, rfl⟩ := hemitted
  obtain ⟨all, rfl⟩ := hdivides
  rw [← Nat.mul_succ]
  exact Nat.mul_le_mul_left size (Nat.lt_of_mul_lt_mul_left hless)

variable (size maximum step emitted : ℕ) (cursor : Option Key)

/-- Whatever changes between the blocks, a row comes after the rows of the
blocks before it. -/
theorem descending_blocks
    (hrows : ∀ read, Descending key (dataset read)) :
    Descending key (blocks key size maximum dataset step emitted cursor).flatten
      ∧ ∀ row ∈ (blocks key size maximum dataset step emitted cursor).flatten,
        ∀ last ∈ cursor, key row < last := by
  fun_induction blocks key size maximum dataset step emitted cursor with
  | case1 step emitted cursor hroom block hnone =>
      exact ⟨List.Pairwise.nil, nofun⟩
  | case2 step emitted cursor hroom block hsome hshort =>
      rw [List.flatten_singleton]
      refine ⟨(Descending.below (hrows step) cursor).sublist
        (List.take_sublist _ _), ?_⟩
      intro row hrow
      exact (mem_below.mp (List.mem_of_mem_take hrow)).2
  | case3 step emitted cursor hroom block hsome hfull ih =>
      have hblock : Descending key block :=
        (Descending.below (hrows step) cursor).sublist (List.take_sublist _ _)
      have hcursor : ∀ row ∈ block, ∀ last ∈ cursor, key row < last :=
        fun row hrow => (mem_below.mp (List.mem_of_mem_take hrow)).2
      have hlast : ∀ row ∈ block, ∀ last ∈ block.getLast?, key last ≤ key row :=
        by
        intro row hrow last hlast
        obtain ⟨before, hbefore⟩ := List.getLast?_eq_some_iff.mp hlast
        rw [hbefore, List.mem_append, List.mem_singleton] at hrow
        rcases hrow with hrow | rfl
        · rw [hbefore, Descending, List.pairwise_append] at hblock
          exact (hblock.2.2 row hrow last (List.mem_singleton_self _)).le
        · exact le_rfl
      obtain ⟨hrest, hafter⟩ := ih
      obtain ⟨last, hgot⟩ := Option.isSome_iff_exists.mp
        (List.getLast?_isSome.mpr hsome)
      have hless : ∀ row ∈ (blocks key size maximum dataset (step + 1)
          (emitted + block.length) (block.getLast?.map key)).flatten,
          key row < key last := by
        intro row hrow
        exact hafter row hrow (key last) (by rw [hgot]; rfl)
      rw [List.flatten_cons]
      constructor
      · rw [Descending, List.pairwise_append]
        refine ⟨hblock, hrest, ?_⟩
        intro row hrow later hlater
        exact (hless later hlater).trans_le (hlast row hrow last hgot)
      · intro row hrow bound hbound
        rcases List.mem_append.mp hrow with hrow | hrow
        · exact hcursor row hrow bound hbound
        · exact (hless row hrow).trans
            (hcursor last (List.mem_of_getLast? hgot) bound hbound)
  | case4 step emitted cursor hfull => exact ⟨List.Pairwise.nil, nofun⟩

/-- A row which is there at every step is in a block, if the maximum is not
reached before. -/
theorem mem_blocks
    {row : Row} (hstays : ∀ read, row ∈ dataset read)
    (hsize : 0 < size)
    (hrows : ∀ read, Descending key (dataset read))
    (hcursor : ∀ last ∈ cursor, key row < last) :
    row ∈ (blocks key size maximum dataset step emitted cursor).flatten ∨
      maximum ≤ emitted +
        (blocks key size maximum dataset step emitted
          cursor).flatten.length := by
  fun_induction blocks key size maximum dataset step emitted cursor with
  | case1 step emitted cursor hroom block hnone =>
      have hrow := mem_below.mpr ⟨hstays step, hcursor⟩
      rcases List.take_eq_nil_iff.mp hnone with hzero | hempty
      · omega
      · rw [hempty] at hrow
        contradiction
  | case2 step emitted cursor hroom block hsome hshort =>
      left
      rw [List.flatten_singleton]
      have hall : (below key cursor (dataset step)).length ≤ size := by
        rw [List.length_take] at hshort
        omega
      rw [show block = _ from List.take_of_length_le hall]
      exact mem_below.mpr ⟨hstays step, hcursor⟩
  | case3 step emitted cursor hroom block hsome hfull ih =>
      rw [List.flatten_cons, List.mem_append, List.length_append]
      by_cases hrow : row ∈ block
      · exact .inl (.inl hrow)
      · have hafter : ∀ last ∈ block.getLast?.map key, key row < last := by
          intro last hlast
          obtain ⟨final, hfinal, rfl⟩ := Option.map_eq_some_iff.mp hlast
          have hall := mem_below.mpr ⟨hstays step, hcursor⟩
          rw [← List.take_append_drop size (below key cursor (dataset step)),
            List.mem_append] at hall
          have hsorted := Descending.below (hrows step) cursor
          rw [Descending, ← List.take_append_drop size
            (Keyset.below key cursor (dataset step)), List.pairwise_append]
            at hsorted
          exact hsorted.2.2 final (List.mem_of_getLast? hfinal) row
            (hall.resolve_left hrow)
        rcases ih hafter with hmem | hmaximum
        · exact .inl (.inr hmem)
        · right
          omega
  | case4 step emitted cursor hfull =>
      right
      omega

/-- A maximum which is a number of full blocks is never passed. -/
theorem length_blocks
    (hdivides : size ∣ maximum) (hemitted : size ∣ emitted)
    (hroom : emitted ≤ maximum) :
    emitted +
      (blocks key size maximum dataset step emitted cursor).flatten.length ≤
        maximum := by
  fun_induction blocks key size maximum dataset step emitted cursor with
  | case1 step emitted cursor hless block hnone => exact hroom
  | case2 step emitted cursor hless block hsome hshort =>
      have hnext := add_le_of_dvd hless hemitted hdivides
      rw [List.flatten_singleton]
      omega
  | case3 step emitted cursor hless block hsome hfull ih =>
      have hnext := add_le_of_dvd hless hemitted hdivides
      have hblock : block.length = size :=
        (List.length_take_le _ _).antisymm (Nat.le_of_not_lt hfull)
      rw [List.flatten_cons, List.length_append, ← Nat.add_assoc]
      rw [hblock] at ih ⊢
      exact ih ((Nat.dvd_add_right hemitted).mpr dvd_rfl) hnext
  | case4 step emitted cursor hfull => exact hroom

end Changes

/-! ## Sets of keys -/

section Sets

variable {Key : Type} [LinearOrder Key] {keys first later : Finset Key}

/-- The keys of a set as rows of their own. -/
def newestFirst (keys : Finset Key) : List Key :=
  keys.sort.reverse

@[simp] theorem mem_newestFirst {key : Key} :
    key ∈ newestFirst keys ↔ key ∈ keys := by
  simp [newestFirst]

theorem descending_newestFirst (keys : Finset Key) :
    Descending id (newestFirst keys) := by
  rw [newestFirst, Descending, List.pairwise_reverse]
  exact (Finset.sortedLT_sort keys).pairwise

/-- Descending lists of the same keys. -/
theorem eq_of_descending
    {keys others : List Key} (hkeys : Descending id keys)
    (hothers : Descending id others)
    (hmem : ∀ key, key ∈ keys ↔ key ∈ others) : keys = others := by
  have hirrefl : Std.Irrefl fun first second : Key => second < first :=
    ⟨lt_irrefl⟩
  have hantisymm : Std.Antisymm fun first second : Key => second < first :=
    ⟨fun _ _ hfirst hsecond => absurd hfirst hsecond.asymm⟩
  exact List.Pairwise.eq_of_mem_iff hkeys hothers hmem

theorem newestFirst_filter (condition : Key → Bool) :
    newestFirst (keys.filter fun key => condition key) =
      (newestFirst keys).filter condition := by
  apply eq_of_descending (descending_newestFirst _)
  · exact (descending_newestFirst keys).filter condition
  · intro key
    rw [List.mem_filter, mem_newestFirst, mem_newestFirst, Finset.mem_filter]

theorem newestFirst_below (last : Key) :
    newestFirst (keys.filter fun key => key < last) =
      below id (some last) (newestFirst keys) := by
  rw [below, ← newestFirst_filter]
  simp

theorem grown_newestFirst
    (hsubset : first ⊆ later)
    (hnewer : ∀ key ∈ later, key ∉ first → ∀ old ∈ first, old < key) :
    Grown id (newestFirst first) (newestFirst later) := by
  refine ⟨newestFirst (later \ first), ?_, ?_⟩
  · apply eq_of_descending (descending_newestFirst later)
    · rw [Descending, List.pairwise_append]
      refine ⟨descending_newestFirst _, descending_newestFirst _, ?_⟩
      intro key hkey old hold
      rw [mem_newestFirst, Finset.mem_sdiff] at hkey
      exact hnewer key hkey.1 hkey.2 old (mem_newestFirst.mp hold)
    · intro key
      rw [List.mem_append, mem_newestFirst, mem_newestFirst, mem_newestFirst,
        Finset.mem_sdiff]
      by_cases hkey : key ∈ first
      · simp [hkey, hsubset hkey]
      · simp [hkey]
  · intro key hkey old hold
    rw [mem_newestFirst, Finset.mem_sdiff] at hkey
    exact hnewer key hkey.1 hkey.2 old
      (mem_newestFirst.mp (List.mem_of_mem_head? hold))

end Sets

end NotifyHub.Keyset
