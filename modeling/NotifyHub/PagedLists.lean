import NotifyHub.AuditLists
import Mathlib.Tactic

/-!
# The pages of the lists

Notifications, deliveries and audit events are listed in pages, each by a query
of its own.  A row is told by its moment and its identifier, which is also what
a cursor holds.
-/

namespace NotifyHub.Paging

open Dashboard (Claims Condition allOf given beforeCursor page Env)
open Keyset (newestFirst below Walk answer)

/-- A moment and an identifier, in the order of the lists. -/
abbrev RowKey := Lex (Instant × Uuid)

def keyId (key : RowKey) : Uuid := (ofLex key).2

/-- The cursor of a row. -/
def cursorText (moment : Instant) (id : Uuid) : Text :=
  if hrange : 0 ≤ moment ∧ moment ≤ datetimeMax then
    encodeCursor ⟨moment, hrange⟩ id
  else []

def encodeKey (key : RowKey) : Text :=
  cursorText (ofLex key).1 (ofLex key).2

/-- A key whose moment is one of Python's. -/
def Dated (key : RowKey) : Prop :=
  0 ≤ (ofLex key).1 ∧ (ofLex key).1 ≤ datetimeMax

theorem decodeCursor_encodeKey {key : RowKey} (hdated : Dated key) :
    decodeCursor (encodeKey key) = .ok (ofLex key) := by
  have hrange : 0 ≤ (ofLex key).1 ∧ (ofLex key).1 ≤ datetimeMax := hdated
  rw [encodeKey, cursorText, dif_pos hrange, decodeCursor_encodeCursor]

/-! ## Queries -/

section Queries

variable {Row α : Type} [LinearOrder α]

/-- The selected rows of a table, the newest first, when the order of the query
is that of the keys. -/
theorem fetch_reverse
    {table : Table Uuid Row} {column : Uuid → Row → α} {ids : Finset Uuid}
    (moment : Uuid → Instant) {lift : Instant → α} (hlift : StrictMono lift)
    (hcolumn : ∀ id ∈ ids, column id (table.row id) = lift (moment id)) :
    (table.fetch column ids).reverse =
      (newestFirst (ids.image fun id => toLex (moment id, id))).map fun key =>
        (keyId key, table.row (keyId key)) := by
  let after (first second : Uuid × Row) : Prop :=
    toLex (column second.1 second.2, second.1) <
      toLex (column first.1 first.2, first.1)
  have hirrefl : Std.Irrefl after := ⟨fun _ => lt_irrefl _⟩
  have hantisymm : Std.Antisymm after :=
    ⟨fun _ _ hfirst hsecond => absurd hfirst hsecond.asymm⟩
  have hleft : List.Pairwise after (table.fetch column ids).reverse :=
    List.pairwise_reverse.mpr (Table.fetch_pairwise table column)
  have hright : List.Pairwise after
      ((newestFirst (ids.image fun id => toLex (moment id, id))).map
        fun key => (keyId key, table.row (keyId key))) := by
    rw [List.pairwise_map]
    apply (Keyset.descending_newestFirst _).imp_of_mem
    intro first second hfirst hsecond hlt
    rw [Keyset.mem_newestFirst, Finset.mem_image] at hfirst hsecond
    obtain ⟨id, hid, rfl⟩ := hfirst
    obtain ⟨other, hother, rfl⟩ := hsecond
    simp only [after, keyId, ofLex_toLex, id_eq] at hlt ⊢
    rw [hcolumn id hid, hcolumn other hother]
    rw [Prod.Lex.toLex_lt_toLex] at hlt ⊢
    simpa [hlift.lt_iff_lt, hlift.injective.eq_iff] using hlt
  apply hleft.eq_of_mem_iff hright
  intro entry
  rw [List.mem_reverse, Table.mem_fetch, List.mem_map]
  constructor
  · rintro ⟨hid, hrow⟩
    refine ⟨toLex (moment entry.1, entry.1), ?_, ?_⟩
    · rw [Keyset.mem_newestFirst]
      exact Finset.mem_image_of_mem _ hid
    · exact Prod.ext rfl hrow.symm
  · rintro ⟨key, hkey, rfl⟩
    rw [Keyset.mem_newestFirst, Finset.mem_image] at hkey
    obtain ⟨id, hid, rfl⟩ := hkey
    exact ⟨hid, rfl⟩

/-- A page of rows which are told by their keys. -/
theorem page_of_keys
    {limit : ℕ} {cursor : Option RowKey} {keys : List RowKey}
    {found : List Row} {cursorOf : Row → Text} {item : Row → Uuid}
    (hfound : (found.map fun row => (item row, cursorOf row)) =
      ((below id cursor keys).take (limit + 1)).map fun key =>
        (keyId key, encodeKey key)) :
    ((page found limit cursorOf).1.map item, (page found limit cursorOf).2) =
      answer encodeKey keyId (Keyset.page id limit cursor keys) := by
  have htaken := congrArg (List.take limit) hfound
  rw [← List.map_take, ← List.map_take] at htaken
  have hlength := congrArg List.length hfound
  rw [List.length_map, List.length_map] at hlength
  have hitems := congrArg (List.map Prod.fst) htaken
  have hlast := congrArg (fun pairs => pairs.getLast?.map Prod.snd) htaken
  simp only [List.map_map, List.getLast?_map, Option.map_map] at hitems hlast
  simp only [page, answer, Keyset.page, hlength]
  apply Prod.ext hitems
  simp only
  split
  · rw [Option.map_map]
    exact hlast
  · rfl

/-- The page of no rows. -/
theorem page_empty {limit : ℕ} {cursor : Option RowKey} :
    answer encodeKey keyId (Keyset.page id limit cursor (newestFirst ∅)) =
      ([], none) := by
  have hbelow : below id cursor ([] : List RowKey) = [] := by
    cases cursor with
    | none => rfl
    | some last => rfl
  have hkeys : newestFirst (∅ : Finset RowKey) = [] := by
    simp [newestFirst]
  rw [hkeys, Keyset.page_of_le hbelow (Nat.zero_le limit)]
  rfl

/-- The keys of what a query selects with the condition of a cursor. -/
theorem newestFirst_of_cursor
    {ids selected : Finset Uuid} {key : Uuid → RowKey}
    {cursor : Option (Instant × Uuid)}
    (hselected : ∀ id, id ∈ selected ↔
      id ∈ ids ∧ ∀ last ∈ cursor, key id < toLex last) :
    newestFirst (selected.image key) =
      below id (cursor.map toLex) (newestFirst (ids.image key)) := by
  cases cursor with
  | none =>
      have hall : selected = ids := by
        ext id
        simpa using hselected id
      rw [hall]
      rfl
  | some last =>
      have hfilter : selected = ids.filter fun id => key id < toLex last := by
        ext id
        simpa using hselected id
      rw [hfilter, Option.map_some, ← Keyset.newestFirst_below,
        Finset.filter_image]

theorem mem_select_given
    {table : Table Uuid Row} {conditions : List (Condition Uuid Row)}
    {moment : Uuid → Row → Instant} {cursor : Option (Instant × Uuid)}
    {id : Uuid} :
    id ∈ table.select (allOf (conditions ++ given cursor
        fun last id row => beforeCursor last (moment id row) id)) ↔
      id ∈ table.select (allOf conditions) ∧
        ∀ last ∈ cursor, toLex (moment id (table.row id), id) < toLex last := by
  cases cursor with
  | none => simp
  | some last => simp [allOf, beforeCursor, and_assoc]

/-- The first rows of a query in their order, by their keys. -/
theorem map_take_fetch
    {table : Table Uuid Row} {column : Uuid → Row → α} {ids : Finset Uuid}
    (moment : Uuid → Instant) {lift : Instant → α} (hlift : StrictMono lift)
    (hcolumn : ∀ id ∈ ids, column id (table.row id) = lift (moment id))
    {found : Type} {taken : Uuid × Row → found} {limit : ℕ}
    {value : RowKey → found}
    (hvalue : ∀ id ∈ ids,
      taken (id, table.row id) = value (toLex (moment id, id))) :
    ((table.fetch column ids).reverse.take limit).map taken =
      ((newestFirst (ids.image fun id => toLex (moment id, id))).take
        limit).map value := by
  rw [fetch_reverse moment hlift hcolumn, ← List.map_take, List.map_map]
  apply List.map_congr_left
  intro key hkey
  have hmem := List.mem_of_mem_take hkey
  rw [Keyset.mem_newestFirst, Finset.mem_image] at hmem
  obtain ⟨id, hid, rfl⟩ := hmem
  exact hvalue id hid

end Queries

/-! ## Notifications -/

section Notifications

variable {Key : Type} [LinearOrder Key] {env : Env Uuid Key}

/-- The cursors are those of the endpoints. -/
def withCursors (env : Env Uuid Key) : Env Uuid Key :=
  { env with
    encodeCursor := cursorText
    decodeCursor := decodeCursor }

variable {state : Dashboard.State Uuid} {claims : Claims Uuid}

/-- The notifications which a list selects, whatever the page. -/
def selectedNotifications
    (env : Env Uuid Key) (state : Dashboard.State Uuid) (claims : Claims Uuid)
    (filters : Dashboard.NotificationFilters Uuid)
    (status : Option NotificationStatus) : Except Problem (Finset Uuid) :=
  (Dashboard.applyFilters env state claims filters false).map fun applied =>
    if applied.visible then
      state.notifications.select
        (allOf (Dashboard.pageConditions applied status none))
    else ∅

def notificationKey (state : Dashboard.State Uuid) (id : Uuid) : RowKey :=
  toLex ((state.notifications.row id).receivedAt, id)

theorem mem_select_pageConditions
    {applied : Dashboard.AppliedFilters Uuid}
    {status : Option NotificationStatus} {cursor : Option (Instant × Uuid)}
    {id : Uuid} :
    id ∈ state.notifications.select
        (allOf (Dashboard.pageConditions applied status cursor)) ↔
      id ∈ state.notifications.select
          (allOf (Dashboard.pageConditions applied status none)) ∧
        ∀ last ∈ cursor, notificationKey state id < toLex last := by
  have hconditions : Dashboard.pageConditions applied status cursor =
      Dashboard.pageConditions applied status none ++ given cursor
        fun last id row => beforeCursor last row.receivedAt id := by
    simp [Dashboard.pageConditions]
  rw [hconditions]
  exact mem_select_given

omit [LinearOrder Key] in
theorem listNotifications_answer
    {filters : Dashboard.NotificationFilters Uuid}
    {status : Option NotificationStatus} {text : Option Text}
    {cursor : Option (Instant × Uuid)} {limit : ℕ} {ids : Finset Uuid}
    (hselected : selectedNotifications (withCursors env) state claims filters
      status = .ok ids)
    (hcursor : Dashboard.cursorOf (withCursors env) text = .ok cursor) :
    (Dashboard.listNotifications (withCursors env) state claims filters status
        text limit).map (fun out =>
          (out.notifications.map Dashboard.NotificationListItem.id,
            out.nextCursor)) =
      .ok (answer encodeKey keyId (Keyset.page id limit (cursor.map toLex)
        (newestFirst (ids.image (notificationKey state))))) := by
  rw [selectedNotifications, Except.map_eq_ok] at hselected
  obtain ⟨applied, happlied, rfl⟩ := hselected
  rw [Dashboard.listNotifications, happlied]
  by_cases hvisible : applied.visible
  · simp only [bind, Except.bind, pure, Except.pure, if_pos hvisible, hcursor,
      Except.map]
    congr 1
    rw [← page_of_keys]
    · simp only [List.map_map]
      rfl
    · rw [← newestFirst_of_cursor fun id => mem_select_pageConditions]
      exact map_take_fetch (fun id => (state.notifications.row id).receivedAt)
        strictMono_id (fun _ _ => rfl) fun _ _ => rfl
  · simp only [bind, Except.bind, pure, Except.pure, if_neg hvisible,
      Except.map]
    congr 1
    rw [Finset.image_empty, page_empty, List.map_nil]

end Notifications

/-! ## Deliveries -/

section Deliveries

variable {Key : Type} {env : Env Uuid Key} {state : Dashboard.State Uuid}
  {claims : Claims Uuid} {status : Option DeliveryStatus}
  {channelId : Option Uuid}

/-- The deliveries which a list selects, whatever the page. -/
def selectedDeliveries
    (state : Dashboard.State Uuid) (claims : Claims Uuid)
    (status : Option DeliveryStatus) (channelId : Option Uuid) : Finset Uuid :=
  let allowed := Dashboard.accessibleGroupIds state claims
  if allowed = some ∅ then ∅
  else
    state.deliveries.select (Dashboard.whereJoined state
      (allOf (Dashboard.deliveryConditions claims status channelId allowed
        none)))

/-- When the notification of a delivery was received. -/
def joinedMoment (state : Dashboard.State Uuid) (id : Uuid) : Instant :=
  match Dashboard.joinDelivery state (state.deliveries.row id) with
  | some joined => joined.notification.receivedAt
  | none => 0

def deliveryKey (state : Dashboard.State Uuid) (id : Uuid) : RowKey :=
  toLex (joinedMoment state id, id)

theorem mem_select_deliveryConditions
    {allowed : Option (Finset Uuid)} {cursor : Option (Instant × Uuid)}
    {id : Uuid} :
    id ∈ state.deliveries.select (Dashboard.whereJoined state
        (allOf (Dashboard.deliveryConditions claims status channelId allowed
          cursor))) ↔
      id ∈ state.deliveries.select (Dashboard.whereJoined state
          (allOf (Dashboard.deliveryConditions claims status channelId allowed
            none))) ∧
        ∀ last ∈ cursor, deliveryKey state id < toLex last := by
  have hconditions :
      Dashboard.deliveryConditions claims status channelId allowed cursor =
        Dashboard.deliveryConditions claims status channelId allowed none ++
          given cursor fun last id row =>
            beforeCursor last row.notification.receivedAt id := by
    simp [Dashboard.deliveryConditions]
  rw [hconditions, Table.mem_select, Table.mem_select, and_assoc]
  apply and_congr_right
  intro hid
  rw [Dashboard.whereJoined, Dashboard.whereJoined, deliveryKey, joinedMoment]
  cases Dashboard.joinDelivery state (state.deliveries.row id) with
  | none => simp
  | some joined =>
      cases cursor with
      | none => simp
      | some last =>
          simp only [Option.any_some, allOf, given, Option.map_some,
            Option.toList_some, List.all_append, List.all_cons, List.all_nil,
            Bool.and_true, Bool.and_eq_true, beforeCursor, decide_eq_true_eq,
            Option.mem_some_iff, forall_eq']

/-- A delivery which is selected has a row in the join. -/
theorem joined_of_mem_select
    {condition : Condition Uuid (Dashboard.JoinedDelivery Uuid)} {id : Uuid}
    (hmem : id ∈ state.deliveries.select
      (Dashboard.whereJoined state condition)) :
    ∃ joined,
      Dashboard.joinDelivery state (state.deliveries.row id) = some joined ∧
        joinedMoment state id = joined.notification.receivedAt := by
  have hcondition := (Table.mem_select.mp hmem).2
  rw [Dashboard.whereJoined, Option.any_eq_true] at hcondition
  obtain ⟨joined, hjoined, -⟩ := hcondition
  exact ⟨joined, hjoined, by rw [joinedMoment, hjoined]⟩

theorem map_latestDeliveries
    {ids : Finset Uuid} {limit : ℕ}
    (hjoined : ∀ id ∈ ids, ∃ joined,
      Dashboard.joinDelivery state (state.deliveries.row id) = some joined ∧
        joinedMoment state id = joined.notification.receivedAt) :
    ((Dashboard.latestDeliveries state ids limit).map fun row =>
        (row.id, cursorText row.joined.notification.receivedAt row.id)) =
      ((newestFirst (ids.image (deliveryKey state))).take (limit + 1)).map
        fun key => (keyId key, encodeKey key) := by
  let taken (entry : Uuid × Dashboard.Delivery Uuid) : Option (Uuid × Text) :=
    (Dashboard.joinDelivery state entry.2).map fun joined =>
      (entry.1, cursorText joined.notification.receivedAt entry.1)
  have htaken : ((state.deliveries.fetch
        (fun _ row => Dashboard.deliveryMoment state row) ids).reverse.take
          (limit + 1)).map taken =
      ((newestFirst (ids.image (deliveryKey state))).take (limit + 1)).map
        fun key => some (keyId key, encodeKey key) := by
    apply map_take_fetch (joinedMoment state) WithBot.coe_strictMono
    · intro id hid
      obtain ⟨joined, hrow, hmoment⟩ := hjoined id hid
      simp only [Dashboard.deliveryMoment, hrow, hmoment]
    · intro id hid
      obtain ⟨joined, hrow, hmoment⟩ := hjoined id hid
      simp only [taken, hrow, Option.map_some, hmoment]
      rfl
  have hfiltered := congrArg (List.filterMap id) htaken
  rw [List.filterMap_map, List.filterMap_map] at hfiltered
  rw [Dashboard.latestDeliveries, List.map_filterMap, ← List.filterMap_eq_map]
  refine Eq.trans (List.filterMap_congr fun entry _ => ?_) hfiltered
  simp only [Option.map_map]
  rfl

theorem listDeliveries_answer
    {text : Option Text} {cursor : Option (Instant × Uuid)} {limit : ℕ}
    (hcursor : Dashboard.cursorOf (withCursors env) text = .ok cursor) :
    (Dashboard.listDeliveries (withCursors env) state claims status channelId
        text limit).map (fun out =>
          (out.deliveries.map Dashboard.DeliveryItem.id, out.nextCursor)) =
      .ok (answer encodeKey keyId (Keyset.page id limit (cursor.map toLex)
        (newestFirst ((selectedDeliveries state claims status channelId).image
          (deliveryKey state))))) := by
  rw [Dashboard.listDeliveries, selectedDeliveries]
  by_cases hallowed : Dashboard.accessibleGroupIds state claims = some ∅
  · simp only [if_pos hallowed, Except.map, Finset.image_empty, page_empty,
      List.map_nil]
  · simp only [if_neg hallowed, hcursor, Except.map]
    congr 1
    rw [← page_of_keys]
    · simp only [List.map_map]
      rfl
    · rw [← newestFirst_of_cursor fun id => mem_select_deliveryConditions]
      exact map_latestDeliveries fun id => joined_of_mem_select

end Deliveries

/-! ## Audit events -/

section AuditEvents

open AuditLog (AuditEvent AuditFilters AuditState queryAfter)

variable {events : Table Uuid AuditEvent} {claims : Claims Uuid}
  {filters : AuditFilters}

def eventKey (events : Table Uuid AuditEvent) (id : Uuid) : RowKey :=
  toLex ((events.row id).occurredAt.val, id)

theorem cursorText_occurredAt (moment : Datetime) (id : Uuid) :
    encodeCursor moment id = cursorText moment.val id := by
  rw [cursorText, dif_pos moment.property]

theorem mem_queryAfter {cursor : Option (Instant × Uuid)} {id : Uuid} :
    id ∈ queryAfter events claims filters cursor ↔
      id ∈ queryAfter events claims filters none ∧
        ∀ last ∈ cursor, eventKey events id < toLex last := by
  rw [queryAfter, queryAfter, Dashboard.given_none, List.append_nil]
  exact mem_select_given

/-- The first events of a query after a cursor, by their keys. -/
theorem map_latestEvents
    {Out : Type} {cursor : Option (Instant × Uuid)} {limit : ℕ}
    {taken : Uuid × AuditEvent → Out} {value : RowKey → Out}
    (hvalue : ∀ id ∈ queryAfter events claims filters none,
      taken (id, events.row id) = value (eventKey events id)) :
    (AuditLog.latestEvents events (queryAfter events claims filters cursor)
        limit).map taken =
      ((below id (cursor.map toLex) (newestFirst
        ((queryAfter events claims filters none).image
          (eventKey events)))).take limit).map value := by
  rw [← newestFirst_of_cursor fun id => mem_queryAfter]
  apply map_take_fetch (fun id => (events.row id).occurredAt.val) strictMono_id
  · exact fun _ _ => rfl
  · exact fun id hid => hvalue id (mem_queryAfter.mp hid).1

theorem paginated_answer
    {state : AuditState} {text : Option Text}
    {cursor : Option (Instant × Uuid)} {limit : ℕ}
    (hcursor : AuditLog.readCursor text = .ok cursor) :
    (AuditLog.paginated state claims filters text limit).map (fun out =>
        (out.events.map AuditLog.AuditEventOut.id, out.nextCursor)) =
      .ok (answer encodeKey keyId (Keyset.page id limit (cursor.map toLex)
        (newestFirst ((queryAfter state.events claims filters none).image
          (eventKey state.events))))) := by
  rw [AuditLog.paginated, hcursor]
  simp only [Except.map]
  congr 1
  rw [← page_of_keys]
  · simp only [List.map_map]
    rfl
  · apply map_latestEvents
    intro id hid
    rw [cursorText_occurredAt]
    rfl

end AuditEvents

end NotifyHub.Paging
