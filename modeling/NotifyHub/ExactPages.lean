import NotifyHub.PagedLists
import Mathlib.Tactic

/-!
# Exactness of the pages

Whoever follows the cursors of a list sees what the list selected when its
first page was read, once and in order, and so does whoever reads the export.
Rows may be inserted between two requests, but only newer ones.
-/

namespace NotifyHub.Paging

open AuditLog (AuditEvent AuditEventOut AuditFilters AuditOutcome AuditState
  exportBatchRows exportBlocks exportMaxRows modelDump queryAfter)
open Dashboard (Claims Env)
open JsonText (Denotes Value)
open Keyset (newestFirst below Walk answer)

/-! ## Lists -/

structure Database where
  dashboard : Dashboard.State Uuid
  audit : AuditState

/-- A list with its filters. -/
inductive Listing
  | notifications
      (filters : Dashboard.NotificationFilters Uuid)
      (status : Option NotificationStatus)
  | deliveries (status : Option DeliveryStatus) (channelId : Option Uuid)
  | auditEvents
      (actorUserId : Option Uuid) (action resourceType : Option Text)
      (resourceId : Option Uuid) (outcome : Option AuditOutcome)
      (since until_ : Option Instant)
  | notificationStatus
      (notificationId actorUserId : Option Uuid) (action : Option Text)
      (since until_ : Option Instant)

section Requests

variable {Key : Type} (env : Env Uuid Key) (claims : Claims Uuid)

/-- A request for a page, answered with the rows' identifiers. -/
def Listing.ask
    (listing : Listing) (limit : ℕ) (database : Database)
    (cursor : Option Text) : Except Problem (List Uuid × Option Text) :=
  match listing with
  | .notifications filters status =>
      (Dashboard.listNotifications (withCursors env) database.dashboard claims
        filters status cursor limit).map fun out =>
          (out.notifications.map Dashboard.NotificationListItem.id,
            out.nextCursor)
  | .deliveries status channelId =>
      (Dashboard.listDeliveries (withCursors env) database.dashboard claims
        status channelId cursor limit).map fun out =>
          (out.deliveries.map Dashboard.DeliveryItem.id, out.nextCursor)
  | .auditEvents actorUserId action resourceType resourceId outcome since
      until_ =>
      (AuditLog.listAuditEvents database.audit claims actorUserId action
        resourceType resourceId outcome since until_ cursor limit).map
          fun out => (out.events.map AuditEventOut.id, out.nextCursor)
  | .notificationStatus notificationId actorUserId action since until_ =>
      (AuditLog.listNotificationStatusEvents database.audit claims
        notificationId actorUserId action since until_ cursor limit).map
          fun out => (out.events.map AuditEventOut.id, out.nextCursor)

/-- The rows which match, whatever the page. -/
def Listing.selected (listing : Listing) (database : Database) :
    Except Problem (Finset Uuid) :=
  match listing with
  | .notifications filters status =>
      selectedNotifications (withCursors env) database.dashboard claims filters
        status
  | .deliveries status channelId =>
      .ok (selectedDeliveries database.dashboard claims status channelId)
  | .auditEvents actorUserId action resourceType resourceId outcome since
      until_ =>
      (requireAdmin claims.toAccessClaims).map fun () =>
        queryAfter database.audit.events claims
          ⟨actorUserId, action, resourceType, resourceId, outcome, since,
            until_, none, false⟩ none
  | .notificationStatus notificationId actorUserId action since until_ =>
      (requireAdmin claims.toAccessClaims).map fun () =>
        queryAfter database.audit.events claims
          ⟨actorUserId, action, none, none, none, since, until_,
            notificationId, true⟩ none

/-- What a list is in order of. -/
def Listing.key (listing : Listing) (database : Database) (id : Uuid) :
    RowKey :=
  match listing with
  | .notifications .. => notificationKey database.dashboard id
  | .deliveries .. => deliveryKey database.dashboard id
  | .auditEvents .. | .notificationStatus .. =>
      eventKey database.audit.events id

variable {env claims} {listing : Listing} {limit : ℕ} {database : Database}
  {text : Option Text} {cursor : Option (Instant × Uuid)} {ids : Finset Uuid}

theorem Listing.ask_eq
    (hselected : listing.selected env claims database = .ok ids)
    (hcursor : AuditLog.readCursor text = .ok cursor) :
    listing.ask env claims limit database text =
      .ok (answer encodeKey keyId (Keyset.page id limit (cursor.map toLex)
        (newestFirst (ids.image (listing.key database))))) := by
  have hdashboard :
      Dashboard.cursorOf (withCursors env) text = .ok cursor := by
    cases text with
    | none => exact hcursor
    | some encoded => exact hcursor
  cases listing with
  | notifications filters status =>
      exact listNotifications_answer hselected hdashboard
  | deliveries status channelId =>
      obtain rfl := Except.ok.inj hselected
      exact listDeliveries_answer hdashboard
  | auditEvents actorUserId action resourceType resourceId outcome since
      until_ =>
      rw [Listing.selected, Except.map_eq_ok] at hselected
      obtain ⟨⟨⟩, hadmin, rfl⟩ := hselected
      rw [Listing.ask, AuditLog.listAuditEvents, hadmin]
      exact paginated_answer hcursor
  | notificationStatus notificationId actorUserId action since until_ =>
      rw [Listing.selected, Except.map_eq_ok] at hselected
      obtain ⟨⟨⟩, hadmin, rfl⟩ := hselected
      rw [Listing.ask, AuditLog.listNotificationStatusEvents, hadmin]
      exact paginated_answer hcursor

end Requests

/-! ## Insertions -/

/-- What a query selects at each request: all it selected at the first one,
and rows newer than the first of these. -/
structure Inserts
    (selected : ℕ → Finset Uuid) (key : ℕ → Uuid → RowKey) : Prop where
  subset : ∀ step, selected 0 ⊆ selected step
  unchanged : ∀ step, ∀ id ∈ selected 0, key step id = key 0 id
  newer : ∀ step, ∀ id ∈ selected step, id ∉ selected 0 →
    ∀ first ∈ (newestFirst ((selected 0).image (key 0))).head?,
      first < key step id

theorem Inserts.grown
    {selected : ℕ → Finset Uuid} {key : ℕ → Uuid → RowKey}
    (hinserts : Inserts selected key) (step : ℕ) :
    Keyset.Grown id (newestFirst ((selected 0).image (key 0)))
      (newestFirst ((selected step).image (key step))) := by
  apply Keyset.grown_newestFirst
  · intro older holder
    obtain ⟨id, hid, rfl⟩ := Finset.mem_image.mp holder
    rw [← hinserts.unchanged step id hid]
    exact Finset.mem_image_of_mem _ (hinserts.subset step hid)
  · intro newer hnewer hnot old hold
    obtain ⟨id, hid, rfl⟩ := Finset.mem_image.mp hnewer
    have hinserted : id ∉ selected 0 := by
      intro hfirst
      apply hnot
      rw [hinserts.unchanged step id hfirst]
      exact Finset.mem_image_of_mem _ hfirst
    exact Keyset.lt_of_lt_first (Keyset.descending_newestFirst _)
      (hinserts.newer step id hid hinserted) old
      (Keyset.mem_newestFirst.mpr hold)

section Walks

variable {Key : Type} {env : Env Uuid Key} {claims : Claims Uuid}
  {listing : Listing} {limit : ℕ} {databases : ℕ → Database}
  {selected : ℕ → Finset Uuid} {visited : List Uuid}

/-- The answers to whoever follows the cursors of a list. -/
def Listing.asks
    (env : Env Uuid Key) (claims : Claims Uuid) (listing : Listing) (limit : ℕ)
    (databases : ℕ → Database) (step : ℕ) (cursor : Option Text) :
    Option (List Uuid × Option Text) :=
  (listing.ask env claims limit (databases step) cursor).toOption

theorem Listing.key_id (database : Database) (id : Uuid) :
    keyId (listing.key database id) = id := by
  cases listing with
  | notifications filters status => rfl
  | deliveries status channelId => rfl
  | auditEvents actorUserId action resourceType resourceId outcome since
      until_ => rfl
  | notificationStatus notificationId actorUserId action since until_ => rfl

theorem Listing.walk_iff
    (hlimit : 0 < limit)
    (hselected : ∀ step,
      listing.selected env claims (databases step) = .ok (selected step))
    (hinserts : Inserts selected fun step => listing.key (databases step))
    (hdated : ∀ id ∈ selected 0, Dated (listing.key (databases 0) id)) :
    Walk (listing.asks env claims limit databases) 0 none visited ↔
      visited = (newestFirst
        ((selected 0).image (listing.key (databases 0)))).map keyId := by
  apply Keyset.walk_iff hlimit (Keyset.descending_newestFirst _) rfl
    hinserts.grown
  · rw [Listing.asks, Listing.ask_eq (hselected 0) rfl]
    rfl
  · intro step key hkey
    rw [Keyset.mem_newestFirst, Finset.mem_image] at hkey
    obtain ⟨id, hid, rfl⟩ := hkey
    have hread : AuditLog.readCursor
        (some (encodeKey (listing.key (databases 0) id))) =
          .ok (some (ofLex (listing.key (databases 0) id))) := by
      rw [AuditLog.readCursor, decodeCursor_encodeKey (hdated id hid)]
      rfl
    rw [Listing.asks, id_eq, Listing.ask_eq (hselected step) hread]
    rfl

end Walks

/-! ## Exactness -/

/-- Each of the rows once, the newest first. -/
structure Lists
    (key : Uuid → RowKey) (ids : Finset Uuid) (visited : List Uuid) :
    Prop where
  descending : visited.Pairwise fun earlier later => key later < key earlier
  complete : ∀ id, id ∈ visited ↔ id ∈ ids

theorem lists_newestFirst
    {key : Uuid → RowKey} (hkey : ∀ id, keyId (key id) = id)
    (ids : Finset Uuid) :
    Lists key ids ((newestFirst (ids.image key)).map keyId) where
  descending := by
    rw [List.pairwise_map]
    apply (Keyset.descending_newestFirst _).imp_of_mem
    intro earlier later hearlier hlater hlt
    rw [Keyset.mem_newestFirst, Finset.mem_image] at hearlier hlater
    obtain ⟨first, -, rfl⟩ := hearlier
    obtain ⟨second, -, rfl⟩ := hlater
    rw [hkey, hkey]
    exact hlt
  complete := by
    intro id
    rw [List.mem_map]
    constructor
    · rintro ⟨listed, hlisted, rfl⟩
      rw [Keyset.mem_newestFirst, Finset.mem_image] at hlisted
      obtain ⟨other, hother, rfl⟩ := hlisted
      rwa [hkey]
    · intro hid
      exact ⟨key id, Keyset.mem_newestFirst.mpr
        (Finset.mem_image_of_mem key hid), hkey id⟩

/-! ## The export -/

section Export

variable {claims : Claims Uuid} {filters : AuditFilters}
  {states : ℕ → AuditState} {step emitted : ℕ}
  {cursor : Option (Instant × Uuid)}

/-- What the query of an export selects when a block is read. -/
def exported
    (claims : Claims Uuid) (filters : AuditFilters) (states : ℕ → AuditState)
    (step : ℕ) : Finset Uuid :=
  queryAfter (states step).events claims filters none

def recordKey (record : AuditEventOut) : RowKey :=
  toLex (record.event.occurredAt.val, record.id)

/-- The blocks of the export are those of the keys. -/
theorem map_exportBlocks :
    (exportBlocks claims filters states step emitted cursor).map
        (List.map recordKey) =
      Keyset.blocks id exportBatchRows exportMaxRows
        (fun step => newestFirst ((exported claims filters states step).image
          (eventKey (states step).events)))
        step emitted (cursor.map toLex) := by
  induction hroom : exportMaxRows - emitted using Nat.strong_induction_on
    generalizing step emitted cursor with
  | _ room ih =>
      let rows := AuditLog.latestEvents (states step).events
        (queryAfter (states step).events claims filters cursor) exportBatchRows
      have hblock : (rows.map fun entry =>
          toLex (entry.2.occurredAt.val, entry.1)) =
          (below id (cursor.map toLex)
            (newestFirst ((exported claims filters states step).image
              (eventKey (states step).events)))).take exportBatchRows := by
        rw [← List.map_id (List.take _ _)]
        exact map_latestEvents fun _ _ => rfl
      rw [exportBlocks, Keyset.blocks]
      simp only [← hblock, List.map_eq_nil_iff, List.length_map]
      by_cases hemitted : emitted < exportMaxRows
      · rw [if_pos hemitted, if_pos hemitted]
        by_cases hnone : rows = []
        · rw [if_pos hnone, if_pos hnone, List.map_nil]
        · rw [if_neg hnone, if_neg hnone]
          have hrecords : (rows.map (AuditLog.toOut (states step))).map
              recordKey = rows.map fun entry =>
                toLex (entry.2.occurredAt.val, entry.1) := by
            rw [List.map_map]
            rfl
          by_cases hshort : rows.length < exportBatchRows
          · rw [if_pos hshort, if_pos hshort, List.map_singleton, hrecords]
          · rw [if_neg hshort, if_neg hshort, List.map_cons, hrecords]
            have hlength : 0 < rows.length := List.length_pos_iff.mpr hnone
            have hless : exportMaxRows - (emitted + rows.length) < room := by
              rw [← hroom]
              exact Nat.sub_lt_sub_left hemitted
                (Nat.lt_add_of_pos_right hlength)
            rw [ih _ hless rfl, Option.map_map, List.getLast?_map,
              Option.map_map]
            rfl
      · rw [if_neg hemitted, if_neg hemitted, List.map_nil]

theorem block_ne_nil :
    ∀ block ∈ exportBlocks claims filters states step emitted cursor,
      block ≠ [] := by
  fun_induction exportBlocks claims filters states step emitted cursor with
  | case1 step emitted cursor hemitted selected rows hnone => nofun
  | case2 step emitted cursor hemitted selected rows hnone records hshort =>
      rw [List.forall_mem_singleton]
      exact List.map_eq_nil_iff.not.mpr hnone
  | case3 step emitted cursor hemitted selected rows hnone records hfull ih =>
      rw [List.forall_mem_cons]
      exact ⟨List.map_eq_nil_iff.not.mpr hnone, ih⟩
  | case4 step emitted cursor hfull => nofun

/-- A record is what its row was when its block was read. -/
theorem record_eq_toOut :
    ∀ block ∈ exportBlocks claims filters states step emitted cursor,
      ∀ record ∈ block, ∃ read, record = AuditLog.toOut (states read)
        (record.id, (states read).events.row record.id) := by
  have hrecord : ∀ (read : ℕ) (after : Option (Instant × Uuid)),
      ∀ record ∈ (AuditLog.latestEvents (states read).events
        (queryAfter (states read).events claims filters after)
          exportBatchRows).map (AuditLog.toOut (states read)),
        ∃ read, record = AuditLog.toOut (states read)
          (record.id, (states read).events.row record.id) := by
    intro read after record hmem
    obtain ⟨entry, hentry, rfl⟩ := List.mem_map.mp hmem
    have hrow := (Table.mem_fetch.mp
      (List.mem_reverse.mp (List.mem_of_mem_take hentry))).2
    refine ⟨read, ?_⟩
    change AuditLog.toOut (states read) entry = AuditLog.toOut (states read)
      (entry.1, (states read).events.row entry.1)
    rw [← hrow]
  fun_induction exportBlocks claims filters states step emitted cursor with
  | case1 step emitted cursor hemitted selected rows hnone => nofun
  | case2 step emitted cursor hemitted selected rows hnone records hshort =>
      rw [List.forall_mem_singleton]
      exact hrecord step cursor
  | case3 step emitted cursor hemitted selected rows hnone records hfull ih =>
      rw [List.forall_mem_cons]
      exact ⟨hrecord step cursor, ih⟩
  | case4 step emitted cursor hfull => nofun

theorem utf8Encode_flatten (parts : List Text) :
    utf8Encode parts.flatten = (parts.map utf8Encode).flatten := by
  induction parts with
  | nil => rfl
  | cons part rest ih =>
      rw [List.flatten_cons, List.map_cons, List.flatten_cons, ← ih]
      exact List.flatMap_append

theorem flatten_jsonChunks
    {blocks : List (List Value)} (hblocks : ∀ block ∈ blocks, block ≠ []) :
    (AuditLog.jsonChunks blocks).flatten =
      utf8Encode (JsonText.dumps (.array blocks.flatten)) := by
  rw [← JsonText.dumps_array_of_pieces hblocks, AuditLog.jsonChunks,
    List.flatten_append, List.flatten_cons, ← utf8Encode_flatten]
  simp [utf8Encode]

/-- The blocks hold what the query selected when the first one was read. -/
theorem flatten_exportBlocks
    (hinserts : Inserts (exported claims filters states)
      fun step => eventKey (states step).events)
    (hmaximum : (exported claims filters states 0).card ≤ exportMaxRows) :
    ((exportBlocks claims filters states 0 0 none).flatten).map recordKey =
      newestFirst ((exported claims filters states 0).image
        (eventKey (states 0).events)) := by
  have hlength : (newestFirst ((exported claims filters states 0).image
      (eventKey (states 0).events))).length ≤ exportMaxRows := by
    rw [newestFirst, List.length_reverse, Finset.length_sort]
    exact Finset.card_image_le.trans hmaximum
  rw [List.map_flatten, map_exportBlocks]
  exact Keyset.flatten_blocks (by decide) (Keyset.descending_newestFirst _)
    rfl hinserts.grown hlength (List.nil_append _).symm fun _ => rfl

theorem exportAuditEvents_eq_body
    {counted : AuditState}
    (hadmin : requireAdmin claims.toAccessClaims = .ok ())
    (hcounted :
      (queryAfter counted.events claims filters none).card ≤ exportMaxRows) :
    AuditLog.exportAuditEvents counted states claims filters =
      .ok (.body (AuditLog.jsonChunks
        ((exportBlocks claims filters states 0 0 none).map
          (List.map modelDump)))) := by
  have hcount : ¬exportMaxRows <
      min (queryAfter counted.events claims filters none).card
        (exportMaxRows + 1) :=
    Nat.not_lt.mpr ((Nat.min_le_left _ _).trans hcounted)
  rw [AuditLog.exportAuditEvents, hadmin]
  simp only [bind, Except.bind, if_neg hcount]
  rfl

end Export

/-- Every list, with any filters and any limit, and the export. -/
theorem pagination_exact
    {Key : Type} (env : Env Uuid Key) (claims : Claims Uuid) :
    (∀ (listing : Listing) (limit : ℕ) (databases : ℕ → Database)
        (selected : ℕ → Finset Uuid), 0 < limit →
      (∀ step,
        listing.selected env claims (databases step) = .ok (selected step)) →
      Inserts selected (fun step => listing.key (databases step)) →
      (∀ id ∈ selected 0, Dated (listing.key (databases 0) id)) →
      ∃ visited, Lists (listing.key (databases 0)) (selected 0) visited ∧
        ∀ others, Walk (listing.asks env claims limit databases) 0 none others ↔
          others = visited) ∧
    (∀ (filters : AuditFilters) (counted : AuditState)
        (states : ℕ → AuditState),
      requireAdmin claims.toAccessClaims = .ok () →
      (queryAfter counted.events claims filters none).card ≤ exportMaxRows →
      (exported claims filters states 0).card ≤ exportMaxRows →
      Inserts (exported claims filters states)
        (fun step => eventKey (states step).events) →
      ∃ (records : List AuditEventOut) (chunks : List (List UInt8))
        (text : Text),
        AuditLog.exportAuditEvents counted states claims filters =
          .ok (.body chunks) ∧
        Lists (eventKey (states 0).events) (exported claims filters states 0)
          (records.map AuditEventOut.id) ∧
        (∀ record ∈ records, ∃ read, record = AuditLog.toOut (states read)
          (record.id, (states read).events.row record.id)) ∧
        chunks.flatten = utf8Encode text ∧
        Denotes text (.array (records.map modelDump))) := by
  constructor
  · intro listing limit databases selected hlimit hselected hinserts hdated
    refine ⟨_, lists_newestFirst (listing.key_id (databases 0)) _, ?_⟩
    exact fun others => Listing.walk_iff hlimit hselected hinserts hdated
  · intro filters counted states hadmin hcounted hmaximum hinserts
    let blocks := exportBlocks claims filters states 0 0 none
    have hids : blocks.flatten.map AuditEventOut.id =
        (newestFirst ((exported claims filters states 0).image
          (eventKey (states 0).events))).map keyId := by
      rw [← flatten_exportBlocks hinserts hmaximum, List.map_map]
      rfl
    have hblocks : ∀ block ∈ blocks.map (List.map modelDump), block ≠ [] := by
      intro block hblock
      obtain ⟨records, hrecords, rfl⟩ := List.mem_map.mp hblock
      exact List.map_eq_nil_iff.not.mpr (block_ne_nil records hrecords)
    refine ⟨blocks.flatten, _, _, exportAuditEvents_eq_body hadmin hcounted, ?_,
      ?_, flatten_jsonChunks hblocks, ?_⟩
    · rw [hids]
      exact lists_newestFirst (fun _ => rfl) _
    · intro record hrecord
      obtain ⟨block, hblock, hmem⟩ := List.mem_flatten.mp hrecord
      exact record_eq_toOut block hblock record hmem
    · rw [List.map_flatten]
      exact JsonText.denotes_dumps _

/-! Two events of one moment, and a third one which is inserted after the first
page. -/

def sampleEvent (id : Uuid) : AuditEvent where
  tenantId := 0
  occurredAt := if id = 2 then ⟨7, by decide⟩ else ⟨5, by decide⟩
  actorUserId := none
  actorEmail := []
  actorRole := .owner
  action := "auth.login".toList
  resourceType := "user".toList
  resourceId := none
  resourceLabel := none
  outcome := .success
  ip := none
  userAgent := none
  requestId := none
  changes := none
  context := none

def sampleIds : ℕ → Finset Uuid
  | 0 => {0, 1}
  | _ + 1 => {0, 1, 2}

def sampleDatabase (step : ℕ) : Database where
  dashboard :=
    { groups := ⟨∅, fun _ => ⟨0, [], none⟩⟩
      receivers := ⟨∅, fun _ => ⟨0, 0, [], [], [], .info, none, 1000, 60,
        ⟨.active, none, none, ⟨none, none, none, none, none⟩, none, none, none,
          none⟩⟩⟩
      notifications := ⟨∅, fun _ => ⟨0, 0, .inline, none, [], 0, false, .info,
        .receiverDefault, none, none, none, .unread, false, none, none, none,
        none, 0⟩⟩
      deliveries := ⟨∅, fun _ => ⟨0, 0, 0, .dead, 1, 0, none, none, none,
        none⟩⟩
      memberships := ⟨∅, fun _ => ⟨0, 0, 0⟩⟩
      channelNames := ⟨∅, fun _ => []⟩
      emails := ⟨∅, fun _ => []⟩ }
  audit :=
    { events := ⟨sampleIds step, sampleEvent⟩
      location := fun _ _ => ⟨none, none, none, none⟩ }

def sampleEnv : Env Uuid Text where
  collate := id
  places := ⟨fun _ => 0, fun _ => 0⟩
  ilike _ _ := true
  encodeCursor := cursorText
  decodeCursor := decodeCursor
  library := ⟨fun _ => true, fun _ _ start => .ok start, fun _ => true, id⟩
  ingestUrl slug := slug

def sampleListing : Listing := .auditEvents none none none none none none none

def sampleFilters : AuditFilters :=
  ⟨none, none, none, none, none, none, none, none, false⟩

def sampleClaims : Claims Uuid := ⟨⟨0, .owner⟩, 0⟩

theorem sample_inserts :
    Inserts sampleIds fun step => eventKey ⟨sampleIds step, sampleEvent⟩ where
  subset step := by
    rcases step with _ | step
    · exact Finset.Subset.refl _
    · show sampleIds 0 ⊆ sampleIds 1
      decide
  unchanged _ _ _ := rfl
  newer step id hid hnot first hfirst := by
    have hmem := Keyset.mem_newestFirst.mp (List.mem_of_mem_head? hfirst)
    obtain ⟨old, hold, rfl⟩ := Finset.mem_image.mp hmem
    rcases step with _ | step
    · exact absurd hid hnot
    · simp only [sampleIds, Finset.mem_insert, Finset.mem_singleton]
        at hold hid hnot
      obtain rfl : id = 2 := by tauto
      apply Prod.Lex.toLex_lt_toLex.mpr
      left
      rcases hold with rfl | rfl
      · show (sampleEvent 0).occurredAt.val < (sampleEvent 2).occurredAt.val
        decide
      · show (sampleEvent 1).occurredAt.val < (sampleEvent 2).occurredAt.val
        decide

theorem sample_selected (step : ℕ) :
    exported sampleClaims sampleFilters (fun step => (sampleDatabase step).audit)
      step = sampleIds step := by
  apply Finset.filter_true_of_mem
  exact fun _ _ => rfl

theorem pagination_exact_inserted :
    (∃ visited, Lists (sampleListing.key (sampleDatabase 0)) {0, 1} visited ∧
      ∀ others, Walk (sampleListing.asks sampleEnv sampleClaims 1 sampleDatabase)
        0 none others ↔ others = visited) ∧
    ∃ (records : List AuditEventOut) (chunks : List (List UInt8))
      (text : Text),
      AuditLog.exportAuditEvents (sampleDatabase 0).audit
          (fun step => (sampleDatabase step).audit) sampleClaims sampleFilters =
        .ok (.body chunks) ∧
      Lists (eventKey (sampleDatabase 0).audit.events)
        (exported sampleClaims sampleFilters
          (fun step => (sampleDatabase step).audit) 0)
        (records.map AuditEventOut.id) ∧
      (∀ record ∈ records, ∃ read,
        record = AuditLog.toOut (sampleDatabase read).audit
          (record.id, (sampleDatabase read).audit.events.row record.id)) ∧
      chunks.flatten = utf8Encode text ∧
      Denotes text (.array (records.map modelDump)) := by
  obtain ⟨hlists, hexport⟩ := pagination_exact sampleEnv sampleClaims
  constructor
  · apply hlists sampleListing 1 sampleDatabase sampleIds (by decide)
    · intro step
      exact congrArg Except.ok (sample_selected step)
    · exact sample_inserts
    · exact fun id _ => (sampleEvent id).occurredAt.property
  · have hselected := funext sample_selected
    apply hexport sampleFilters (sampleDatabase 0).audit
      (fun step => (sampleDatabase step).audit) rfl
    · exact (congrArg Finset.card (sample_selected 0)).le.trans (by decide)
    · exact (congrArg Finset.card (sample_selected 0)).le.trans (by decide)
    · rw [hselected]
      exact sample_inserts

end NotifyHub.Paging
