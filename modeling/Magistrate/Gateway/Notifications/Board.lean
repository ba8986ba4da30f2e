import Magistrate.Core.Dict
import Magistrate.Core.Json
import Magistrate.Core.Run

/-!
# What is to be noticed

A reconcile compares what demands attention with the rows of its user: a row that
is not demanded any more is closed, one whose fingerprint is new is opened, and
what is open and not delivered is returned. Acknowledgements and delivery marks
name items and no fingerprints.
-/

namespace Magistrate

/-- `NOTIFICATION_MODES` -/
inductive NotificationMode where
  | restricted
  | moderate
  | full
  deriving DecidableEq, Repr

/-- A mode of `NOTIFICATION_MODES` by its name. -/
def NotificationMode.ofString? : String → Option NotificationMode
  | "restricted" => some .restricted
  | "moderate" => some .moderate
  | "full" => some .full
  | _ => none

/-- `ACCOUNT_ATTENTION_KINDS` -/
def accountAttentionKinds : List String :=
  ["budget", "credit", "repository_disconnected", "payment_issue"]

/-- `RESTRICTED_KINDS` -/
def restrictedKinds : List String :=
  ["captain_question", "blocker", "consequential_decision"] ++ accountAttentionKinds

/-- `MODERATE_KINDS` -/
def moderateKinds : List String :=
  restrictedKinds ++ ["pr_ready", "stall", "failure", "completion"]

/-- `FULL_KINDS` -/
def fullKinds : List String :=
  ["captain_question", "blocker", "stall", "failure", "completion", "consequential_decision"] ++
    accountAttentionKinds

/-- `INFORMATIONAL_KINDS` -/
def informationalKinds : List String := ["completion", "pr_ready"]

/-- What is read of an attention item. -/
structure NotificationItem where
  id : String
  requiresAction : Bool
  notificationKind : Option String
  consequential : Bool
  revision : Json
  title : Json
  subtitle : Json
  status : Json
  url : Json
  decisionNotification : Json

/-- What is not modelled of fingerprints: the digest of the text of a value. -/
structure NotificationRules where
  sha256 : Json → String

/-- `_fingerprint` -/
def NotificationRules.fingerprint (rules : NotificationRules) (item : NotificationItem) : String :=
  rules.sha256 (.obj
    [("decision_notification", item.decisionNotification),
      ("kind", item.notificationKind.elim .null .str), ("revision", item.revision),
      ("status", item.status), ("subtitle", item.subtitle), ("title", item.title),
      ("url", item.url)])

/-- `_mode_for_kind` -/
def modeForKind (mode : NotificationMode) (kind : Option String) (consequential : Bool) : Bool :=
  match mode with
  | .restricted => kind.any restrictedKinds.contains
  -- A pull request that can be reviewed is moderate, an explicit decision to merge it is not.
  | .full => kind.any fullKinds.contains || kind == some "pr_ready" && consequential
  | .moderate => kind.any moderateKinds.contains

/-- `_quiet` -/
def quietAt (localHour quietStart quietEnd : Option ℤ) : Bool :=
  match localHour, quietStart, quietEnd with
  | some hour, some start, some stop =>
    if start < stop then decide (start ≤ hour ∧ hour < stop)
      else decide (start ≤ hour ∨ hour < stop)
  | _, _, _ => false

/-- A row of `notification_state`. -/
structure NotificationRow where
  userId : String
  itemId : String
  fingerprint : String
  active : Bool
  delivered : Bool
  viewed : Bool
  updatedAt : ℕ
  deriving DecidableEq, Repr

/-- The primary key of `notification_state`. -/
def NotificationRow.key (row : NotificationRow) : String × String := (row.userId, row.itemId)

/-- A row is delivered. -/
def NotificationRow.deliver (row : NotificationRow) : NotificationRow :=
  { row with delivered := true }

/-- A row is viewed, and with that delivered. -/
def NotificationRow.view (row : NotificationRow) : NotificationRow :=
  { row with delivered := true, viewed := true }

/-- A row of `notification_preferences`. -/
structure PreferenceRow where
  userId : String
  enabled : Bool
  quietStart : Option ℤ
  quietEnd : Option ℤ
  mode : NotificationMode
  updatedAt : ℕ
  deriving DecidableEq, Repr

/-- The tables of the notifications. -/
structure NotificationBoard where
  rows : Table NotificationRow.key
  preferences : Table PreferenceRow.userId
  deriving DecidableEq

namespace NotificationBoard

/-- No user has a row yet. -/
def initial : NotificationBoard := ⟨.empty, .empty⟩

/-- `get_notification_preferences` -/
def preferencesOf (b : NotificationBoard) (userId : String) : PreferenceRow :=
  (b.preferences.find? userId).getD ⟨userId, true, none, none, .moderate, 0⟩

/-- `update_notification_preferences` -/
def updatePreferences (now : ℕ) (userId : String) (enabled : Bool) (quietStart quietEnd : Option ℤ)
    (mode : String) (b : NotificationBoard) : Except String NotificationBoard :=
  match NotificationMode.ofString? mode with
  | none => .error "mode must be restricted, moderate, or full"
  | some mode => do
    raiseIf (quietStart.isNone ≠ quietEnd.isNone)
      "quiet_start and quiet_end must both be set or both omitted"
    raiseIf (∃ hour ∈ quietStart.toList ++ quietEnd.toList, ¬(0 ≤ hour ∧ hour ≤ 23))
      "quiet hours must be between 0 and 23"
    return { b with preferences := b.preferences.put ⟨userId, enabled, quietStart,
      quietEnd, mode, now⟩ }

/-- The items that a mode admits and that demand attention; of one identifier the last. -/
def actionable (mode : NotificationMode) (items : List NotificationItem) :
    Table NotificationItem.id :=
  .ofList (items.filter fun item =>
    (item.requiresAction || item.notificationKind.any informationalKinds.contains) &&
      modeForKind mode item.notificationKind item.consequential)

/-- The row of an item, if it is open with the item's fingerprint. -/
def open? (rules : NotificationRules) (b : NotificationBoard) (userId : String)
    (item : NotificationItem) : Option NotificationRow :=
  (b.rows.find? (userId, item.id)).filter fun row =>
    row.fingerprint == rules.fingerprint item && row.active

/-- The row that an item opens. -/
def opened (rules : NotificationRules) (now : ℕ) (userId : String) (item : NotificationItem) :
    NotificationRow :=
  ⟨userId, item.id, rules.fingerprint item, true, false, false, now⟩

/-- `mark_notification_events_delivered` -/
def markDelivered (userId : String) (itemIds : List String) (b : NotificationBoard) :
    NotificationBoard :=
  { b with
    rows := b.rows.updateWhere
      (fun row => row.userId == userId && itemIds.contains row.itemId && row.active)
      .deliver }

/-- `acknowledge_notification_events` -/
def acknowledge (userId : String) (itemIds : List String) (b : NotificationBoard) :
    NotificationBoard :=
  { b with
    rows := b.rows.updateWhere
      (fun row => row.userId == userId && itemIds.contains row.itemId && row.active)
      .view }

/-- The mark of a receipt: the item is delivered if it is open with the fingerprint that was
sent. -/
def markReceipt (userId itemId fingerprint : String) (b : NotificationBoard) : NotificationBoard :=
  { b with
    rows := b.rows.updateWhere
      (fun row => row.userId == userId && row.itemId == itemId && row.fingerprint == fingerprint &&
        row.active)
      .deliver }

/-- The items that are pending: those that are not open, or open and not delivered. -/
def pending (rules : NotificationRules) (userId : String) (mode : NotificationMode)
    (items : List NotificationItem) (b : NotificationBoard) : List NotificationItem :=
  (actionable mode items).rows.filter fun item => !(b.open? rules userId item).any (·.delivered)

/-- The rows of a user that are not demanded any more are closed. -/
def closeOthers (now : ℕ) (userId : String) (demanded : Table NotificationItem.id)
    (rows : Table NotificationRow.key) : Table NotificationRow.key :=
  rows.updateWhere
    (fun row => row.userId == userId && row.active && (demanded.find? row.itemId).isNone)
    fun row => { row with active := false, delivered := true, viewed := true, updatedAt := now }

/-- The rows of a user are closed and opened. -/
def refresh (rules : NotificationRules) (now : ℕ) (userId : String) (mode : NotificationMode)
    (items : List NotificationItem) (b : NotificationBoard) : NotificationBoard :=
  let demanded := actionable mode items
  let changed := demanded.rows.filter fun item => (b.open? rules userId item).isNone
  { b with
    rows := (changed.map (opened rules now userId)).foldl .put
      (closeOthers now userId demanded b.rows) }

section Rows

variable {rules : NotificationRules} {b : NotificationBoard} {mode : NotificationMode}

/-- The item that is demanded under an identifier. -/
theorem mem_actionable {items : List NotificationItem} {item : NotificationItem} :
    item ∈ (actionable mode items).rows ↔ (actionable mode items).find? item.id = some item :=
  ⟨Table.find?_of_mem, fun h => (Table.mem_of_find? h).1⟩

/-- An open row is stored, active, and has the fingerprint of its item. -/
theorem open?_eq_some {userId : String} {item : NotificationItem} {row : NotificationRow} :
    b.open? rules userId item = some row ↔ b.rows.find? (userId, item.id) = some row ∧
      row.fingerprint = rules.fingerprint item ∧ row.active = true := by
  simp [open?, Option.filter_eq_some_iff]

theorem find?_markDelivered (userId : String) (itemIds : List String) (k : String × String) :
    (b.markDelivered userId itemIds).rows.find? k = (b.rows.find? k).map fun row =>
      if row.userId == userId && itemIds.contains row.itemId &&
        row.active then row.deliver else row :=
  @Table.find?_updateWhere _ _ NotificationRow.key _ NotificationRow.deliver
    (fun _ => rfl) b.rows _ k

theorem find?_acknowledge (userId : String) (itemIds : List String) (k : String × String) :
    (b.acknowledge userId itemIds).rows.find? k = (b.rows.find? k).map fun row =>
      if row.userId == userId && itemIds.contains row.itemId && row.active then row.view else row :=
  @Table.find?_updateWhere _ _ NotificationRow.key _ NotificationRow.view (fun _ => rfl) b.rows _ k

theorem find?_markReceipt (userId itemId fingerprint : String) (k : String × String) :
    (b.markReceipt userId itemId fingerprint).rows.find? k = (b.rows.find? k).map fun row =>
      if row.userId == userId && row.itemId == itemId &&
        row.fingerprint == fingerprint && row.active then
        row.deliver
      else row :=
  @Table.find?_updateWhere _ _ NotificationRow.key _ NotificationRow.deliver
    (fun _ => rfl) b.rows _ k

theorem find?_closeOthers (now : ℕ) (userId : String) (demanded : Table NotificationItem.id)
    (rows : Table NotificationRow.key) (k : String × String) :
    (closeOthers now userId demanded rows).find? k = (rows.find? k).map fun row =>
      if row.userId == userId && row.active && (demanded.find? row.itemId).isNone then
        { row with active := false, delivered := true, viewed := true, updatedAt := now }
      else row :=
  Table.find?_updateWhere ..

/-- The row of an item after the rows of a user were closed and opened. -/
theorem find?_refresh (now : ℕ) (userId : String) (items : List NotificationItem)
    (k : String × String) :
    (b.refresh rules now userId mode items).rows.find? k =
      match if k.1 = userId then (actionable mode items).find? k.2 else none with
      | some item => some ((b.open? rules userId item).getD (opened rules now userId item))
      | none => (b.rows.find? k).map fun row =>
        if row.userId = userId ∧ row.active = true then
          { row with active := false, delivered := true, viewed := true, updatedAt := now }
        else row := by
  obtain ⟨user, id⟩ := k
  have hopened : (fun item => decide ((opened rules now userId item).key = (user, id))) =
      fun item => decide (userId = user) && decide (item.id = id) := by
    funext item
    simp [opened, NotificationRow.key]
  simp only [refresh, Table.find?_foldl_put, ← List.map_reverse, List.find?_map, Function.comp_def,
    hopened, find?_closeOthers]
  by_cases huser : user = userId
  · subst huser
    simp only [decide_true, Bool.true_and, if_true, Table.find?_reverse_filter]
    cases hitem : (actionable mode items).find? id with
    | none =>
      simp only [Option.filter_none, Option.map_none, Option.none_or]
      refine Option.map_congr fun row hrow => ?_
      obtain rfl : row.itemId = id := congrArg Prod.snd (Table.mem_of_find? hrow).2
      simp [hitem]
    | some item =>
      obtain rfl : item.id = id := (Table.mem_of_find? hitem).2
      cases hopen : b.open? rules user item with
      | none => simp [hopen, Option.filter]
      | some row =>
        obtain ⟨hrow, -, hactive⟩ := open?_eq_some.mp hopen
        have hid : row.itemId = item.id := congrArg Prod.snd (Table.mem_of_find? hrow).2
        simp [hopen, Option.filter, hrow, hid, hitem]
  · simp only [Ne.symm huser, decide_false, Bool.false_and, huser, if_false]
    rw [List.find?_eq_none.mpr fun _ _ => by simp, Option.map_none, Option.none_or]
    refine Option.map_congr fun row hrow => ?_
    have hrowUser : row.userId ≠ userId := fun h =>
      huser ((congrArg Prod.fst (Table.mem_of_find? hrow).2).symm.trans h)
    simp [hrowUser]

end Rows

/-- What a reconcile returns. -/
structure Reconciled where
  events : List NotificationItem
  enabled : Bool
  mode : NotificationMode
  quiet : Bool
  suppressedForeground : Bool

/-- `reconcile_notification_events` -/
def reconcile (rules : NotificationRules) (now : ℕ) (userId : String)
    (items : List NotificationItem)
    (foreground : Bool) (localHour : Option ℤ) (b : NotificationBoard) :
    Reconciled × NotificationBoard :=
  let preferences := b.preferencesOf userId
  let pending := b.pending rules userId preferences.mode items
  let quiet := quietAt localHour preferences.quietStart preferences.quietEnd
  let refreshed := b.refresh rules now userId preferences.mode items
  ({ events :=
        if preferences.enabled = true ∧ quiet = false ∧ foreground = false then pending else []
     enabled := preferences.enabled
     mode := preferences.mode
     quiet := quiet
     suppressedForeground := foreground },
    if foreground = true then refreshed.markDelivered userId (pending.map (·.id)) else refreshed)

end NotificationBoard

end Magistrate
