import Magistrate.Frontend.Activity.Merging
import Magistrate.Frontend.Activity.Wire

/-!
# Pages on the wire

The gateway encodes pages of changes and snapshots; the client reads their rows and
numbers back when it takes each of them, and goes on with the rows.
-/

namespace Magistrate

open Frontend

/-- A summary as the gateway encodes it. -/
def ActivitySummary.json (s : ActivitySummary) : Json :=
  .obj [("active_objectives", .int s.activeObjectives), ("operation_count", .int s.operationCount),
    ("pending_decisions", .int s.pendingDecisions)]

/-- A summary as the client holds it. -/
def ActivitySummary.wire (s : ActivitySummary) : CanonicalActivitySummary :=
  ⟨s.activeObjectives, s.operationCount, s.pendingDecisions⟩

/-- The client takes the numbers of a summary. -/
def ActivitySummary.readable (s : ActivitySummary) : Bool :=
  safeInteger s.activeObjectives && safeInteger s.operationCount && safeInteger s.pendingDecisions

/-- The client takes a record by itself. -/
def DeliveredActivity.readable (d : DeliveredActivity) : Bool := d.wellFormed && d.clean

namespace ActivityPage

/-- A page of changes as the gateway encodes it. -/
def json (page : ActivityPage) : Json :=
  .obj [("schema_version", .str activitySchema),
    ("records", .arr (page.records.map DeliveredActivity.json)),
    ("next_cursor", .int page.nextCursor), ("latest_cursor", .int page.latestCursor),
    ("has_more", .bool page.hasMore), ("summary", page.summary.json)]

/-- The rows of a page as the client holds them. -/
def rows (page : ActivityPage) : List CanonicalActivityRecord :=
  page.records.map DeliveredActivity.record

/-- The client takes each record and number of a page. -/
def readable (page : ActivityPage) : Bool :=
  page.records.all DeliveredActivity.readable && safeInteger page.nextCursor &&
    safeInteger page.latestCursor && page.summary.readable

end ActivityPage

namespace ActivityProjection

/-- A snapshot as the gateway encodes it. -/
def json (projection : ActivityProjection) : Json :=
  .obj [("schema_version", .str activitySchema),
    ("records", .arr (projection.records.map DeliveredActivity.json)),
    ("focus_records", .arr (projection.focusRecords.map DeliveredActivity.json)),
    ("focus_truncated", .bool projection.focusTruncated),
    ("snapshot_cursor", .int projection.snapshotCursor),
    ("latest_sequence", .int projection.latestSequence),
    ("next_before", .nullableInt projection.nextBefore), ("has_more", .bool projection.hasMore),
    ("summary", projection.summary.json)]

/-- The rows of the page of a snapshot as the client holds them. -/
def rows (projection : ActivityProjection) : List CanonicalActivityRecord :=
  projection.records.map DeliveredActivity.record

/-- The rows of a snapshot in focus as the client holds them. -/
def focusRows (projection : ActivityProjection) : List CanonicalActivityRecord :=
  projection.focusRecords.map DeliveredActivity.record

/-- All rows of a snapshot as the client holds them. -/
def delivered (projection : ActivityProjection) : List CanonicalActivityRecord :=
  projection.rows ++ projection.focusRows

/-- The client takes each record and number of a snapshot. -/
def readable (projection : ActivityProjection) : Bool :=
  (projection.records ++ projection.focusRecords).all DeliveredActivity.readable &&
    safeInteger projection.snapshotCursor && safeInteger projection.latestSequence &&
    projection.summary.readable

end ActivityProjection

section Reading

theorem safeIntegerFrom_zero (n : ℕ) : safeIntegerFrom 0 (.int n) =
    if safeInteger n then some (n : ℤ) else none := by
  rw [safeIntegerFrom_int, decide_eq_true (Int.natCast_nonneg n), Bool.and_true]

theorem wireSummary?_json (s : ActivitySummary) :
    wireSummary? s.json = if s.readable then some s.wire else none := by
  have hactive : s.json.get "active_objectives" = .int s.activeObjectives := rfl
  have hcount : s.json.get "operation_count" = .int s.operationCount := rfl
  have hpending : s.json.get "pending_decisions" = .int s.pendingDecisions := rfl
  simp only [wireSummary?, hactive, hcount, hpending, safeIntegerFrom_zero, Option.bind_eq_bind,
    ite_bind, ite_ite_none, Option.pure_def, ActivitySummary.readable, Bool.and_eq_true, and_assoc]
  rfl

theorem optionalSummary?_json (s : ActivitySummary) :
    optionalSummary? s.json = if s.readable then some (some s.wire) else none := by
  have hread : optionalSummary? s.json = (wireSummary? s.json).map some := rfl
  rw [hread, wireSummary?_json]
  split <;> rfl

theorem mapM_records (records : List DeliveredActivity) :
    (records.map DeliveredActivity.json).mapM normalizeCanonicalActivityRecord =
      if records.all DeliveredActivity.readable then some (records.map DeliveredActivity.record)
      else none :=
  mapM_read normalizeCanonicalActivityRecord_json records

/-- The client reads a page when it takes its records and numbers, and goes on with its rows. -/
theorem ingestPage_json (page : ActivityPage) (store : CanonicalActivity) :
    store.ingestPage page.json =
      if (page.records.length ≤ maxPageRecords ∧ page.nextCursor ≤ page.latestCursor) ∧
          page.readable = true then
        store.takePage page.rows page.nextCursor page.latestCursor (some page.summary.wire)
      else none := by
  have hschema : (page.json.get "schema_version").str? = some activitySchema := rfl
  have hrecords : (page.json.get "records").arr? =
    some (page.records.map DeliveredActivity.json) := rfl
  have hmore : (page.json.get "has_more").bool? = some page.hasMore := rfl
  have hnext : page.json.get "next_cursor" = .int page.nextCursor := rfl
  have hlast : page.json.get "latest_cursor" = .int page.latestCursor := rfl
  have hsummary : page.json.get "summary" = page.summary.json := rfl
  simp only [CanonicalActivity.ingestPage, hschema, hrecords, hmore, hnext, hlast, hsummary,
    safeIntegerFrom_zero, optionalSummary?_json, mapM_records, Option.filter_some, List.length_map,
    Option.bind_eq_bind, Option.bind_some, guard_bind, ite_bind, ite_ite_none, if_true]
  refine if_congr ?_ rfl rfl
  simp only [ActivityPage.readable, Bool.and_eq_true, decide_eq_true_eq, Int.ofNat_le]
  tauto

theorem optionalCursor?_nullableInt (n : Option ℕ) : optionalCursor? (.nullableInt n) =
    if n.all safePositive then some (n.map (Nat.cast : ℕ → ℤ)) else none := by
  cases n with
  | none => rfl
  | some m =>
    have hread : optionalCursor? (.nullableInt (some m)) = (safeIntegerFrom 1 (.int m)).map some :=
      rfl
    rw [hread, safeIntegerFrom_int, Option.all_some, safePositive]
    split <;> rfl

/-- The client reads a snapshot when it takes its records and numbers, and goes on with its rows. -/
theorem ingestSnapshot_json (projection : ActivityProjection) (requireCompletePage : Bool)
    (store : CanonicalActivity) : store.ingestSnapshot projection.json requireCompletePage =
      if ((projection.records.length ≤ maxPageRecords ∧
            projection.focusRecords.length ≤ maxFocusRecords) ∧
          (projection.nextBefore.all safePositive = true ∧
            (projection.hasMore = true → projection.nextBefore.isSome = true)) ∧
          projection.focusTruncated = false) ∧ projection.readable = true then
        (store.takeSnapshot projection.rows projection.focusRows projection.snapshotCursor
          projection.summary.wire requireCompletePage).map fun taken =>
            (store.pageAfter projection.rows taken.1 projection.snapshotCursor
              (projection.nextBefore.map (Nat.cast : ℕ → ℤ)) projection.hasMore, taken.2)
      else none := by
  have hschema : (projection.json.get "schema_version").str? = some activitySchema := rfl
  have hrecords : (projection.json.get "records").arr? =
    some (projection.records.map DeliveredActivity.json) := rfl
  have hfocusRecords : (projection.json.get "focus_records").arr? =
    some (projection.focusRecords.map DeliveredActivity.json) := rfl
  have htrunc : (projection.json.get "focus_truncated").bool? =
    some projection.focusTruncated := rfl
  have hcursor : projection.json.get "snapshot_cursor" = .int projection.snapshotCursor := rfl
  have hlatest : projection.json.get "latest_sequence" = .int projection.latestSequence := rfl
  have hnext : projection.json.get "next_before" = .nullableInt projection.nextBefore := rfl
  have hhasMore : (projection.json.get "has_more").bool? = some projection.hasMore := rfl
  have hsummary : projection.json.get "summary" = projection.summary.json := rfl
  simp only [CanonicalActivity.ingestSnapshot, hschema, hrecords, hfocusRecords, htrunc, hcursor,
    hlatest, hnext, hhasMore, hsummary, safeIntegerFrom_zero, wireSummary?_json, mapM_records,
    optionalCursor?_nullableInt, Option.filter_some, List.length_map, Option.bind_eq_bind,
    Option.bind_some, guard_bind, ite_bind, ite_ite_none, if_true]
  refine if_congr ?_ Option.map_eq_bind.symm rfl
  simp only [ActivityProjection.readable, Bool.and_eq_true, decide_eq_true_eq, List.all_append,
    Option.isSome_map, Option.some.injEq]
  tauto

end Reading

end Magistrate
