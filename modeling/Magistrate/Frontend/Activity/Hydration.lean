import Magistrate.Frontend.Activity.Cache
import Magistrate.Frontend.Activity.Pages

/-!
# Activity restored from the cache

Whatever the client is given, it holds readable records of distinct sequences that it
was delivered, and few that are not in focus. So its payload is restored to the same
activity exactly when its records in focus fit by themselves.
-/

namespace Magistrate.Frontend

open CanonicalActivityRecord

/-- The client takes the numbers of the summary. -/
def CanonicalActivitySummary.readable (s : CanonicalActivitySummary) : Bool :=
  safeFrom 0 s.activeObjectives && safeFrom 0 s.operationCount && safeFrom 0 s.pendingDecisions

section Reading

theorem wireSummary?_toWire (s : CanonicalActivitySummary) :
    wireSummary? s.toWire = if s.readable then some s else none := by
  have hactive : s.toWire.get "active_objectives" = .int s.activeObjectives := rfl
  have hcount : s.toWire.get "operation_count" = .int s.operationCount := rfl
  have hpending : s.toWire.get "pending_decisions" = .int s.pendingDecisions := rfl
  simp only [wireSummary?, hactive, hcount, hpending, safeIntegerFrom_int, Option.bind_eq_bind,
    ite_bind, ite_ite_none, Option.pure_def, CanonicalActivitySummary.readable, safeFrom,
    Bool.and_eq_true, and_assoc]

theorem readable_of_wireSummary {raw : Json} {s : CanonicalActivitySummary}
    (h : wireSummary? raw = some s) : s.readable = true := by
  simp only [wireSummary?, Option.bind_eq_bind, Option.bind_eq_some_iff, Option.pure_def,
    Option.some.injEq] at h
  obtain ⟨active, hactive, count, hcount, pending, hpending, rfl⟩ := h
  simp only [CanonicalActivitySummary.readable, Bool.and_eq_true]
  exact ⟨⟨safeFrom_of_read hactive, safeFrom_of_read hcount⟩, safeFrom_of_read hpending⟩

theorem safeFrom_max {m n : ℤ} (hm : safeFrom 0 m = true) (hn : safeFrom 0 n = true) :
    safeFrom 0 (max m n) = true := by
  rcases max_choice m n with h | h <;> rwa [h]

/-- A record stays readable under the delivery number of another one. -/
theorem CanonicalActivityRecord.readable_withDelivery {r s : CanonicalActivityRecord}
    (hr : r.readable = true) (hs : s.readable = true) :
    (r.withDelivery s.deliverySequence).readable = true := by
  obtain ⟨⟨hid, hsequence, -, hrevision⟩, hrest⟩ := CanonicalActivityRecord.readable_iff.mp hr
  obtain ⟨⟨-, -, hdelivery, -⟩, -⟩ := CanonicalActivityRecord.readable_iff.mp hs
  exact CanonicalActivityRecord.readable_iff.mpr ⟨⟨hid, hsequence, hdelivery, hrevision⟩, hrest⟩

end Reading

/-- A record that is readable and was delivered up to a number. -/
def DeliveredBy (cursor : ℤ) (r : CanonicalActivityRecord) : Prop :=
  r.readable = true ∧ r.deliverySequence ≤ cursor

namespace DeliveredBy

variable {cursor : ℤ} {r s : CanonicalActivityRecord}

theorem mono {later : ℤ} (h : DeliveredBy cursor r) (hle : cursor ≤ later) : DeliveredBy later r :=
  ⟨h.1, h.2.trans hle⟩

theorem withDelivery (hr : DeliveredBy cursor r) (hs : DeliveredBy cursor s) :
    DeliveredBy cursor (r.withDelivery s.deliverySequence) :=
  ⟨readable_withDelivery hr.1 hs.1, hs.2⟩

end DeliveredBy

section Merging

variable {cursor snapshotCursor : ℤ} {baseline : Bool} {t t' : Table CanonicalActivityRecord.id}
  {a : CanonicalActivityRecord}

theorem Held.mergeSeen (ht : Held (DeliveredBy cursor) t) (ha : DeliveredBy cursor a)
    (h : mergeSeen baseline t a = some t') : Held (DeliveredBy cursor) t' := by
  unfold Frontend.mergeSeen at h
  cases hp : t.find? a.id with
  | none =>
    simp only [hp] at h
    split_ifs at h
    exact Option.some.inj h ▸ ht
  | some previous =>
    simp only [hp] at h
    split_ifs at h
    · exact Option.some.inj h ▸ ht
    · exact Option.some.inj h ▸ ht.put (ha.withDelivery (ht.find? hp))
    · exact Option.some.inj h ▸ ht

theorem Held.mergeUnseen (ht : Held (DeliveredBy cursor) t) (ha : DeliveredBy cursor a)
    (h : mergeUnseen t a = some t') : Held (DeliveredBy cursor) t' := by
  unfold Frontend.mergeUnseen at h
  cases hp : t.find? a.id with
  | none =>
    simp only [hp] at h
    exact Option.some.inj h ▸ ht.put ha
  | some previous =>
    simp only [hp] at h
    split_ifs at h
    exact Option.some.inj h ▸ ht.put ha

theorem Held.mergeSnapshot (ht : Held (DeliveredBy cursor) t) (ha : DeliveredBy cursor a)
    (h : mergeSnapshot snapshotCursor t a = some t') : Held (DeliveredBy cursor) t' := by
  unfold Frontend.mergeSnapshot at h
  split_ifs at h
  cases hp : t.find? a.id with
  | none =>
    simp only [hp] at h
    exact Option.some.inj h ▸ ht.put ha
  | some previous =>
    have hprevious := ht.find? hp
    simp only [hp] at h
    split_ifs at h
    · exact Option.some.inj h ▸ ht
    · have hlater : DeliveredBy cursor
          (previous.withDelivery (max previous.deliverySequence a.deliverySequence)) := by
        rcases max_choice previous.deliverySequence a.deliverySequence with hmax | hmax
        · rw [hmax]
          exact hprevious.withDelivery hprevious
        · rw [hmax]
          exact hprevious.withDelivery ha
      exact Option.some.inj h ▸ ht.put hlater
    · exact Option.some.inj h ▸ ht.put ha

/-- The last row of a page has the greatest delivery number. -/
theorem le_of_contiguous {rows : List CanonicalActivityRecord} {last : ℤ}
    (h : contiguous rows = true) (hlast : rows.getLast?.all (·.deliverySequence = last) = true) :
    ∀ r ∈ rows, r.deliverySequence ≤ last := by
  induction rows with
  | nil => simp
  | cons first rows ih =>
    cases rows with
    | nil => simpa using (by simpa using hlast : first.deliverySequence = last).le
    | cons second rows =>
      rw [contiguous, Bool.and_eq_true, decide_eq_true_eq] at h
      rw [List.getLast?_cons_cons] at hlast
      have hrest := ih h.2 hlast
      have hsecond := hrest second List.mem_cons_self
      exact List.forall_mem_cons.mpr ⟨by omega, hrest⟩

end Merging

/-- What the client can store and restore: readable records of distinct sequences that it was
delivered, few of them not in focus, and numbers that it takes. -/
structure Cacheable (activity : CanonicalActivity) : Prop where
  held : Held (DeliveredBy activity.deliveryCursor) activity.records
  sequences : (activity.records.rows.map (·.sequence)).Nodup
  history : (historyOf activity.records.rows).length ≤ maxRecentActivityRecords
  cursor : safeFrom 0 activity.deliveryCursor = true
  summaryCursor : safeFrom 0 activity.summaryCursor = true
  summary : activity.summary.readable = true

namespace Cacheable

variable {activity activity' : CanonicalActivity}

/-- What is retained of staged rows is cacheable with numbers that the client takes. -/
theorem of_retained {staged : Table CanonicalActivityRecord.id}
    {retained : List CanonicalActivityRecord} (hretained : retainedRecords staged = some retained)
    (hrecords : activity.records = Table.ofList retained)
    (hheld : Held (DeliveredBy activity.deliveryCursor) staged)
    (hsequences : (staged.rows.map (·.sequence)).Nodup)
    (hcursor : safeFrom 0 activity.deliveryCursor = true)
    (hsummaryCursor : safeFrom 0 activity.summaryCursor = true)
    (hsummary : activity.summary.readable = true) : Cacheable activity where
  held := hrecords ▸ hheld.of_retained hretained
  sequences := by
    rw [hrecords, rows_ofList_retained hretained]
    exact nodup_retained hretained hsequences
  history := by
    rw [hrecords, rows_ofList_retained hretained]
    exact length_historyOf_retained hretained
  cursor := hcursor
  summaryCursor := hsummaryCursor
  summary := hsummary

theorem initial : Cacheable .initial where
  held := by simp [Held, CanonicalActivity.initial]
  sequences := List.nodup_nil
  history := Nat.zero_le _
  cursor := rfl
  summaryCursor := rfl
  summary := rfl

theorem takePage (h : Cacheable activity) {delivered : List CanonicalActivityRecord}
    {nextCursor latestCursor : ℤ} {summary : Option CanonicalActivitySummary}
    (hdelivered : ∀ r ∈ delivered, r.readable = true) (hnext : safeFrom 0 nextCursor = true)
    (hlatest : safeFrom 0 latestCursor = true) (hsummary : ∀ s ∈ summary, s.readable = true)
    (htake : activity.takePage delivered nextCursor latestCursor summary = some activity') :
    Cacheable activity' := by
  simp only [CanonicalActivity.takePage, replaceRecords, Option.bind_eq_bind,
    Option.bind_eq_some_iff, Option.guard_eq_some', Option.map_eq_some_iff, Option.pure_def,
    Option.some.injEq, exists_const] at htake
  obtain ⟨hcontiguous, hlast, -, -, seen, hseen, staged, hunseen, hsequences, _,
    ⟨retained, hretained, rfl⟩, rfl⟩ := htake
  have hrows : ∀ r ∈ delivered,
      DeliveredBy (max activity.deliveryCursor nextCursor) r := fun r hr =>
    ⟨hdelivered r hr, (le_of_contiguous hcontiguous hlast r hr).trans (le_max_right _ _)⟩
  have hheld : Held (DeliveredBy (max activity.deliveryCursor nextCursor)) activity.records :=
    fun r hr => (h.held r hr).mono (le_max_left _ _)
  have hheldSeen := foldlM_keeps (fun _ r hr _ ht hmerge =>
    Held.mergeSeen ht (hrows r (List.mem_of_mem_filter hr)) hmerge) hheld hseen
  have hheldStaged := foldlM_keeps (fun _ r hr _ ht hmerge =>
    Held.mergeUnseen ht (hrows r (List.mem_of_mem_filter hr)) hmerge) hheldSeen hunseen
  refine of_retained hretained rfl hheldStaged hsequences (safeFrom_max h.cursor hnext) ?_ ?_
  · dsimp only [CanonicalActivity.afterPage]
    split
    · exact hlatest
    · exact h.summaryCursor
  · dsimp only [CanonicalActivity.afterPage]
    split
    · cases summary with
      | none => exact h.summary
      | some s => exact hsummary s rfl
    · exact h.summary

theorem takeSnapshot (h : Cacheable activity)
    {pageRecords focusRecords retained : List CanonicalActivityRecord} {snapshotCursor : ℤ}
    {summary : CanonicalActivitySummary} {requireCompletePage : Bool}
    (hdelivered : ∀ r ∈ pageRecords ++ focusRecords, r.readable = true)
    (hcursor : safeFrom 0 snapshotCursor = true) (hsummary : summary.readable = true)
    (htake : activity.takeSnapshot pageRecords focusRecords snapshotCursor summary
      requireCompletePage = some (retained, activity')) : Cacheable activity' := by
  simp only [CanonicalActivity.takeSnapshot, Option.bind_eq_bind, Option.bind_eq_some_iff,
    Option.guard_eq_some', Option.pure_def, Option.some.injEq, exists_const, Prod.mk.injEq] at htake
  obtain ⟨-, staged, hstaged, hsequences, _, hretained, -, rfl, rfl⟩ := htake
  have hrows : ∀ r ∈ pageRecords ++ focusRecords, r.deliverySequence ≤ snapshotCursor →
      DeliveredBy (max activity.deliveryCursor snapshotCursor) r := fun r hr hle =>
    ⟨hdelivered r hr, hle.trans (le_max_right _ _)⟩
  have hheld : Held (DeliveredBy (max activity.deliveryCursor snapshotCursor))
      (activity.pruned snapshotCursor (pageRecords ++ focusRecords)) := by
    unfold CanonicalActivity.pruned
    split
    · exact fun r hr => (h.held r (List.mem_of_mem_filter hr)).mono (le_max_left _ _)
    · exact fun r hr => (h.held r hr).mono (le_max_left _ _)
  have hheldStaged := foldlM_keeps (fun t r hr t' ht hmerge => by
    have hle : r.deliverySequence ≤ snapshotCursor := by
      unfold mergeSnapshot at hmerge
      split_ifs at hmerge with hlt
      exact not_lt.mp hlt
    exact Held.mergeSnapshot ht (hrows r hr hle) hmerge) hheld hstaged
  refine of_retained hretained rfl hheldStaged hsequences (safeFrom_max h.cursor hcursor) ?_ ?_
  · dsimp only [CanonicalActivity.afterSnapshot]
    split
    · exact hcursor
    · exact h.summaryCursor
  · dsimp only [CanonicalActivity.afterSnapshot]
    split
    · exact hsummary
    · exact h.summary

theorem ingestPage (h : Cacheable activity) {raw : Json}
    (hingest : activity.ingestPage raw = some activity') : Cacheable activity' := by
  simp only [CanonicalActivity.ingestPage, Option.bind_eq_bind, Option.bind_eq_some_iff] at hingest
  obtain ⟨-, -, rows, -, -, -, nextCursor, hnext, latestCursor, hlatest, -, -, summary, hsummary,
    delivered, hdelivered, htake⟩ := hingest
  refine h.takePage (mapM_forall (fun _ _ => readable_of_normalize) hdelivered).2
    (safeFrom_of_read hnext) (safeFrom_of_read hlatest) (fun s hs => ?_) htake
  unfold optionalSummary? at hsummary
  split at hsummary
  · cases Option.some.inj hsummary
    cases hs
  · obtain ⟨s', hs', rfl⟩ := Option.map_eq_some_iff.mp hsummary
    exact Option.some.inj hs ▸ readable_of_wireSummary hs'

theorem ingestSnapshot (h : Cacheable activity) {raw : Json} {requireCompletePage : Bool}
    {page : CanonicalActivitySnapshotPage}
    (hingest : activity.ingestSnapshot raw requireCompletePage = some (page, activity')) :
    Cacheable activity' := by
  simp only [CanonicalActivity.ingestSnapshot, Option.bind_eq_bind, Option.bind_eq_some_iff,
    Option.pure_def, Option.some.injEq, Prod.mk.injEq] at hingest
  obtain ⟨-, -, rows, -, focusRows, -, -, -, snapshotCursor, hcursor, -, -, -, -, -, -, -, -,
    summary, hsummary, pageRecords, hpage, focusRecords, hfocus, ⟨retained, _⟩, htake, -, rfl⟩ :=
    hingest
  refine h.takeSnapshot (fun r hr => ?_) (safeFrom_of_read hcursor)
    (readable_of_wireSummary hsummary) htake
  rcases List.mem_append.mp hr with hr | hr
  · exact (mapM_forall (fun _ _ => readable_of_normalize) hpage).2 r hr
  · exact (mapM_forall (fun _ _ => readable_of_normalize) hfocus).2 r hr

/-- What is restored from any payload can be stored again. -/
theorem restore {owner : String} {payload : Json}
    (hrestore : CanonicalActivity.restore owner payload = some activity') :
    Cacheable activity' := by
  simp only [CanonicalActivity.restore, replaceRecords, Option.bind_eq_bind,
    Option.bind_eq_some_iff, Option.guard_eq_some', Option.map_eq_some_iff, Option.pure_def,
    Option.some.injEq, exists_const] at hrestore
  obtain ⟨-, -, cursor, hcursor, summaryCursor, hsummaryCursor, authoritative, -, rows, -, summary,
    hsummary, normalized, hnormalized, hdelivered, hids, hsequences, _,
    ⟨retained, hretained, rfl⟩, rfl⟩ := hrestore
  have hrows := Table.rows_ofList hids
  refine of_retained hretained rfl (fun r hr => ?_) (by rwa [hrows])
    (safeFrom_of_read hcursor) (safeFrom_of_read hsummaryCursor) (readable_of_wireSummary hsummary)
  rw [hrows] at hr
  exact ⟨(mapM_forall (fun _ _ => readable_of_normalize) hnormalized).2 r hr, hdelivered r hr⟩

end Cacheable

section Runs

/-- What is held of the client can be cached, and its principal is one that it takes. -/
structure ActivityClient.Sound (client : ActivityClient) : Prop where
  cacheable : Cacheable client.activity
  principal : ∀ owner ∈ client.principalId, bounded owner 128 = true

variable {client : ActivityClient}

theorem ActivityClient.Sound.initial : ActivityClient.initial.Sound :=
  ⟨.initial, by simp [ActivityClient.initial]⟩

theorem ActivityClient.Sound.ingest (h : client.Sound)
    {take : CanonicalActivity → Option CanonicalActivity}
    (htake : ∀ activity activity', Cacheable activity → take activity = some activity' →
      Cacheable activity') : (client.ingest take).Sound := by
  unfold ActivityClient.ingest
  split
  · refine ⟨?_, h.principal⟩
    cases htaken : take client.activity with
    | none => exact h.cacheable
    | some activity' => exact htake _ _ h.cacheable htaken
  · exact h

theorem ActivityClient.Sound.mark (h : client.Sound) (state : CanonicalActivityRecoveryState) :
    (client.mark state).Sound := by
  unfold ActivityClient.mark
  split
  · exact h
  · exact ⟨h.cacheable, h.principal⟩

/-- A call keeps what is held cacheable. -/
theorem ActivityClient.Sound.step (h : client.Sound) (step : ActivityClientStep) :
    (activityClientStep client step).Sound := by
  cases step with
  | setPrincipal principal =>
    dsimp only [activityClientStep, ActivityClient.setPrincipal]
    split
    · exact h
    · exact ⟨.initial, fun owner howner => (Option.filter_eq_some_iff.mp howner).2⟩
  | hydrate owner stored =>
    dsimp only [activityClientStep, ActivityClient.hydrate]
    split
    · cases hrestored : stored.bind (CanonicalActivity.restore owner) with
      | none => exact ⟨h.cacheable, h.principal⟩
      | some activity =>
        obtain ⟨payload, -, hrestore⟩ := Option.bind_eq_some_iff.mp hrestored
        exact ⟨.restore hrestore, h.principal⟩
    · exact h
  | ingestPage raw => exact h.ingest fun _ _ hcacheable => hcacheable.ingestPage
  | ingestSnapshot raw requireCompletePage =>
    have htake : ∀ activity activity', Cacheable activity →
        (activity.ingestSnapshot raw requireCompletePage).map Prod.snd = some activity' →
        Cacheable activity' := by
      intro activity activity' hcacheable htaken
      obtain ⟨⟨page, _⟩, hingest, rfl⟩ := Option.map_eq_some_iff.mp htaken
      exact hcacheable.ingestSnapshot hingest
    exact h.ingest htake
  | markRecovering => exact h.mark _
  | markFresh => exact h.mark _
  | markInterrupted => exact h.mark _

theorem ActivityClient.Sound.run (steps : List ActivityClientStep) :
    (run activityClientStep .initial steps).Sound :=
  run_invariant' (I := ActivityClient.Sound) (fun _ step h => h.step step) steps .initial

end Runs

/-- The client of a principal that was just set takes what is stored for it, holds the same
activity and would store the same payload. -/
structure RoundTrips (owner : String) (activity : CanonicalActivity)
    (hydrated : Bool × ActivityClient) : Prop where
  accepted : hydrated.1 = true
  records : sortedRecords hydrated.2.activity.records.rows = sortedRecords activity.records.rows
  cursor : hydrated.2.activity.deliveryCursor = activity.deliveryCursor
  summary : hydrated.2.activity.summary = activity.summary
  again : hydrated.2.activity.payload owner = activity.payload owner

section RoundTrip

variable {activity : CanonicalActivity} {owner : String}

/-- What is restored: the records in the order of their sequences. -/
def CanonicalActivity.restored (activity : CanonicalActivity) : CanonicalActivity :=
  { activity with
    records := Table.ofList (sortedRecords activity.records.rows)
    snapshotBaseline := true }

theorem Cacheable.rows_restored (activity : CanonicalActivity) :
    activity.restored.records.rows = sortedRecords activity.records.rows :=
  Table.rows_ofList
    (((perm_sortedRecords _).map _).nodup_iff.mpr activity.records.unique)

theorem sortedRecords_sortedRecords (rows : List CanonicalActivityRecord) :
    sortedRecords (sortedRecords rows) = sortedRecords rows :=
  (List.pairwise_insertionSort _ rows).insertionSort_eq

/-- A payload is restored when the records in focus fit by themselves. -/
theorem Cacheable.restore_payload (h : Cacheable activity) :
    CanonicalActivity.restore owner (activity.payload owner) =
      if (focusOf activity.records.rows).length ≤ maxFocusRecords then some activity.restored
      else none := by
  have hschema : ((activity.payload owner).get "schema_version").str? = some cacheSchema := rfl
  have hprincipal : ((activity.payload owner).get "principal").str? = some owner := rfl
  have hcursor : (activity.payload owner).get "cursor" = .int activity.deliveryCursor := rfl
  have hsummaryCursor : (activity.payload owner).get "summary_cursor" =
    .int activity.summaryCursor := rfl
  have hauthoritative : ((activity.payload owner).get "summary_authoritative").bool? =
    some activity.summaryAuthoritative := rfl
  have hsummary : (activity.payload owner).get "summary" = activity.summary.toWire := rfl
  have hrecords : ((activity.payload owner).get "records").arr? =
    some ((sortedRecords activity.records.rows).map toWireRecord) := rfl
  have hperm := perm_sortedRecords activity.records.rows
  have hreadable : (sortedRecords activity.records.rows).all CanonicalActivityRecord.readable := by
    rw [List.all_eq_true]
    exact fun r hr => (h.held r (hperm.subset hr)).1
  have hmap : ((sortedRecords activity.records.rows).map toWireRecord).mapM
      normalizeCanonicalActivityRecord = some (sortedRecords activity.records.rows) := by
    rw [mapM_read normalize_toWireRecord, if_pos hreadable, List.map_id']
  have hdelivered : ∀ r ∈ sortedRecords activity.records.rows,
      r.deliverySequence ≤ activity.deliveryCursor := fun r hr => (h.held r (hperm.subset hr)).2
  have hids : ((sortedRecords activity.records.rows).map (·.id)).Nodup :=
    ((hperm.map _).nodup_iff).mpr activity.records.unique
  have hsequences : ((sortedRecords activity.records.rows).map (·.sequence)).Nodup :=
    ((hperm.map _).nodup_iff).mpr h.sequences
  have hfocus : focusOf (sortedRecords activity.records.rows) = focusOf activity.records.rows := by
    rw [focusOf, focusOf, sortedRecords_sortedRecords]
  have hhistory : historyOf (sortedRecords activity.records.rows) =
      historyOf activity.records.rows := by
    rw [historyOf, historyOf, sortedRecords_sortedRecords]
  have hsummaryRead : wireSummary? activity.summary.toWire = some activity.summary := by
    rw [wireSummary?_toWire, if_pos h.summary]
  have hrows : (Table.ofList (sortedRecords activity.records.rows) :
      Table CanonicalActivityRecord.id).rows = sortedRecords activity.records.rows :=
    Table.rows_ofList hids
  simp only [CanonicalActivity.restore, hschema, hprincipal, hcursor, hsummaryCursor,
    hauthoritative, hsummary, hrecords, hmap, hsummaryRead, safeIntegerFrom_int,
    Option.bind_eq_bind, Option.bind_some, Option.filter_some, ite_bind, guard_bind, if_true,
    ite_ite_none, Option.pure_def]
  by_cases hfits : (focusOf activity.records.rows).length ≤ maxFocusRecords
  · have hlength : ((sortedRecords activity.records.rows).map toWireRecord).length ≤
        maxActivityRecords := by
      have hall := (perm_focus_history activity.records.rows).length_eq
      rw [List.length_append] at hall
      rw [List.length_map, hperm.length_eq, ← hall]
      exact Nat.add_le_add hfits h.history
    have hretained : retainedRecords (Table.ofList (sortedRecords activity.records.rows)) =
        some (sortedRecords activity.records.rows) := by
      rw [retainedRecords_eq_all (by rwa [hrows, hfocus]) (by rw [hrows, hhistory]; exact h.history)
        (by rwa [hrows]), hrows, sortedRecords_sortedRecords]
    rw [if_pos hfits, if_pos ⟨h.cursor, h.summaryCursor, decide_eq_true hlength, hdelivered, hids,
      hsequences⟩, replaceRecords, hretained]
    rfl
  · have hrefused :
        retainedRecords (Table.ofList (sortedRecords activity.records.rows)) = none := by
      rw [retainedRecords, hrows, hfocus, if_pos (not_le.mp hfits)]
    rw [if_neg hfits, replaceRecords, hrefused]
    split <;> rfl

/-- What is hydrated of a payload by a client whose principal was just set. -/
theorem ActivityClient.hydrate_payload (h : Cacheable activity)
    (howner : bounded owner 128 = true) :
    (ActivityClient.initial.setPrincipal (some owner)).hydrate owner
        (some (activity.payload owner)) =
      if (focusOf activity.records.rows).length ≤ maxFocusRecords then
        (true, ⟨some owner, activity.restored, .recovering, true⟩)
      else (false, ⟨some owner, .initial, .recovering, false⟩) := by
  have hset : ActivityClient.initial.setPrincipal (some owner) =
      ⟨some owner, .initial, .hydrating, false⟩ := by
    simp [ActivityClient.setPrincipal, ActivityClient.initial, Option.filter_some, howner]
  rw [hset, ActivityClient.hydrate, if_pos rfl, Option.bind_some, h.restore_payload]
  by_cases hfits : (focusOf activity.records.rows).length ≤ maxFocusRecords
  · rw [if_pos hfits, if_pos hfits]
  · rw [if_neg hfits, if_neg hfits]

/-- What a client holds for its principal is restored when the records in focus fit. -/
theorem ActivityClient.Sound.roundTrips_iff {client : ActivityClient} (h : client.Sound)
    (hprincipal : client.principalId = some owner) :
    RoundTrips owner client.activity
        ((ActivityClient.initial.setPrincipal (some owner)).hydrate owner
          (some (client.activity.payload owner))) ↔
      (focusOf client.activity.records.rows).length ≤ maxFocusRecords := by
  rw [ActivityClient.hydrate_payload h.cacheable (h.principal owner hprincipal)]
  by_cases hfits : (focusOf client.activity.records.rows).length ≤ maxFocusRecords
  · rw [if_pos hfits]
    have hrows : sortedRecords client.activity.restored.records.rows =
        sortedRecords client.activity.records.rows := by
      rw [Cacheable.rows_restored, sortedRecords_sortedRecords]
    refine iff_of_true ⟨rfl, hrows, rfl, rfl, ?_⟩ hfits
    rw [CanonicalActivity.payload, hrows]
    rfl
  · rw [if_neg hfits]
    exact iff_of_false (fun hround => Bool.false_ne_true hround.accepted) hfits

end RoundTrip

/-- In every reachable state, the payload of a principal is restored to the same records, cursor and
summary, and stored again as it is, exactly when the records in focus fit by themselves. -/
theorem cache_round_trip_iff (steps : List ActivityClientStep) {owner : String}
    (hprincipal : (run activityClientStep .initial steps).principalId = some owner) :
    RoundTrips owner (run activityClientStep .initial steps).activity
        ((ActivityClient.initial.setPrincipal (some owner)).hydrate owner
          (some ((run activityClientStep .initial steps).activity.payload owner))) ↔
      (focusOf (run activityClientStep .initial steps).activity.records.rows).length ≤
        maxFocusRecords :=
  (ActivityClient.Sound.run steps).roundTrips_iff hprincipal

section Overflow

/-- A row of an objective under a number. -/
def sampleRow (kind state : String) (decisionKey : Option String) (n : ℕ) : DeliveredActivity where
  activity :=
    { id := String.singleton (Char.ofNat (0x4E00 + n)), sequence := n + 1, revision := 1
      kind, state
      importance := "routine", title := "Task", summary := "Task", summaryTruncated := false
      taskId := some "task", decisionKey, objectiveId := some "objective", runId := none
      project := none, occurredAt := none, observedAt := 0, refs := []
      sourceInstanceId := "source", sourceEventId := none }
  deliverySequence := n + 1

/-- Open decisions, the end of an objective, and progress of it. -/
def overflowRow (n : ℕ) : DeliveredActivity :=
  if n < 4601 then sampleRow "decision.requested" "awaiting-user" (some "choice") n
  else if n = 4601 then sampleRow "objective.completed" "completed" none n
  else sampleRow "objective.progress" "active" none n

/-- The page that delivers one of the rows. -/
def overflowPage (n : ℕ) : ActivityPage := ⟨[overflowRow n], n + 1, n + 1, false, ⟨0, 0, 0⟩⟩

/-- A principal is set and the rows are delivered one by one. -/
def overflowSteps (n : ℕ) : List ActivityClientStep :=
  .setPrincipal (some "user") :: (List.range n).map fun i => .ingestPage (overflowPage i).json

theorem run_overflowSteps_succ (n : ℕ) :
    run activityClientStep .initial (overflowSteps (n + 1)) = activityClientStep
      (run activityClientStep .initial (overflowSteps n)) (.ingestPage (overflowPage n).json) := by
  have hsteps : overflowSteps (n + 1) = overflowSteps n ++ [.ingestPage (overflowPage n).json] := by
    rw [overflowSteps, List.range_succ, List.map_append, List.map_singleton]
    rfl
  rw [hsteps, run_append, run_cons, run_nil]

/-- The rows as the client holds them. -/
def overflowRows (n : ℕ) : List CanonicalActivityRecord :=
  (List.range n).map fun i => (overflowRow i).record

theorem toNat_sample {n : ℕ} (hn : n < 5002) : (Char.ofNat (0x4E00 + n)).toNat = 0x4E00 + n := by
  have hvalid : (0x4E00 + n).isValidChar := .inl (by omega)
  rw [Char.ofNat, dif_pos hvalid]
  rfl

theorem sampleRow_readable {kind state : String} {decisionKey : Option String} {n : ℕ}
    (hn : n < 5002) (h : (sampleRow kind state decisionKey 0).record.readable = true) :
    (sampleRow kind state decisionKey n).record.readable = true := by
  obtain ⟨⟨-, -, -, hrevision⟩, hrest⟩ := CanonicalActivityRecord.readable_iff.mp h
  have hid : bounded (String.singleton (Char.ofNat (0x4E00 + n))) 128 = true := by
    have hcontrol : isControl (Char.ofNat (0x4E00 + n)) = false := by
      simp only [isControl, toNat_sample hn, Bool.or_eq_false_iff, decide_eq_false_iff_not]
      omega
    simp [bounded, hcontrol]
  have hnumber : safeFrom 1 ((n + 1 : ℕ) : ℤ) = true := by
    simp only [safeFrom, safeInteger, Bool.and_eq_true, decide_eq_true_eq]
    omega
  exact CanonicalActivityRecord.readable_iff.mpr ⟨⟨hid, hnumber, hnumber, hrevision⟩, hrest⟩

theorem overflowRow_readable {n : ℕ} (hn : n < 5002) : (overflowRow n).record.readable = true := by
  unfold overflowRow
  split_ifs
  · exact sampleRow_readable hn (by decide +kernel)
  · exact sampleRow_readable hn (by decide +kernel)
  · exact sampleRow_readable hn (by decide +kernel)

theorem sampleRow_id_inj {kind state kind' state' : String} {key key' : Option String} {m n : ℕ}
    (hm : m < 5002) (hn : n < 5002) (h : (sampleRow kind state key m).record.id =
      (sampleRow kind' state' key' n).record.id) : m = n := by
  have hchar : Char.ofNat (0x4E00 + m) = Char.ofNat (0x4E00 + n) :=
    String.singleton_inj.mp h
  have hcode := congrArg Char.toNat hchar
  rw [toNat_sample hm, toNat_sample hn] at hcode
  omega

theorem sequence_overflowRow (n : ℕ) : (overflowRow n).record.sequence = n + 1 := by
  unfold overflowRow
  split_ifs <;> rfl

theorem delivery_overflowRow (n : ℕ) : (overflowRow n).record.deliverySequence = n + 1 := by
  unfold overflowRow
  split_ifs <;> rfl

theorem objective_overflowRow (n : ℕ) : (overflowRow n).record.objectiveId = some "objective" := by
  unfold overflowRow
  split_ifs <;> rfl

/-- The rows are told apart by their ids. -/
theorem overflowRow_id_inj {m n : ℕ} (hm : m < 5002) (hn : n < 5002)
    (h : (overflowRow m).record.id = (overflowRow n).record.id) : m = n := by
  unfold overflowRow at h
  split_ifs at h <;> exact sampleRow_id_inj hm hn h

/-- Only the row of the end is terminal. -/
theorem overflowRow_terminal (n : ℕ) : (overflowRow n).record.isTerminal = decide (n = 4601) := by
  unfold overflowRow
  split_ifs with hdecision hend
  · rw [decide_eq_false (by omega)]
    rfl
  · rw [decide_eq_true hend]
    rfl
  · rw [decide_eq_false hend]
    rfl

/-- All rows but that of the end are of focus, progress only before the end of its objective. -/
theorem overflowRow_focus (ids : List String) (n : ℕ) :
    (overflowRow n).record.isEffectiveFocusRecord ids =
      decide (n < 4601 ∨ 4601 < n ∧ "objective" ∉ ids) := by
  unfold overflowRow
  split_ifs with hdecision hend
  · rw [decide_eq_true (.inl hdecision)]
    have hkind : "objective.".toList.isPrefixOf "decision.requested".toList = false := by decide
    rw [isEffectiveFocusRecord, show (sampleRow "decision.requested" "awaiting-user"
      (some "choice") n).record.kind = "decision.requested" from rfl, hkind]
    rfl
  · rw [decide_eq_false (by omega)]
    rfl
  · have hgiven : given (some "objective") = some "objective" := rfl
    have hlt : 4601 < n := by omega
    simp [isEffectiveFocusRecord, isFocusRecord, sampleRow, DeliveredActivity.record, hgiven,
      hdecision, hlt]

theorem sortedRecords_overflowRows (n : ℕ) : sortedRecords (overflowRows n) = overflowRows n := by
  refine List.Pairwise.insertionSort_eq ?_
  refine List.pairwise_map.mpr (List.pairwise_lt_range.imp fun {i j} hlt => ?_)
  rw [sequence_overflowRow, sequence_overflowRow]
  omega

theorem nodup_sequences_overflowRows (n : ℕ) : ((overflowRows n).map (·.sequence)).Nodup := by
  rw [overflowRows, List.map_map]
  refine List.nodup_range.map fun i j h => ?_
  simp only [Function.comp_apply, sequence_overflowRow] at h
  omega

theorem terminal_overflowRows {n : ℕ} :
    "objective" ∈ terminalObjectiveIds (overflowRows n) ↔ 4601 < n := by
  have hgiven (i : ℕ) : given (overflowRow i).record.objectiveId = some "objective" := by
    rw [objective_overflowRow]
    rfl
  constructor
  · intro hmem
    obtain ⟨r, hr, -⟩ := List.mem_filterMap.mp hmem
    obtain ⟨hrow, hterminal⟩ := List.mem_filter.mp hr
    obtain ⟨i, hi, rfl⟩ := List.mem_map.mp hrow
    rw [overflowRow_terminal, decide_eq_true_eq] at hterminal
    exact hterminal ▸ List.mem_range.mp hi
  · intro hlt
    refine List.mem_filterMap.mpr ⟨(overflowRow 4601).record, List.mem_filter.mpr ⟨?_, ?_⟩,
      hgiven 4601⟩
    · exact List.mem_map_of_mem (List.mem_range.mpr hlt)
    · rw [overflowRow_terminal]
      rfl

theorem length_filter_lt_range (c m : ℕ) :
    ((List.range m).filter fun i => decide (i < c)).length = min m c := by
  induction m with
  | zero => simp
  | succ m ih =>
    rw [List.range_succ, List.filter_append, List.length_append, ih]
    by_cases hlt : m < c
    · simp only [hlt, decide_true, List.filter_cons_of_pos, List.filter_nil, List.length_singleton]
      omega
    · simp [hlt]
      omega

/-- The decisions are in focus. -/
theorem focusOf_overflowRows (n : ℕ) : focusOf (overflowRows n) =
    ((List.range n).filter fun i => decide (i < 4601)).map fun i => (overflowRow i).record := by
  rw [focusOf, sortedRecords_overflowRows, overflowRows, List.filter_map]
  refine congrArg _ (List.filter_congr fun i hi => ?_)
  have hlt := List.mem_range.mp hi
  have hterminal := terminal_overflowRows (n := n)
  rw [overflowRows] at hterminal
  simp only [Function.comp_apply, overflowRow_focus, hterminal]
  exact decide_eq_decide.mpr (by omega)

theorem length_overflowRows (n : ℕ) : (overflowRows n).length = n := by
  rw [overflowRows, List.length_map, List.length_range]

theorem length_focusOf_overflowRows (n : ℕ) : (focusOf (overflowRows n)).length = min n 4601 := by
  rw [focusOf_overflowRows, List.length_map, length_filter_lt_range]

theorem length_historyOf_overflowRows (n : ℕ) : (historyOf (overflowRows n)).length = n - 4601 := by
  have hall := (perm_focus_history (overflowRows n)).length_eq
  rw [List.length_append, length_focusOf_overflowRows, length_overflowRows] at hall
  omega

/-- A page of one new row that comes next. -/
theorem CanonicalActivity.takePage_next {activity : CanonicalActivity} {r : CanonicalActivityRecord}
    {latestCursor : ℤ} {summary : Option CanonicalActivitySummary}
    (hfree : activity.records.find? r.id = none)
    (hnext : r.deliverySequence = activity.deliveryCursor + 1)
    (hsequences : ((activity.records.put r).rows.map (·.sequence)).Nodup) :
    activity.takePage [r] r.deliverySequence latestCursor summary =
      (replaceRecords (activity.records.put r)).map
        (activity.afterPage · r.deliverySequence latestCursor summary) := by
  have hunseen : [r].filter (activity.deliveryCursor < ·.deliverySequence) = [r] := by
    simp [hnext]
  have hseen : [r].filter (·.deliverySequence ≤ activity.deliveryCursor) = [] := by
    simp [hnext]
  have hmerge : mergeUnseen activity.records r = some (activity.records.put r) := by
    simp [mergeUnseen, hfree]
  have hcontiguous : contiguous [r] = true := rfl
  simp only [CanonicalActivity.takePage, hunseen, hseen, hcontiguous, List.foldlM_nil,
    List.foldlM_cons, Option.bind_eq_bind, Option.pure_def, Option.bind_some, hmerge, guard_bind,
    List.getLast?_singleton, List.head?_cons, Option.all_some, hnext, decide_true, if_true,
    List.cons_ne_nil, false_implies, if_pos hsequences]
  rw [← hnext, Option.map_eq_bind]
  rfl

/-- The client of a principal that holds the first of the rows. -/
structure Filled (n : ℕ) (client : ActivityClient) : Prop where
  principal : client.principalId = some "user"
  rows : client.activity.records.rows = overflowRows n
  cursor : client.activity.deliveryCursor = n

namespace Filled

variable {n : ℕ} {client : ActivityClient}

theorem free (h : Filled n client) (hn : n < 5002) :
    client.activity.records.find? (overflowRow n).record.id = none := by
  refine Table.find?_eq_none_iff.mpr fun r hr hid => ?_
  rw [h.rows] at hr
  obtain ⟨i, hi, rfl⟩ := List.mem_map.mp hr
  have hlt := List.mem_range.mp hi
  exact absurd (overflowRow_id_inj (by omega) hn hid) (by omega)

theorem staged (h : Filled n client) (hn : n < 5002) :
    (client.activity.records.put (overflowRow n).record).rows = overflowRows (n + 1) := by
  rw [Table.rows_put_of_free (h.free hn), h.rows, overflowRows, overflowRows, List.range_succ,
    List.map_append, List.map_singleton]

theorem page_readable (hn : n < 5002) : (overflowPage n).readable = true := by
  have hrow : (overflowRow n).readable = true :=
    (readable_record (overflowRow n)).symm.trans (overflowRow_readable hn)
  have hnumber : safeInteger ((n + 1 : ℕ) : ℤ) = true := by
    simp only [safeInteger, decide_eq_true_eq]
    omega
  simp only [ActivityPage.readable, overflowPage, List.all_cons, List.all_nil, hrow, hnumber,
    Bool.and_true, Bool.true_and]
  rfl

/-- The page of the next row is taken, and retention decides what is held. -/
theorem ingest (h : Filled n client) (hn : n < 5002) {retained : List CanonicalActivityRecord}
    (hretained : retainedRecords (client.activity.records.put (overflowRow n).record) =
      some retained) :
    activityClientStep client (.ingestPage (overflowPage n).json) =
      { client with
        activity := client.activity.afterPage (Table.ofList retained) (overflowPage n).nextCursor
          (overflowPage n).latestCursor (some (overflowPage n).summary.wire) } := by
  have hrows : (overflowPage n).rows = [(overflowRow n).record] := rfl
  have hcursor : ((overflowPage n).nextCursor : ℤ) = (overflowRow n).record.deliverySequence := by
    rw [delivery_overflowRow]
    rfl
  have hnext : (overflowRow n).record.deliverySequence = client.activity.deliveryCursor + 1 := by
    rw [delivery_overflowRow, h.cursor]
  have hsequences : ((client.activity.records.put (overflowRow n).record).rows.map
      (·.sequence)).Nodup := by
    rw [h.staged hn]
    exact nodup_sequences_overflowRows _
  have htake : client.activity.ingestPage (overflowPage n).json =
      some (client.activity.afterPage (Table.ofList retained) (overflowPage n).nextCursor
        (overflowPage n).latestCursor (some (overflowPage n).summary.wire)) := by
    rw [ingestPage_json,
      if_pos ⟨⟨by simp [overflowPage, maxPageRecords], le_rfl⟩, page_readable hn⟩, hrows, hcursor,
      CanonicalActivity.takePage_next (h.free hn) hnext hsequences, replaceRecords,
      hretained]
    rfl
  simp only [activityClientStep, ActivityClient.ingest, h.principal, Option.isSome_some, if_true,
    htake, Option.getD_some]

/-- Up to one row before the last, everything is retained. -/
theorem next (h : Filled n client) (hn : n < 5001) :
    Filled (n + 1) (activityClientStep client (.ingestPage (overflowPage n).json)) := by
  have hstaged := h.staged (by omega)
  have hretained : retainedRecords (client.activity.records.put (overflowRow n).record) =
      some (overflowRows (n + 1)) := by
    rw [retainedRecords_eq_all, hstaged, sortedRecords_overflowRows]
    · rw [hstaged, length_focusOf_overflowRows]
      exact (min_le_right _ _).trans (by decide)
    · rw [hstaged, length_historyOf_overflowRows]
      exact (Nat.sub_le_sub_right hn 4601).trans (by decide)
    · rw [hstaged]
      exact nodup_sequences_overflowRows _
  rw [h.ingest (by omega) hretained]
  refine ⟨h.principal, ?_, ?_⟩
  · exact rows_ofList_retained hretained
  · have hcursor : max client.activity.deliveryCursor ((n + 1 : ℕ) : ℤ) = (n + 1 : ℕ) := by
      rw [h.cursor]
      exact max_eq_right (by omega)
    exact hcursor

theorem start : Filled 0 (ActivityClient.initial.setPrincipal (some "user")) := by
  have howner : bounded "user" 128 = true := by decide
  refine ⟨?_, ?_, ?_⟩ <;>
    simp [ActivityClient.setPrincipal, ActivityClient.initial, Option.filter_some, howner,
      CanonicalActivity.initial, overflowRows]

theorem run (hn : n ≤ 5001) : Filled n (run activityClientStep .initial (overflowSteps n)) := by
  induction n with
  | zero => exact start
  | succ n ih =>
    rw [run_overflowSteps_succ]
    exact (ih (by omega)).next (by omega)

/-- The last page drops the end of the objective, and its progress comes into focus. -/
theorem overflow (h : Filled 5001 client) {retained : List CanonicalActivityRecord}
    (hretained : retainedRecords (client.activity.records.put (overflowRow 5001).record) =
      some retained) : (focusOf retained).length = 5001 := by
  have hstaged := h.staged (by omega)
  have hhistory : (historyOf (overflowRows 5002)).length = 401 :=
    length_historyOf_overflowRows 5002
  have hended : (overflowRow 4601).record ∉ retained := by
    intro hmem
    rcases List.mem_append.mp ((perm_retained hretained).subset hmem) with hfocus | hrecent
    · have heffective := (List.mem_filter.mp hfocus).2
      rw [overflowRow_focus] at heffective
      simp at heffective
    · refine notMem_recentOf ?_ (fun s hs hle => ?_) hrecent
      · rw [hstaged, hhistory]
        decide
      · rw [hstaged, historyOf, sortedRecords_overflowRows] at hs
        obtain ⟨hrow, hother⟩ := List.mem_filter.mp hs
        obtain ⟨i, -, rfl⟩ := List.mem_map.mp hrow
        rw [delivery_overflowRow, delivery_overflowRow] at hle
        rw [overflowRow_focus, Bool.not_eq_true', decide_eq_false_iff_not] at hother
        rw [show i = 4601 by omega]
  have hterminal : terminalObjectiveIds (sortedRecords retained) = [] := by
    have hnone : (sortedRecords retained).filter isTerminal = [] := by
      refine List.filter_eq_nil_iff.mpr fun r hr => ?_
      have hkept := mem_sortedRecords.mp hr
      have hrow := mem_of_mem_retained hretained hkept
      rw [hstaged] at hrow
      obtain ⟨i, -, rfl⟩ := List.mem_map.mp hrow
      rw [overflowRow_terminal, decide_eq_true_eq]
      rintro rfl
      exact hended hkept
    rw [terminalObjectiveIds, hnone]
    rfl
  have hall : focusOf retained = sortedRecords retained := by
    refine List.filter_eq_self.mpr fun r hr => ?_
    have hkept := mem_sortedRecords.mp hr
    have hrow := mem_of_mem_retained hretained hkept
    rw [hstaged] at hrow
    obtain ⟨i, -, rfl⟩ := List.mem_map.mp hrow
    have hne : i ≠ 4601 := by
      rintro rfl
      exact hended hkept
    rw [hterminal, overflowRow_focus]
    simp only [List.not_mem_nil, not_false_eq_true, and_true, decide_eq_true_eq]
    omega
  rw [hall, (perm_sortedRecords retained).length_eq, (perm_retained hretained).length_eq,
    List.length_append, recentOf_eq, List.length_take, List.length_insertionSort, hstaged,
    length_focusOf_overflowRows, hhistory]
  decide

/-- After the last page more rows are in focus than fit. -/
theorem last (h : Filled 5001 client) :
    (activityClientStep client (.ingestPage (overflowPage 5001).json)).principalId = some "user" ∧
      (focusOf (activityClientStep client
        (.ingestPage (overflowPage 5001).json)).activity.records.rows).length = 5001 := by
  obtain ⟨retained, hretained⟩ : ∃ retained,
      retainedRecords (client.activity.records.put (overflowRow 5001).record) = some retained := by
    rw [retainedRecords_isSome, h.staged (by omega), length_focusOf_overflowRows]
    decide
  rw [h.ingest (by omega) hretained]
  refine ⟨h.principal, ?_⟩
  dsimp only [CanonicalActivity.afterPage]
  rw [rows_ofList_retained hretained, h.overflow hretained]

end Filled

/-- Before the last page, what is held is restored. -/
theorem cached_activity_restored :
    RoundTrips "user" (run activityClientStep .initial (overflowSteps 5001)).activity
      ((ActivityClient.initial.setPrincipal (some "user")).hydrate "user"
        (some ((run activityClientStep .initial (overflowSteps 5001)).activity.payload
          "user"))) := by
  have hfilled : Filled 5001 (run activityClientStep .initial (overflowSteps 5001)) :=
    Filled.run le_rfl
  refine (cache_round_trip_iff _ hfilled.principal).mpr ?_
  rw [hfilled.rows, length_focusOf_overflowRows]
  decide

/-- After it the client takes no more what it stores. -/
theorem cached_activity_refused :
    (run activityClientStep .initial (overflowSteps 5002)).principalId = some "user" ∧
    ¬RoundTrips "user" (run activityClientStep .initial (overflowSteps 5002)).activity
      ((ActivityClient.initial.setPrincipal (some "user")).hydrate "user"
        (some ((run activityClientStep .initial (overflowSteps 5002)).activity.payload
          "user"))) := by
  have hsound := ActivityClient.Sound.run (overflowSteps 5002)
  obtain ⟨hprincipal, hlength⟩ := (Filled.run le_rfl).last
  rw [run_overflowSteps_succ 5001] at hsound ⊢
  refine ⟨hprincipal, fun h => ?_⟩
  have hfits := (hsound.roundTrips_iff hprincipal).mp h
  rw [hlength] at hfits
  exact absurd hfits (by decide)

end Overflow

end Magistrate.Frontend
