import Magistrate.Frontend.Activity.Pages
import Magistrate.Frontend.Activity.Retention
import Magistrate.Gateway.Activity.Answers

/-!
# Which activity the client takes in

The gateway answers requests from the ledger of a user's changes while the store
goes on writing; its answers reach the client late, again or out of order. All rows
are versions of the user's records, so of the checks of the client there remain
those of identities, of revisions and of the room for records in focus.
-/

namespace Magistrate.Frontend

section Numbered

/-- Rows that are numbered from a cursor on. -/
def NumberedFrom (after : ℕ) (rows : List CanonicalActivityRecord) : Prop :=
  rows.map (·.deliverySequence) = (List.range' (after + 1) rows.length).map (Nat.cast : ℕ → ℤ)

variable {after : ℕ} {cursor : ℤ} {first : CanonicalActivityRecord}
  {rows : List CanonicalActivityRecord}

theorem numberedFrom_cons : NumberedFrom after (first :: rows) ↔
    first.deliverySequence = after + 1 ∧ NumberedFrom (after + 1) rows := by
  simp [NumberedFrom, List.range'_succ]

theorem NumberedFrom.contiguous (h : NumberedFrom after rows) : contiguous rows = true := by
  induction rows generalizing after with
  | nil => rfl
  | cons first rows ih =>
    obtain ⟨hfirst, hrest⟩ := numberedFrom_cons.mp h
    cases rows with
    | nil => rfl
    | cons second rows =>
      obtain ⟨hsecond, -⟩ := numberedFrom_cons.mp hrest
      simp only [Frontend.contiguous, Bool.and_eq_true, decide_eq_true_eq]
      exact ⟨by rw [hsecond, hfirst]; push_cast; rfl, ih hrest⟩

theorem NumberedFrom.last (h : NumberedFrom after rows) :
    rows.getLast?.all (·.deliverySequence = (after : ℤ) + rows.length) = true := by
  induction rows generalizing after with
  | nil => rfl
  | cons first rows ih =>
    obtain ⟨hfirst, hrest⟩ := numberedFrom_cons.mp h
    cases rows with
    | nil => simp [hfirst]
    | cons second rows =>
      have hlast := ih hrest
      rw [List.getLast?_cons_cons]
      have hend : ((after + 1 : ℕ) : ℤ) + (second :: rows).length =
          (after : ℤ) + (first :: second :: rows).length := by
        push_cast [List.length_cons]
        omega
      rwa [hend] at hlast

/-- The rows after a cursor begin right after it. -/
theorem NumberedFrom.unseen_first (h : NumberedFrom after rows) (hafter : (after : ℤ) ≤ cursor) :
    (rows.filter (cursor < ·.deliverySequence)).head?.all (·.deliverySequence = cursor + 1) =
      true := by
  induction rows generalizing after with
  | nil => rfl
  | cons first rows ih =>
    obtain ⟨hfirst, hrest⟩ := numberedFrom_cons.mp h
    by_cases hlt : cursor < first.deliverySequence
    · rw [List.filter_cons_of_pos (by simpa using hlt)]
      simp only [List.head?_cons, Option.all_some, decide_eq_true_eq]
      omega
    · rw [List.filter_cons_of_neg (by simpa using hlt)]
      exact ih hrest (by push_cast; omega)

/-- Where no row is after a cursor, the rows end at it. -/
theorem NumberedFrom.le_of_seen (h : NumberedFrom after rows) (hafter : (after : ℤ) ≤ cursor)
    (hseen : rows.filter (cursor < ·.deliverySequence) = []) :
    (after : ℤ) + rows.length ≤ cursor := by
  induction rows generalizing after with
  | nil => simpa using hafter
  | cons first rows ih =>
    obtain ⟨hfirst, hrest⟩ := numberedFrom_cons.mp h
    have hle : ¬cursor < first.deliverySequence := by
      simpa using (List.filter_eq_nil_iff.mp hseen) first List.mem_cons_self
    rw [List.filter_cons_of_neg (by simpa using hle)] at hseen
    have hrest' := ih hrest (by push_cast; omega) hseen
    push_cast [List.length_cons] at hrest' ⊢
    omega

end Numbered

namespace CanonicalActivity

variable {V : CanonicalActivityRecord → Prop} {store store' : CanonicalActivity}
  {rows pageRecords focusRecords : List CanonicalActivityRecord} {after : ℕ}
  {latestCursor snapshotCursor : ℤ} {requireCompletePage : Bool}

/-- A page that fits what is held: its rows keep the identities, those that the client has seen are
of records that it holds or need not hold, and of no other a later revision is held. -/
structure Fits (store : CanonicalActivity) (rows : List CanonicalActivityRecord) : Prop where
  identity : ∀ a ∈ rows, IdentityKept store.records a
  known : ∀ a ∈ rows, a.deliverySequence ≤ store.deliveryCursor →
    KnownOr store.snapshotBaseline store.records a
  notOlder : ∀ a ∈ rows, store.deliveryCursor < a.deliverySequence → NotOlder store.records a

/-- What is staged for a page. -/
def staged (store : CanonicalActivity) (rows : List CanonicalActivityRecord) :
    Table CanonicalActivityRecord.id :=
  mergedPage store.deliveryCursor rows store.records

/-- What is staged for a snapshot. -/
def stagedSnapshot (store : CanonicalActivity) (snapshotCursor : ℤ)
    (delivered : List CanonicalActivityRecord) : Table CanonicalActivityRecord.id :=
  delivered.foldl putLatest (store.pruned snapshotCursor delivered)

/-- A page of versions after a cursor is taken when it fits and there is room for its focus. -/
theorem takePage_eq_some (hV : Authentic V) (ht : Held V store.records) (hrows : ∀ a ∈ rows, V a)
    (hcoherent : Coherent rows) (hnumbered : NumberedFrom after rows)
    (hafter : (after : ℤ) ≤ store.deliveryCursor) {summary : Option CanonicalActivitySummary} :
    store.takePage rows ((after : ℤ) + rows.length) latestCursor summary = some store' ↔
      store.Fits rows ∧ ∃ retained, retainedRecords (store.staged rows) = some retained ∧
        store.afterPage (Table.ofList retained) ((after : ℤ) + rows.length) latestCursor summary =
          store' := by
  have htake : store.takePage rows ((after : ℤ) + rows.length) latestCursor summary =
      (((rows.filter (·.deliverySequence ≤ store.deliveryCursor)).foldlM
        (mergeSeen store.snapshotBaseline) store.records).bind
        ((rows.filter (store.deliveryCursor < ·.deliverySequence)).foldlM mergeUnseen)).bind
      fun staged => if (staged.rows.map (·.sequence)).Nodup then
        (replaceRecords staged).map fun records =>
          store.afterPage records ((after : ℤ) + rows.length) latestCursor summary else none := by
    simp only [takePage, guard_bind, Option.bind_eq_bind]
    rw [if_pos hnumbered.contiguous, if_pos hnumbered.last, if_pos (hnumbered.unseen_first hafter),
      if_pos (hnumbered.le_of_seen hafter), Option.bind_assoc]
    simp only [Option.map_eq_bind]
    rfl
  rw [htake, Option.bind_eq_some_iff]
  simp only [mergePage_eq_some hV ht hrows hcoherent]
  have hnodup := (ht.mergedPage hV hrows store.deliveryCursor).nodup_sequences hV
  constructor
  · rintro ⟨last, ⟨⟨hidentity, hknown, holder⟩, rfl⟩, hrest⟩
    rw [if_pos hnodup, replaceRecords, Option.map_map, Option.map_eq_some_iff] at hrest
    exact ⟨⟨hidentity, hknown, holder⟩, hrest⟩
  · rintro ⟨hfits, hrest⟩
    refine ⟨_, ⟨⟨hfits.identity, hfits.known, hfits.notOlder⟩, rfl⟩, ?_⟩
    rw [if_pos hnodup, replaceRecords, Option.map_map, Option.map_eq_some_iff]
    exact hrest

/-- What a snapshot leaves of what is held. -/
theorem held_pruned (ht : Held V store.records) : Held V (store.pruned snapshotCursor rows) := by
  unfold pruned
  split
  · exact fun r hr => ht r (List.mem_of_mem_filter hr)
  · exact ht

/-- A snapshot of versions is taken when its rows keep the identities of what it leaves and there is
room for its focus; as a complete page, when the client has its changes, and keeps its rows. -/
theorem takeSnapshot_eq_some (hV : Authentic V) (ht : Held V store.records)
    (hrows : ∀ a ∈ pageRecords ++ focusRecords, V a)
    (hcoherent : Coherent (pageRecords ++ focusRecords))
    (hreached : ∀ a ∈ pageRecords ++ focusRecords, a.deliverySequence ≤ snapshotCursor)
    {summary : CanonicalActivitySummary}
    {taken : List CanonicalActivityRecord × CanonicalActivity} :
    store.takeSnapshot pageRecords focusRecords snapshotCursor summary requireCompletePage =
        some taken ↔
      (requireCompletePage = true → snapshotCursor ≤ store.deliveryCursor) ∧
      (∀ a ∈ pageRecords ++ focusRecords,
        IdentityKept (store.pruned snapshotCursor (pageRecords ++ focusRecords)) a) ∧
      ∃ retained, retainedRecords
          (store.stagedSnapshot snapshotCursor (pageRecords ++ focusRecords)) = some retained ∧
        (requireCompletePage = true → ∀ a ∈ pageRecords, a.id ∈ retained.map (·.id)) ∧
        (retained, store.afterSnapshot retained snapshotCursor summary) = taken := by
  have hpruned : Held V (store.pruned snapshotCursor (pageRecords ++ focusRecords)) :=
    held_pruned ht
  have hstaged : Held V (store.stagedSnapshot snapshotCursor (pageRecords ++ focusRecords)) :=
    List.foldlRecOn (motive := Held V) _ putLatest hpruned
      fun _ hu a ha => hu.putLatest hV (hrows a ha)
  simp only [takeSnapshot, guard_bind, Option.bind_eq_bind, Option.ite_none_right_eq_some,
    Option.bind_eq_some_iff, foldlM_mergeSnapshot hV hpruned hrows hcoherent, Option.pure_def,
    Option.some.injEq]
  refine and_congr_right' ?_
  constructor
  · rintro ⟨last, ⟨hchecks, rfl⟩, -, retained, hretained, hcomplete, rfl⟩
    exact ⟨fun a ha => (hchecks a ha).2, retained, hretained, hcomplete, rfl⟩
  · rintro ⟨hidentity, retained, hretained, hcomplete, rfl⟩
    exact ⟨_, ⟨fun a ha => ⟨hreached a ha, hidentity a ha⟩, rfl⟩, hstaged.nodup_sequences hV,
      retained, hretained, hcomplete, rfl⟩

end CanonicalActivity

end Magistrate.Frontend

namespace Magistrate

open Frontend

/-- The record is one of the versions, under any delivery number. -/
def IsVersion (versions : List PublicActivity) (r : CanonicalActivityRecord) : Prop :=
  ∃ v ∈ versions, r.Alike (DeliveredActivity.mk v 0).record

section Versions

variable {log : ActivityLog} {history : List ActivityRecord} {user : String}
  {versions seen : List PublicActivity} {after : ℕ} {page : ActivityPage}
  {projection : ActivityProjection} {d : DeliveredActivity} {r : CanonicalActivityRecord}

theorem IsVersion.mono (h : IsVersion seen r) (hpre : seen <+: versions) :
    IsVersion versions r := by
  obtain ⟨v, hv, halike⟩ := h
  exact ⟨v, hpre.subset hv, halike⟩

/-- The versions of a user's records are authentic. -/
theorem Ledger.authentic (h : Ledger log history) (user : String) :
    Authentic (IsVersion (publicVersions history user)) where
  one := by
    rintro r s ⟨v, hv, hr⟩ ⟨w, hw, hs⟩ hid hrevision
    have hvw : v = w := by
      refine (h.revised_publicVersions user).eq_of_revision hv hw
        (hr.id.symm.trans (hid.trans hs.id))
        ?_
      have hcast : (v.revision : ℤ) = w.revision :=
        hr.revision.symm.trans (hrevision.trans hs.revision)
      exact_mod_cast hcast
    subst hvw
    exact hr.trans hs.symm
  placed := by
    rintro r s ⟨v, hv, hr⟩ ⟨w, hw, hs⟩ hsequence
    obtain ⟨v, hvmap, rfl⟩ := List.mem_map.mp hv
    obtain ⟨w, hwmap, rfl⟩ := List.mem_map.mp hw
    obtain ⟨hvmem, hvuser⟩ := List.mem_filter.mp hvmap
    obtain ⟨hwmem, hwuser⟩ := List.mem_filter.mp hwmap
    have hplaces : (v.sequenceIndex : ℤ) = w.sequenceIndex :=
      (congrArg Prod.fst hr.identity).symm.trans
        (hsequence.trans (congrArg Prod.fst hs.identity))
    have huser : v.userId = w.userId :=
      (of_decide_eq_true hvuser).trans (of_decide_eq_true hwuser).symm
    rw [hr.id, hs.id]
    exact (h.sequences v hvmem w hwmem huser).mp (by exact_mod_cast hplaces)
  delivered r n := by
    rintro ⟨v, hv, hr⟩
    exact ⟨v, hv, (CanonicalActivityRecord.Alike.withDelivery r n).trans hr⟩

theorem alike_record {d e : DeliveredActivity} (h : d.activity = e.activity) :
    d.record.Alike e.record := by
  obtain ⟨activity, n⟩ := d
  obtain ⟨_, m⟩ := e
  subst h
  rfl

/-- A row that is read as the current one is a version. -/
theorem isVersion_of_current
    (h : current PublicActivity.id versions d.activity.id = some d.activity) :
    IsVersion versions d.record :=
  ⟨d.activity, (mem_of_current h).1, alike_record rfl⟩

/-- Rows that are read as current ones are coherent. -/
theorem coherent_of_current {records : List DeliveredActivity}
    (h : ∀ d ∈ records, current PublicActivity.id versions d.activity.id = some d.activity) :
    Coherent (records.map DeliveredActivity.record) := by
  intro a ha b hb hid
  obtain ⟨d, hd, rfl⟩ := List.mem_map.mp ha
  obtain ⟨e, he, rfl⟩ := List.mem_map.mp hb
  have hsame : d.activity.id = e.activity.id := hid
  refine alike_record (Option.some.inj ((h d hd).symm.trans ?_))
  rw [hsame, h e he]

namespace PageRead

/-- The rows of a page are current when it is read. -/
theorem current (h : PageRead seen after page) (hd : d ∈ page.records) :
    current PublicActivity.id seen d.activity.id = some d.activity := by
  have hmem : some d.activity ∈ page.records.map fun d => some d.activity :=
    List.mem_map_of_mem hd
  rw [h.records, List.mem_map] at hmem
  obtain ⟨v, -, hcurrent⟩ := hmem
  rw [(mem_of_current hcurrent).2, hcurrent]

theorem numberedRows (h : PageRead seen after page) : NumberedFrom after page.rows := by
  have hnumbers := congrArg (List.map (Nat.cast : ℕ → ℤ)) h.numbered
  rw [List.map_map] at hnumbers
  rw [NumberedFrom, ActivityPage.rows, List.map_map, List.length_map]
  exact hnumbers

/-- The rows of a page are versions. -/
theorem isVersion (h : PageRead seen after page) (hr : r ∈ page.rows) : IsVersion seen r := by
  obtain ⟨d, hd, rfl⟩ := List.mem_map.mp hr
  exact isVersion_of_current (h.current hd)

theorem coherent (h : PageRead seen after page) : Coherent page.rows :=
  coherent_of_current fun _ hd => h.current hd

end PageRead

namespace SnapshotRead

theorem mem_delivered : r ∈ projection.delivered ↔
    ∃ d ∈ projection.records ++ projection.focusRecords, d.record = r := by
  rw [← List.mem_map, List.map_append]
  rfl

/-- The rows of a snapshot are versions. -/
theorem isVersion (h : SnapshotRead seen projection) (hr : r ∈ projection.delivered) :
    IsVersion seen r := by
  obtain ⟨d, hd, rfl⟩ := mem_delivered.mp hr
  exact isVersion_of_current (h.current d hd)

/-- The changes of the rows of a snapshot are among those that it includes. -/
theorem le_cursor (h : SnapshotRead seen projection) (hr : r ∈ projection.delivered) :
    r.deliverySequence ≤ projection.snapshotCursor := by
  obtain ⟨d, hd, rfl⟩ := mem_delivered.mp hr
  exact Int.ofNat_le.mpr (h.reached d hd)

theorem coherent (h : SnapshotRead seen projection) : Coherent projection.delivered := by
  have hall := coherent_of_current h.current
  rwa [List.map_append] at hall

/-- Where the client takes the records of a snapshot, it takes the place where the next begins. -/
theorem before_safe (h : SnapshotRead seen projection) (hreadable : projection.readable = true) :
    projection.nextBefore.all safePositive = true := by
  cases hnext : projection.nextBefore with
  | none => rfl
  | some n =>
    obtain ⟨d, hd, rfl⟩ := h.before n hnext
    simp only [ActivityProjection.readable, Bool.and_eq_true, List.all_append, List.all_eq_true]
      at hreadable
    have hrecord := hreadable.1.1.1.1 d hd
    simp only [DeliveredActivity.readable, DeliveredActivity.wellFormed, Bool.and_eq_true,
      and_assoc] at hrecord
    exact hrecord.2.1

end SnapshotRead

end Versions

/-- The database, what a client holds of a user's activity, and what the gateway has answered. -/
structure ActivityDelivery where
  db : ActivityDatabase
  client : CanonicalActivity
  pages : List ActivityPage
  snapshots : List ActivityProjection

/-- A new database, and a client without activity. -/
def ActivityDelivery.initial : ActivityDelivery where
  db := .initial
  client := .initial
  pages := []
  snapshots := []

/-- A transaction of the store, an answer of the gateway, or an answer that reaches the client. -/
inductive DeliveryStep where
  | write (op : ActivityStep)
  | answerPage (after : ℕ) (limit : ℤ)
  | answerSnapshot (before : Option ℕ) (limit : ℤ)
  | receivePage (index : ℕ)
  | receiveSnapshot (index : ℕ) (requireCompletePage : Bool)

/-- A step. The client requests pages from cursors up to its own; an answer may reach it any number
of times, and what it refuses leaves it as it was. -/
def activityDeliveryStep (rules : ActivityStoreRules) (user : String) (s : ActivityDelivery) :
    DeliveryStep → ActivityDelivery
  | .write op => { s with db := activityStep rules s.db op }
  | .answerPage after limit =>
    if (after : ℤ) ≤ s.client.deliveryCursor then
      match s.db.log.listActivity rules.publish user after limit with
      | .error _ => s
      | .ok page => { s with pages := s.pages ++ [page] }
    else s
  | .answerSnapshot before limit =>
    match s.db.log.snapshotActivity rules.publish user before limit with
    | .error _ => s
    | .ok projection => { s with snapshots := s.snapshots ++ [projection] }
  | .receivePage index =>
    match s.pages[index]? with
    | none => s
    | some page => { s with client := (s.client.ingestPage page.json).getD s.client }
  | .receiveSnapshot index requireCompletePage =>
    match s.snapshots[index]? with
    | none => s
    | some projection =>
      { s with
        client := ((s.client.ingestSnapshot projection.json requireCompletePage).map Prod.snd).getD
          s.client }

/-- What holds of a run: the client holds versions of the user's records, and each answer was read
when some of them were there. -/
structure ActivityDelivering (user : String) (history : List ActivityRecord)
    (s : ActivityDelivery) :
    Prop where
  ledger : Ledger s.db.log history
  held : Held (IsVersion (publicVersions history user)) s.client.records
  pages : ∀ page ∈ s.pages, ∃ seen after, seen <+: publicVersions history user ∧
    PageRead seen after page ∧ (after : ℤ) ≤ s.client.deliveryCursor
  snapshots : ∀ projection ∈ s.snapshots, ∃ seen, seen <+: publicVersions history user ∧
    SnapshotRead seen projection

namespace ActivityDelivering

variable {rules : ActivityStoreRules} {user : String} {history : List ActivityRecord}
  {s : ActivityDelivery} {page : ActivityPage} {projection : ActivityProjection}
  {after : CanonicalActivity} {requireCompletePage : Bool}

/-- The client takes a page when it takes each record by itself, the page fits what it holds, and
there is room for the focus. -/
theorem ingestPage_iff (h : ActivityDelivering user history s) (hpage : page ∈ s.pages) :
    s.client.ingestPage page.json = some after ↔
      page.readable = true ∧ s.client.Fits page.rows ∧
      ∃ retained, retainedRecords (s.client.staged page.rows) = some retained ∧
        s.client.afterPage (Table.ofList retained) page.nextCursor page.latestCursor
          (some page.summary.wire) = after := by
  obtain ⟨seen, cursor, hpre, hread, hcursor⟩ := h.pages page hpage
  have hsmall : page.records.length ≤ maxPageRecords ∧ page.nextCursor ≤ page.latestCursor :=
    ⟨hread.small, hread.latest ▸ hread.reached⟩
  have hrows : ∀ a ∈ page.rows, IsVersion (publicVersions history user) a := fun a ha =>
    (hread.isVersion ha).mono hpre
  have hnext : (page.nextCursor : ℤ) = (cursor : ℤ) + page.rows.length := by
    rw [hread.next, ActivityPage.rows, List.length_map]
    push_cast
    rfl
  rw [ingestPage_json, Option.ite_none_right_eq_some, and_iff_right hsmall, hnext,
    CanonicalActivity.takePage_eq_some (h.ledger.authentic user) h.held hrows
      hread.coherent hread.numberedRows hcursor]

/-- The client takes a snapshot when it takes each record by itself, the rows keep the identities of
what it leaves, and there is room for the focus; as a complete page, when it has its changes and
keeps its rows. -/
theorem ingestSnapshot_iff (h : ActivityDelivering user history s)
    (hsnapshot : projection ∈ s.snapshots)
    {taken : CanonicalActivitySnapshotPage × CanonicalActivity} :
    s.client.ingestSnapshot projection.json requireCompletePage = some taken ↔
      (projection.focusTruncated = false ∧ projection.readable = true) ∧
      (requireCompletePage = true → (projection.snapshotCursor : ℤ) ≤ s.client.deliveryCursor) ∧
      (∀ a ∈ projection.delivered,
        IdentityKept (s.client.pruned projection.snapshotCursor projection.delivered) a) ∧
      ∃ retained, retainedRecords
          (s.client.stagedSnapshot projection.snapshotCursor projection.delivered) =
            some retained ∧
        (requireCompletePage = true → ∀ a ∈ projection.rows, a.id ∈ retained.map (·.id)) ∧
        (s.client.pageAfter projection.rows retained projection.snapshotCursor
          (projection.nextBefore.map (Nat.cast : ℕ → ℤ)) projection.hasMore,
          s.client.afterSnapshot retained projection.snapshotCursor projection.summary.wire) =
            taken := by
  obtain ⟨seen, hpre, hread⟩ := h.snapshots projection hsnapshot
  have hrows : ∀ a ∈ projection.rows ++ projection.focusRows,
      IsVersion (publicVersions history user) a := fun a ha => (hread.isVersion ha).mono hpre
  have hreached : ∀ a ∈ projection.rows ++ projection.focusRows,
      a.deliverySequence ≤ projection.snapshotCursor := fun a ha => hread.le_cursor ha
  have hcoherent : Coherent (projection.rows ++ projection.focusRows) := hread.coherent
  rw [ingestSnapshot_json, Option.ite_none_right_eq_some, Option.map_eq_some_iff]
  simp only [CanonicalActivity.takeSnapshot_eq_some (h.ledger.authentic user) h.held hrows hcoherent
    hreached]
  constructor
  · rintro ⟨⟨⟨-, -, htruncated⟩, hreadable⟩, taken, ⟨hcomplete, hkept, retained, hretained, hpage,
      rfl⟩, rfl⟩
    exact ⟨⟨htruncated, hreadable⟩, hcomplete, hkept, retained, hretained, hpage, rfl⟩
  · rintro ⟨⟨htruncated, hreadable⟩, hcomplete, hkept, retained, hretained, hpage, rfl⟩
    exact ⟨⟨⟨⟨hread.small, hread.focus⟩, ⟨hread.before_safe hreadable, hread.more⟩,
      htruncated⟩, hreadable⟩, _, ⟨hcomplete, hkept, retained, hretained, hpage, rfl⟩, rfl⟩

/-- The versions of a user's records go on from those there were. -/
theorem publicVersions_prefix (history versions : List ActivityRecord) (user : String) :
    publicVersions history user <+: publicVersions (history ++ versions) user := by
  rw [publicVersions, publicVersions, userVersions, userVersions, List.filter_append,
    List.map_append]
  exact List.prefix_append _ _

/-- A taken page leaves versions of the records, and the cursor where it was or further. -/
theorem of_ingestPage (h : ActivityDelivering user history s) (hpage : page ∈ s.pages)
    (htaken : s.client.ingestPage page.json = some after) :
    Held (IsVersion (publicVersions history user)) after.records ∧
      s.client.deliveryCursor ≤ after.deliveryCursor := by
  obtain ⟨-, -, retained, hretained, rfl⟩ := (h.ingestPage_iff hpage).mp htaken
  obtain ⟨seen, cursor, hpre, hread, -⟩ := h.pages page hpage
  have hstaged := h.held.mergedPage (h.ledger.authentic user)
    (fun a ha => (hread.isVersion ha).mono hpre) s.client.deliveryCursor
  exact ⟨hstaged.of_retained hretained, le_max_left ..⟩

/-- A taken snapshot leaves versions of the records, and the cursor where it was or further. -/
theorem of_ingestSnapshot (h : ActivityDelivering user history s)
    (hsnapshot : projection ∈ s.snapshots)
    {taken : CanonicalActivitySnapshotPage × CanonicalActivity}
    (htaken : s.client.ingestSnapshot projection.json requireCompletePage = some taken) :
    Held (IsVersion (publicVersions history user)) taken.2.records ∧
      s.client.deliveryCursor ≤ taken.2.deliveryCursor := by
  obtain ⟨-, -, -, retained, hretained, -, rfl⟩ := (h.ingestSnapshot_iff hsnapshot).mp htaken
  obtain ⟨seen, hpre, hread⟩ := h.snapshots projection hsnapshot
  have hstaged : Held (IsVersion (publicVersions history user))
      (s.client.stagedSnapshot projection.snapshotCursor projection.delivered) :=
    List.foldlRecOn (motive := Held _) _ putLatest (CanonicalActivity.held_pruned h.held)
      fun _ hu a ha => hu.putLatest (h.ledger.authentic user) ((hread.isVersion ha).mono hpre)
  exact ⟨hstaged.of_retained hretained, le_max_left ..⟩

/-- A client that goes on from one of the states keeps what holds of the answers. -/
theorem withClient (h : ActivityDelivering user history s)
    (hheld : Held (IsVersion (publicVersions history user)) after.records)
    (hcursor : s.client.deliveryCursor ≤ after.deliveryCursor) :
    ActivityDelivering user history { s with client := after } where
  ledger := h.ledger
  held := hheld
  pages page hpage := by
    obtain ⟨seen, cursor, hpre, hread, hle⟩ := h.pages page hpage
    exact ⟨seen, cursor, hpre, hread, hle.trans hcursor⟩
  snapshots := h.snapshots

/-- A step keeps what holds of a run. -/
theorem step (h : ActivityDelivering user history s) (op : DeliveryStep) :
    ∃ versions, ActivityDelivering user (history ++ versions)
      (activityDeliveryStep rules user s op) := by
  have hsame : ∀ s', ActivityDelivering user history s' →
    ∃ versions, ActivityDelivering user (history ++ versions) s' :=
    fun s' h' => ⟨[], by rwa [List.append_nil]⟩
  cases op with
  | write op =>
    obtain ⟨versions, hstep⟩ := ledger_step rules h.ledger op
    have hgrows := publicVersions_prefix history versions user
    refine ⟨versions, hstep, fun r hr => (h.held r hr).mono hgrows, fun page hpage => ?_,
      fun projection hprojection => ?_⟩
    · obtain ⟨seen, cursor, hpre, hread, hle⟩ := h.pages page hpage
      exact ⟨seen, cursor, hpre.trans hgrows, hread, hle⟩
    · obtain ⟨seen, hpre, hread⟩ := h.snapshots projection hprojection
      exact ⟨seen, hpre.trans hgrows, hread⟩
  | answerPage cursor limit =>
    refine hsame _ ?_
    simp only [activityDeliveryStep]
    split
    · next hcursor =>
      cases hok : s.db.log.listActivity rules.publish user cursor limit with
      | error failure => exact h
      | ok page =>
        refine ⟨h.ledger, h.held, fun page' hpage => ?_, h.snapshots⟩
        rcases List.mem_append.mp hpage with hpage | hpage
        · exact h.pages page' hpage
        · obtain rfl := List.mem_singleton.mp hpage
          exact ⟨_, cursor, List.prefix_rfl, h.ledger.pageRead hok, hcursor⟩
    · exact h
  | answerSnapshot before limit =>
    refine hsame _ ?_
    simp only [activityDeliveryStep]
    cases hok : s.db.log.snapshotActivity rules.publish user before limit with
    | error failure => exact h
    | ok projection =>
      refine ⟨h.ledger, h.held, h.pages, fun projection' hprojection => ?_⟩
      rcases List.mem_append.mp hprojection with hprojection | hprojection
      · exact h.snapshots projection' hprojection
      · obtain rfl := List.mem_singleton.mp hprojection
        exact ⟨_, List.prefix_rfl, h.ledger.snapshotRead hok⟩
  | receivePage index =>
    refine hsame _ ?_
    simp only [activityDeliveryStep]
    cases hpage : s.pages[index]? with
    | none => exact h
    | some page =>
      dsimp only
      cases htaken : s.client.ingestPage page.json with
      | none => exact h
      | some after =>
        obtain ⟨hheld, hcursor⟩ := h.of_ingestPage (List.mem_of_getElem? hpage) htaken
        exact h.withClient hheld hcursor
  | receiveSnapshot index requireCompletePage =>
    refine hsame _ ?_
    simp only [activityDeliveryStep]
    cases hprojection : s.snapshots[index]? with
    | none => exact h
    | some projection =>
      dsimp only
      cases htaken : s.client.ingestSnapshot projection.json requireCompletePage with
      | none => exact h
      | some taken =>
        obtain ⟨hheld, hcursor⟩ := h.of_ingestSnapshot (List.mem_of_getElem? hprojection) htaken
        exact h.withClient hheld hcursor

/-- It holds of every reachable state. -/
theorem of_run (rules : ActivityStoreRules) (user : String) (steps : List DeliveryStep) :
    ∃ history,
      ActivityDelivering user history (run (activityDeliveryStep rules user) .initial steps) :=
  run_invariant' (I := fun s => ∃ history, ActivityDelivering user history s)
    (fun _ op ⟨history, h⟩ => by
      obtain ⟨versions, hstep⟩ := h.step op
      exact ⟨history ++ versions, hstep⟩)
    steps ⟨[], .nil, fun _ hr => absurd hr List.not_mem_nil, fun _ hp => absurd hp List.not_mem_nil,
      fun _ hp => absurd hp List.not_mem_nil⟩

end ActivityDelivering

/-- Authentic activity is taken in: in every reachable state, of a user's pages that the gateway has
answered and whose records and numbers the client takes by themselves, it takes those that keep the
identities that it holds and leave at most the focus records that it has room for, unless they
bring an earlier revision than it holds for a change that it has not seen, or repeat a change of a
record that it has dropped. Of the snapshots with all focus records it takes those that keep the
identities of what they leave and the room for focus records, and, where a complete page is asked
for, only those of which it has the changes and keeps the rows. -/
theorem authentic_activity_taken (rules : ActivityStoreRules) (user : String)
    (steps : List DeliveryStep) :
    let s := run (activityDeliveryStep rules user) .initial steps
    (∀ page ∈ s.pages, page.readable = true →
      (∀ a ∈ page.rows, s.client.deliveryCursor < a.deliverySequence →
        NotOlder s.client.records a) →
      (∀ a ∈ page.rows, a.deliverySequence ≤ s.client.deliveryCursor →
        KnownOr s.client.snapshotBaseline s.client.records a) →
      ((s.client.ingestPage page.json).isSome = true ↔
        (∀ a ∈ page.rows, IdentityKept s.client.records a) ∧
          (focusOf (s.client.staged page.rows).rows).length ≤ maxFocusRecords)) ∧
    (∀ projection ∈ s.snapshots, projection.readable = true → projection.focusTruncated = false →
      ∀ requireCompletePage,
      ((s.client.ingestSnapshot projection.json requireCompletePage).isSome = true ↔
        (∀ a ∈ projection.delivered,
          IdentityKept (s.client.pruned projection.snapshotCursor projection.delivered) a) ∧
        (focusOf (s.client.stagedSnapshot projection.snapshotCursor
          projection.delivered).rows).length ≤ maxFocusRecords ∧
        (requireCompletePage = true →
          (projection.snapshotCursor : ℤ) ≤ s.client.deliveryCursor ∧
          ∀ retained, retainedRecords (s.client.stagedSnapshot projection.snapshotCursor
            projection.delivered) = some retained →
          ∀ a ∈ projection.rows, a.id ∈ retained.map (·.id)))) := by
  intro s
  obtain ⟨history, h⟩ : ∃ history, ActivityDelivering user history s :=
    ActivityDelivering.of_run rules user steps
  constructor
  · intro page hpage hreadable holder hknown
    simp only [Option.isSome_iff_exists, h.ingestPage_iff hpage]
    constructor
    · rintro ⟨after, -, hfits, retained, hretained, -⟩
      exact ⟨hfits.identity, retainedRecords_isSome.mp ⟨retained, hretained⟩⟩
    · rintro ⟨hidentity, hroom⟩
      obtain ⟨retained, hretained⟩ := retainedRecords_isSome.mpr hroom
      exact ⟨_, hreadable, ⟨hidentity, hknown, holder⟩, retained, hretained, rfl⟩
  · intro projection hprojection hreadable htruncated requireCompletePage
    simp only [Option.isSome_iff_exists, h.ingestSnapshot_iff hprojection]
    constructor
    · rintro ⟨taken, -, hreached, hidentity, retained, hretained, hcomplete, -⟩
      refine ⟨hidentity, retainedRecords_isSome.mp ⟨retained, hretained⟩, fun hasked =>
        ⟨hreached hasked, fun retained' hretained' => ?_⟩⟩
      obtain rfl := Option.some.inj (hretained.symm.trans hretained')
      exact hcomplete hasked
    · rintro ⟨hidentity, hroom, hasked⟩
      obtain ⟨retained, hretained⟩ := retainedRecords_isSome.mpr hroom
      exact ⟨_, ⟨htruncated, hreadable⟩, fun h => (hasked h).1, hidentity, retained, hretained,
        fun h => (hasked h).2 retained hretained, rfl⟩

section Sample

/-- A fleet snapshot with the outcome of a task, under a summary. -/
def outcomeSnapshot (observedAt : ℕ) (summary : String) : ActivitySnapshot where
  observedAt
  snapshotSha256 := sampleHash observedAt
  records := [{ recordKey := "task:1", fields := outcomeFields summary }]
  openDecisionKeys := []

/-- The client receives an outcome, which is then revised: the gateway answers from its beginning
again. -/
def revisedAnswers : List DeliveryStep :=
  [.write (.reconcileSnapshot "user" "fleet" (outcomeSnapshot 1 "done") 1), .answerPage 0 10,
    .receivePage 0, .write (.reconcileSnapshot "user" "fleet" (outcomeSnapshot 2 "done again") 2),
    .answerPage 0 10]

/-- The client holds the first revision of the outcome; the page repeats its change with the second
one and brings the second change, and is taken. -/
theorem authentic_activity_taken_outcome :
    let s := run (activityDeliveryStep sampleStoreRules "user") .initial revisedAnswers
    s.client.records.rows.map (fun a => (a.revision, a.deliverySequence)) = [(1, 1)] ∧
      ∃ page ∈ s.pages, page.rows.map (fun a => (a.revision, a.deliverySequence)) =
        [(2, 1), (2, 2)] ∧ (s.client.ingestPage page.json).isSome = true := by
  have htaken := (authentic_activity_taken sampleStoreRules "user" revisedAnswers).1
  -- the run is evaluated once, and has a name from there on
  obtain ⟨s, hs, hheld, page, hpage, hrows, hreadable, hroom, hfound⟩ :
      ∃ s, s = run (activityDeliveryStep sampleStoreRules "user") .initial revisedAnswers ∧
        s.client.records.rows.map (fun a => (a.revision, a.deliverySequence)) = [(1, 1)] ∧
        ∃ page ∈ s.pages, page.rows.map (fun a => (a.revision, a.deliverySequence)) =
            [(2, 1), (2, 2)] ∧
          page.readable = true ∧
          (focusOf (s.client.staged page.rows).rows).length ≤ maxFocusRecords ∧
          ∀ a ∈ page.rows, s.client.records.find? a.id ≠ none ∧
            (s.client.records.find? a.id).all (fun p =>
              p.revision ≤ a.revision ∧ p.identity = a.identity) = true :=
    ⟨_, rfl, by decide +kernel⟩
  rw [← hs] at htaken ⊢
  have hkept : ∀ a ∈ page.rows, ∀ p, s.client.records.find? a.id = some p →
      p.revision ≤ a.revision ∧ p.identity = a.identity := by
    intro a ha p hp
    have hall := (hfound a ha).2
    rw [hp] at hall
    exact of_decide_eq_true hall
  exact ⟨hheld, page, hpage, hrows, (htaken page hpage hreadable
    (fun a ha _ p hp => (hkept a ha p hp).1)
    (fun a ha _ hnone => absurd hnone (hfound a ha).1)).mpr
      ⟨fun a ha p hp => (hkept a ha p hp).2, hroom⟩⟩

/-- The first outcome of a branch is published, and the gateway answers with it. -/
def outcomeAnswers : List DeliveryStep :=
  outcomeSteps.map .write ++ [.answerPage 0 10, .answerSnapshot none 10]

/-- A snapshot that was asked for as a complete page is refused when the client does not have its
changes. -/
theorem authentic_snapshot_refused :
    let s := run (activityDeliveryStep sampleStoreRules "user") .initial outcomeAnswers
    ∃ projection, s.snapshots = [projection] ∧ projection.readable = true ∧
      projection.focusTruncated = false ∧ projection.focusRecords.length ≤ 5000 ∧
      (s.client.ingestSnapshot projection.json true).isSome = false := by
  refine ⟨_, rfl, ?_⟩
  decide +kernel

end Sample

end Magistrate
