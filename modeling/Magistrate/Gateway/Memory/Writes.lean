import Magistrate.Core.Versions
import Magistrate.Gateway.Memory.Store

/-!
# Writes to the memory

A write puts one version of an entry in the place of the one before it, with a row of its
revision, its terms and a record of the audit. Whatever happens to the memory is such a
write, or leaves these tables alone.
-/

namespace Magistrate

/-- What happens to the memory. -/
inductive MemoryStep where
  | put (owner : String) (scope : MemoryScope) (request : MemoryPut) (now : ℤ)
  | delete (owner : String) (scope : MemoryScope) (entryId actor : String) (now : ℤ)
  | search (owner : String) (scope : MemoryScope) (request : MemorySearch) (draw : SearchDraw)

/-- The owner and the scope of a step. -/
def MemoryStep.place : MemoryStep → String × MemoryScope
  | put owner scope _ _ | delete owner scope _ _ _ | search owner scope _ _ => (owner, scope)

/-- The owner and the scope that an entry is in. -/
def MemoryEntry.place (e : MemoryEntry) : String × MemoryScope := (e.ownerUserId, e.scope)

/-- The owner and the scope whose audit a record is in. -/
def MemoryAudit.place (r : MemoryAudit) : String × MemoryScope := (r.ownerUserId, r.scope)

/-- The terms that the index has for an entry: none if it is deleted. -/
def MemoryEntry.terms (rules : MemoryRules) (e : MemoryEntry) : List String :=
  if e.deletedAt = none then rules.tokens (e.title ++ "\n" ++ e.content) else []

/-- What the last revision of an entry keeps of it. -/
def MemoryEntry.snapshot (e : MemoryEntry) : MemorySnapshot :=
  if e.deletedAt = none then
    .written e.kind e.title e.content e.importance e.sourceKind e.sourceId
  else .deleted

namespace ProjectMemory

/-- The memory without entries. -/
def initial : ProjectMemory := ⟨.empty, .empty, .empty, .empty, .empty⟩

/-- The memory after a step. -/
def step (rules : MemoryRules) (s : ProjectMemory) : MemoryStep → ProjectMemory
  | .put owner scope request now => commit (stateOf (s.put rules owner scope request now)) s
  | .delete owner scope entryId actor now =>
    commit (s.delete rules owner scope entryId actor now) s
  | .search owner scope request draw =>
    commit (stateOf (s.search rules owner scope request draw)) s

/-- What the audit calls a write. -/
def operationOf (before : Option MemoryEntry) (e : MemoryEntry) : String :=
  if e.deletedAt = none then before.elim "created" fun _ => "updated" else "deleted"

/-- The record of a revision that the audit of a scope goes on with. -/
def nextAudit (rules : MemoryRules) (s : ProjectMemory) (place : String × MemoryScope)
    (operation : String) (row : MemoryRevision) : MemoryAudit :=
  let last := s.lastSequence place.1 place.2
  let event : MemoryEvent := ⟨last + 1, row.entryId, row.revision, operation, row.actorSessionId,
    row.contentSha256, row.createdAt,
    (s.audit.find? (place.1, place.2, last)).elim "" (·.eventSha256)⟩
  ⟨place.1, place.2, event, rules.eventHash event⟩

/-- An entry takes the place of the one before it. -/
structure Writes (rules : MemoryRules) (before : Option MemoryEntry) (e : MemoryEntry)
    (row : MemoryRevision) (s s' : ProjectMemory) : Prop where
  found : s.entries.find? e.entryId = before
  entries : ∀ k, s'.entries.find? k = if e.entryId = k then some e else s.entries.find? k
  next : e.revision = before.elim 0 MemoryEntry.revision + 1
  live : ∀ b ∈ before, b.deletedAt = none ∧ b.place = e.place
  kept : e.deletedAt = none → e.revision < maxMemoryRevisionsPerEntry
  few : ∀ owner scope, s'.liveIn owner scope ≤ max maxMemoryEntriesPerScope (s.liveIn owner scope)
  recorded : row.entryId = e.entryId ∧ row.revision = e.revision ∧ row.snapshot = e.snapshot
  revisions : s'.revisions.rows = s.revisions.rows ++ [row]
  terms : ∀ t, t ∈ s'.terms.rows ↔
    if t.entryId = e.entryId then t.term ∈ e.terms rules else t ∈ s.terms.rows
  audit : s'.audit.rows = s.audit.rows ++ [s.nextAudit rules e.place (operationOf before e) row]

section Writing

variable {rules : MemoryRules} {owner : String} {scope : MemoryScope} {s s' : ProjectMemory}
  {entryId operation actor hash : String} {revision : ℕ} {now : ℤ} {row : MemoryRevision}

theorem appendAudit_eq_ok (row : MemoryRevision)
    (h : s.appendAudit rules owner scope row.entryId row.revision operation row.actorSessionId
      row.contentSha256 row.createdAt = .ok s') :
    s'.entries = s.entries ∧ s'.terms = s.terms ∧ s'.revisions = s.revisions ∧
      s'.audit.rows = s.audit.rows ++ [s.nextAudit rules (owner, scope) operation row] := by
  simp only [appendAudit, bind_eq_ok, raiseIf_eq_ok, pure_eq_ok, not_not, exists_const] at h
  obtain ⟨hfree, -, rfl⟩ := h
  exact ⟨rfl, rfl, rfl, Table.rows_insertOrIgnore hfree⟩

theorem nextAudit_congr (h : s'.audit = s.audit) (place : String × MemoryScope) :
    s'.nextAudit rules place operation row = s.nextAudit rules place operation row := by
  simp only [nextAudit, lastSequence, auditOf, h]

theorem insertRevision_eq_ok (h : s.insertRevision row = .ok s') :
    s'.revisions.rows = s.revisions.rows ++ [row] ∧ s'.entries = s.entries ∧ s'.terms = s.terms ∧
      s'.audit = s.audit := by
  simp only [insertRevision, bind_eq_ok, raiseIf_eq_ok, pure_eq_ok, not_not, exists_const] at h
  obtain ⟨hfree, rfl⟩ := h
  exact ⟨Table.rows_insertOrIgnore hfree, rfl, rfl, rfl⟩

/-- A loop that inserts terms adds them. -/
theorem insertTerms_eq_ok {terms : List MemoryTerm} (h : terms.foldlM insertTerm s = .ok s') :
    (∀ t, t ∈ s'.terms.rows ↔ t ∈ s.terms.rows ∨ t ∈ terms) ∧ s'.entries = s.entries ∧
      s'.revisions = s.revisions ∧ s'.audit = s.audit := by
  induction terms generalizing s with
  | nil =>
    obtain rfl := pure_eq_ok.mp h
    simp
  | cons term terms ih =>
    rw [List.foldlM_cons] at h
    obtain ⟨mid, hfirst, hrest⟩ := bind_eq_ok.mp h
    simp only [insertTerm, bind_eq_ok, raiseIf_eq_ok, pure_eq_ok, not_not, exists_const] at hfirst
    obtain ⟨hfree, rfl⟩ := hfirst
    obtain ⟨hmem, hsame⟩ := ih hrest
    refine ⟨fun t => ?_, hsame⟩
    rw [hmem, Table.rows_insertOrIgnore hfree]
    simp [or_assoc]

/-- The terms of an entry take the place of those that were there. -/
theorem mem_rewritten {value : String}
    (h : ((rules.tokens value).map fun term => ⟨entryId, term⟩).foldlM insertTerm
      (s.dropTerms entryId) = .ok s') (t : MemoryTerm) :
    t ∈ s'.terms.rows ↔
      if t.entryId = entryId then t.term ∈ rules.tokens value else t ∈ s.terms.rows := by
  rw [(insertTerms_eq_ok h).1, dropTerms, Table.filter, List.mem_filter, List.mem_map]
  obtain ⟨id, term⟩ := t
  by_cases hid : id = entryId
  · simp [hid]
  · simp [hid, Ne.symm hid]

/-- An entry that is found is replaced. -/
theorem find?_updateEntry {f : MemoryEntry → MemoryEntry} {b : MemoryEntry}
    (h : s.entries.find? b.entryId = some b) (hf : ∀ e, (f e).entryId = e.entryId) (k : String) :
    (s.entries.update b.entryId f hf).find? k =
      if b.entryId = k then some (f b) else s.entries.find? k := by
  rw [Table.find?_update]
  by_cases hk : k = b.entryId
  · subst hk
    simp [h]
  · simp [hk, Ne.symm hk]

/-- A version of a live entry does not add to the live entries of any scope. -/
theorem liveIn_updateEntry {f : MemoryEntry → MemoryEntry} {b : MemoryEntry}
    (h : s.entries.find? b.entryId = some b) (hlive : b.deletedAt = none)
    (hf : ∀ e, (f e).entryId = e.entryId) (hplace : (f b).place = b.place)
    (hentries : s'.entries = s.entries.update b.entryId f hf) (owner : String)
    (scope : MemoryScope) :
    s'.liveIn owner scope ≤ max maxMemoryEntriesPerScope (s.liveIn owner scope) := by
  refine le_trans ?_ (le_max_right ..)
  obtain ⟨howner, hscope⟩ := Prod.mk.inj hplace
  rw [liveIn, liveIn, hentries]
  refine Table.countP_update_le_of (fun r hr hp => ?_) hf
  obtain rfl : b = r := Option.some.inj (h.symm.trans hr)
  rw [decide_eq_true_eq] at hp ⊢
  exact ⟨howner.symm.trans hp.1, hscope.symm.trans hp.2.1, hlive⟩

/-- What `put` writes besides the entry. -/
theorem recordPut_eq_ok {request : MemoryPut}
    (h : s.recordPut rules owner scope request revision operation now = .ok s') :
    s'.entries = s.entries ∧
    (∀ t, t ∈ s'.terms.rows ↔ if t.entryId = rules.entryId owner scope request.memoryKey then
      t.term ∈ rules.tokens (request.title ++ "\n" ++ request.content) else t ∈ s.terms.rows) ∧
    ∃ row : MemoryRevision, (row.entryId = rules.entryId owner scope request.memoryKey ∧
        row.revision = revision ∧ row.snapshot = request.snapshot) ∧
      s'.revisions.rows = s.revisions.rows ++ [row] ∧
      s'.audit.rows = s.audit.rows ++ [s.nextAudit rules (owner, scope) operation row] := by
  simp only [recordPut, bind_eq_ok] at h
  obtain ⟨revised, hrevised, indexed, hindexed, haudited⟩ := h
  obtain ⟨hrow, hentries, hterms, haudit⟩ := insertRevision_eq_ok hrevised
  obtain ⟨-, hentries', hrevisions', haudit'⟩ := insertTerms_eq_ok hindexed
  set row : MemoryRevision := ⟨rules.entryId owner scope request.memoryKey, revision,
    request.snapshot, rules.entryHash request.snapshot, request.actorSessionId, now⟩
  obtain ⟨hentries'', hterms'', hrevisions'', hrecord⟩ := appendAudit_eq_ok row haudited
  have hkept : indexed.audit = s.audit := haudit'.trans haudit
  refine ⟨hentries''.trans (hentries'.trans hentries), fun t => ?_, row, ⟨rfl, rfl, rfl⟩, ?_, ?_⟩
  · rw [hterms'', mem_rewritten hindexed, hterms]
  · rw [hrevisions'', hrevisions']
    exact hrow
  · rw [hrecord, nextAudit_congr hkept, hkept]

/-- A put of a new identity writes a first version. -/
theorem putNew_writes {request : MemoryPut}
    (h : s.putNew rules owner scope request now = .ok s') :
    ∃ row, Writes rules none (newEntry rules owner scope request now) row s s' := by
  simp only [putNew, insertEntry, bind_eq_ok, raiseIf_eq_ok, pure_eq_ok, not_not,
    exists_const] at h
  obtain ⟨hroom, _, ⟨hfree, -, rfl⟩, hrecord⟩ := h
  obtain ⟨hentries, hterms, row, hrow, hrevisions, haudit⟩ := recordPut_eq_ok hrecord
  refine ⟨row, hfree, fun k => ?_, rfl, by simp, fun _ => (by decide : 1 < 100),
    fun owner' scope' => ?_, hrow, hrevisions, hterms, haudit⟩
  · rw [hentries, Table.find?_insertOrIgnore]
    by_cases hk : (newEntry rules owner scope request now).entryId = k
    · subst hk
      simp [hfree]
    · simp [hk]
  · rw [liveIn, hentries, Table.rows_insertOrIgnore hfree, List.countP_append, ← liveIn,
      List.countP_singleton]
    split
    next hsame =>
      obtain ⟨rfl, rfl, -⟩ := of_decide_eq_true hsame
      exact le_max_of_le_left (not_le.mp hroom)
    next => exact le_max_right ..

/-- A put of an identity that is there leaves the memory as it is, or writes a later version. -/
theorem putExisting_writes {request : MemoryPut} {b : MemoryEntry}
    (hfound : s.entries.find? (rules.entryId owner scope request.memoryKey) = some b)
    (howner : b.ownerUserId = owner)
    (h : s.putExisting rules owner scope request now b = .ok s') :
    s' = s ∨ b.place = (owner, scope) ∧
      ∃ row, Writes rules (some b) (revisedEntry rules request now b) row s s' := by
  simp only [putExisting, bind_eq_ok, raiseIf_eq_ok, exists_const] at h
  obtain ⟨hsame, hlive, h⟩ := h
  split at h
  · exact .inl (pure_eq_ok.mp h).symm
  · right
    simp only [bind_eq_ok, raiseIf_eq_ok, exists_const, not_not, not_or] at h hsame hlive
    obtain ⟨-, hcap, hrecord⟩ := h
    obtain ⟨hentries, hterms, row, hrow, hrevisions, haudit⟩ := recordPut_eq_ok hrecord
    have hid : b.entryId = rules.entryId owner scope request.memoryKey :=
      (Table.mem_of_find? hfound).2
    have hplace : b.place = (owner, scope) := Prod.ext howner hsame.1
    have hsnapshot : (revisedEntry rules request now b).snapshot = request.snapshot := if_pos hlive
    have hindex : (revisedEntry rules request now b).terms rules =
        rules.tokens (request.title ++ "\n" ++ request.content) := if_pos hlive
    have hoperation : operationOf (some b) (revisedEntry rules request now b) = "updated" :=
      if_pos hlive
    rw [← hid] at hfound hterms hrow
    refine ⟨hplace, row, hfound, fun k => ?_, rfl, ?_, fun _ => not_le.mp hcap,
      liveIn_updateEntry (f := revisedEntry rules request now) hfound hlive (fun _ => rfl) rfl
        hentries, hsnapshot ▸ hrow, hrevisions, hindex ▸ hterms, ?_⟩
    · rw [hentries]
      exact find?_updateEntry (f := revisedEntry rules request now) hfound (fun _ => rfl) k
    · rintro _ ⟨⟩
      exact ⟨hlive, rfl⟩
    · rw [hoperation]
      exact hplace ▸ haudit

/-- A put leaves the memory as it is, or writes a new entry, or a later version of a live one. -/
theorem put_cases {request : MemoryPut} {shown : PublicMemory}
    (h : s.put rules owner scope request now = .ok (shown, s')) :
    s' = s ∨ ∃ before e row, e.place = (owner, scope) ∧ Writes rules before e row s s' := by
  simp only [put, bind_eq_ok] at h
  obtain ⟨-, -, h⟩ := h
  split at h
  next hmissing =>
    simp only [bind_eq_ok, pure_eq_ok, Prod.mk.injEq] at h
    obtain ⟨_, hwritten, _, -, -, rfl⟩ := h
    obtain ⟨row, hwrites⟩ := putNew_writes hwritten
    exact .inr ⟨_, _, row, rfl, hwrites⟩
  next existing hexisting =>
    simp only [bind_eq_ok, pure_eq_ok, Prod.mk.injEq] at h
    obtain ⟨_, hwritten, _, -, -, rfl⟩ := h
    obtain ⟨hfound, howner⟩ := Option.filter_eq_some_iff.mp hexisting
    refine (putExisting_writes hfound (of_decide_eq_true howner) hwritten).imp_right ?_
    rintro ⟨hplace, row, hwrites⟩
    exact ⟨_, revisedEntry rules request now existing, row, hplace, hwrites⟩

/-- A deletion that returns marks a live entry of its scope. -/
theorem delete_cases (h : s.delete rules owner scope entryId actor now = .ok s') :
    ∃ b row, b.place = (owner, scope) ∧ Writes rules (some b) (deletedEntry now b) row s s' := by
  simp only [delete, bind_eq_ok, raiseIf_eq_ok, orRaise_eq_ok, exists_const] at h
  obtain ⟨_, -, -, -, b, hb, revised, hrevised, haudited⟩ := h
  obtain ⟨hfound, hlive⟩ := Option.filter_eq_some_iff.mp hb
  obtain ⟨howner, hscope, hlive⟩ := of_decide_eq_true hlive
  have hid : b.entryId = entryId := (Table.mem_of_find? hfound).2
  subst hid
  set row : MemoryRevision := ⟨b.entryId, b.revision + 1, .deleted,
    rules.tombstoneHash b.entryId (b.revision + 1) b.contentSha256, actor, now⟩
  obtain ⟨hrow, hentries, hterms, haudit⟩ := insertRevision_eq_ok hrevised
  obtain ⟨hentries', hterms', hrevisions, hrecord⟩ := appendAudit_eq_ok row haudited
  have hplace : b.place = (owner, scope) := Prod.ext howner hscope
  refine ⟨b, row, hplace, hfound, fun k => ?_, rfl, ?_, by simp [deletedEntry],
    liveIn_updateEntry (f := deletedEntry now) hfound hlive (fun _ => rfl) rfl
      (hentries'.trans hentries), ⟨rfl, rfl, rfl⟩,
    hrevisions ▸ hrow, fun t => ?_, ?_⟩
  · rw [hentries', hentries]
    exact find?_updateEntry (f := deletedEntry now) hfound (fun _ => rfl) k
  · rintro _ ⟨⟩
    exact ⟨hlive, rfl⟩
  · rw [hterms', hterms, dropTerms, Table.filter, List.mem_filter]
    by_cases ht : t.entryId = b.entryId
    · simp [ht, deletedEntry, MemoryEntry.terms]
    · simp [ht, deletedEntry]
  · rw [hrecord, nextAudit_congr haudit, haudit, ← hplace]
    rfl

/-- A step leaves these tables alone, or it writes in its own scope. -/
theorem step_cases (rules : MemoryRules) (s : ProjectMemory) (op : MemoryStep) :
    (∃ retrievals, s.step rules op = { s with retrievals }) ∨
      ∃ before e row, e.place = op.place ∧ Writes rules before e row s (s.step rules op) := by
  cases op with
  | put owner scope request now =>
    simp only [step]
    cases hput : s.put rules owner scope request now with
    | error e => exact .inl ⟨_, rfl⟩
    | ok result =>
      rcases put_cases hput with hsame | ⟨before, e, row, hplace, hwrites⟩
      · exact .inl ⟨_, hsame⟩
      · exact .inr ⟨before, e, row, hplace, hwrites⟩
  | delete owner scope entryId actor now =>
    simp only [step]
    cases hdelete : s.delete rules owner scope entryId actor now with
    | error e => exact .inl ⟨_, rfl⟩
    | ok result =>
      obtain ⟨b, row, hplace, hwrites⟩ := delete_cases hdelete
      exact .inr ⟨some b, deletedEntry now b, row, hplace, hwrites⟩
  | search owner scope request draw =>
    left
    simp only [step]
    cases hsearch : s.search rules owner scope request draw with
    | error e => exact ⟨_, rfl⟩
    | ok result =>
      simp only [search, bind_eq_ok, raiseIf_eq_ok, pure_eq_ok, exists_const] at hsearch
      obtain ⟨_, -, -, rfl⟩ := hsearch
      exact ⟨_, rfl⟩

end Writing

end ProjectMemory

end Magistrate
