import Magistrate.Gateway.Memory.Store

/-!
# Exactness of the memory search

A search ranks the candidates that a bounded query selects in an order of its own. It returns
the first entries of the plain ranking exactly when none of them is past that bound.
-/

namespace Magistrate

namespace ProjectMemory

variable {rules : MemoryRules} {owner : String} {scope : MemoryScope} {request : MemorySearch}
  {s s' : ProjectMemory} {draw : SearchDraw} {now : ℤ} {found : List PublicMemory}

/-- The first of all matching entries in the order that a search ranks them in. -/
def topMatches (rules : MemoryRules) (owner : String) (scope : MemoryScope)
    (request : MemorySearch) (now : ℤ) (s : ProjectMemory) : List MemoryEntry :=
  topRows (s.rankKey rules scope request now) request.limit.toNat
    (s.matching rules owner scope request)

/-- The matching entries in the order of the query that selects the candidates. -/
def candidateOrder (rules : MemoryRules) (owner : String) (scope : MemoryScope)
    (request : MemorySearch) (draw : SearchDraw) (s : ProjectMemory) : List MemoryEntry :=
  rankRows (s.candidateKey rules request draw) (s.matching rules owner scope request)

theorem entries_nodup (s : ProjectMemory) : s.entries.rows.Nodup := s.entries.unique.of_map _

theorem mem_entries_of_matching {e : MemoryEntry} (h : e ∈ s.matching rules owner scope request) :
    e ∈ s.entries.rows := List.mem_of_mem_filter h

theorem matching_nodup : (s.matching rules owner scope request).Nodup := s.entries_nodup.filter _

/-- The ids tell the ranked entries apart. -/
theorem eq_of_rankKey {e f : MemoryEntry} (he : e ∈ s.matching rules owner scope request)
    (hf : f ∈ s.matching rules owner scope request)
    (h : s.rankKey rules scope request now e = s.rankKey rules scope request now f) : e = f := by
  simp only [rankKey, EmbeddingLike.apply_eq_iff_eq, Prod.mk.injEq] at h
  exact s.entries.eq_of_mem (mem_entries_of_matching he) (mem_entries_of_matching hf) h.2.2

/-- A search that returns has selected what it returns. -/
theorem found_of_search (h : s.search rules owner scope request draw = .ok (found, s')) :
    found = (s.selected rules owner scope request draw).map
      (s.foundEntry rules scope request draw.now) := by
  simp only [search, bind_eq_ok, raiseIf_eq_ok, pure_eq_ok, Prod.mk.injEq] at h
  obtain ⟨-, -, -, -, rfl, -⟩ := h
  rfl

/-- Entries of the memory that are shown alike are the same entries. -/
theorem map_foundEntry_inj {l l' : List MemoryEntry} (hl : l ⊆ s.entries.rows)
    (hl' : l' ⊆ s.entries.rows)
    (h : l.map (s.foundEntry rules scope request now) =
      l'.map (s.foundEntry rules scope request now)) :
    l = l' := by
  have hids : l.map MemoryEntry.entryId = l'.map MemoryEntry.entryId := by
    simpa [Function.comp_def, foundEntry, MemoryEntry.public] using
      congrArg (List.map PublicMemory.id) h
  induction l generalizing l' with
  | nil =>
    rw [List.map_nil] at hids
    exact (List.map_eq_nil_iff.mp hids.symm).symm
  | cons e l ih =>
    cases l' with
    | nil => cases hids
    | cons e' l' =>
      simp only [List.map_cons, List.cons.injEq] at hids h
      rw [List.cons_subset] at hl hl'
      rw [s.entries.eq_of_mem hl.1 hl'.1 hids.1, ih hl.2 hl'.2 h.2 hids.2]

/-- The selected entries are the first of all matching ones exactly when the candidates have
these. -/
theorem selected_eq_topMatches_iff :
    s.selected rules owner scope request draw = s.topMatches rules owner scope request draw.now ↔
      ∀ e ∈ s.topMatches rules owner scope request draw.now,
        (s.candidateOrder rules owner scope request draw).idxOf e < maxMemorySearchCandidates :=
  topRows_topRows_iff matching_nodup fun _ he _ hf => eq_of_rankKey he hf

theorem found_eq_topMatches_iff (h : s.search rules owner scope request draw = .ok (found, s')) :
    found = (s.topMatches rules owner scope request draw.now).map
        (s.foundEntry rules scope request draw.now) ↔
      s.selected rules owner scope request draw =
        s.topMatches rules owner scope request draw.now := by
  rw [found_of_search h]
  refine ⟨fun heq => ?_, fun heq => congrArg _ heq⟩
  refine map_foundEntry_inj (fun e he => ?_) (fun e he => ?_) heq
  · exact mem_entries_of_matching (mem_of_mem_topRows (mem_of_mem_topRows he))
  · exact mem_entries_of_matching (mem_of_mem_topRows he)

/-- The terms that the index has for a list of live entries. -/
def indexOf (rules : MemoryRules) (entries : List MemoryEntry) : List MemoryTerm :=
  entries.flatMap fun e =>
    (rules.tokens (e.title ++ "\n" ++ e.content)).map fun term => ⟨e.entryId, term⟩

theorem tokens_nodup (rules : MemoryRules) (value : String) : (rules.tokens value).Nodup :=
  (List.nodup_reverse.mpr (List.nodup_dedup _)).sublist (List.take_sublist _ _)

theorem indexOf_nodup {entries : List MemoryEntry} (h : (entries.map MemoryEntry.entryId).Nodup) :
    ((indexOf rules entries).map id).Nodup := by
  rw [List.map_id, indexOf, List.nodup_flatMap]
  refine ⟨fun e _ => (tokens_nodup rules _).map fun a b hab => by cases hab; rfl, ?_⟩
  refine (List.pairwise_map.mp h).imp fun hne => ?_
  simp only [Function.onFun, List.disjoint_left, List.mem_map, not_exists, not_and]
  rintro _ ⟨term, -, rfl⟩ term' - hterm
  exact hne (MemoryTerm.mk.inj hterm).1.symm

/-- The memory that has these live entries. -/
def ofEntries (rules : MemoryRules) (entries : Table MemoryEntry.entryId) : ProjectMemory where
  entries := entries
  terms := ⟨indexOf rules entries.rows, indexOf_nodup entries.unique⟩
  revisions := .empty
  audit := .empty
  retrievals := .empty

end ProjectMemory

section Example

open ProjectMemory

/-- The first forty digits of the hash of one owner, and the digits of a number for every other
text. -/
def digest (text : String) : List Char := Nat.toDigits 16 <|
  if text = "user_1" then 0x79b0aa0042b3c05617c378046a6553ec2cd81e99
  else 2 ^ 159 + text.toByteArray.data.toList.foldl (fun n b => 31 * n + b.toNat) 0 % 2 ^ 159

/-- Letters of ASCII, these hashes, and texts for the other hashes. -/
def asciiMemoryRules : MemoryRules where
  isOther c := decide (c.toNat < 32 ∨ c.toNat = 127)
  isWord c := c.isAlphanum || c == '_'
  strip text := text
  normalize text := text
  casefold text := String.ofList (text.toList.map Char.toLower)
  sensitive _ := false
  sha256 text := String.ofList (digest text)
  tombstoneHash entryId revision contentSha256 :=
    "deleted:" ++ entryId ++ ":" ++ revision.repr ++ ":" ++ contentSha256
  entryHash
    | .written kind title content importance sourceKind sourceId =>
      ":".intercalate [kind, title, content, importance.repr, sourceKind, sourceId]
    | .deleted => "deleted"
  eventHash e := ":".intercalate [e.sequence.repr, e.entryId, e.revision.repr, e.operation,
    e.actorSessionId, e.contentSha256, e.occurredAt.repr, e.previousEventSha256]

def rolloutScope : MemoryScope :=
  ⟨asciiMemoryRules.tenantOf "user_1", "personal", "default", "Magistrate", ""⟩

def noteId (week : ℕ) : String :=
  "pmem_0000000000000" ++ (week + 100).repr

def planId : String := "pmem_ffffffffffffffff"

/-- The weekly notes on the rollout. -/
def rolloutNote (week : ℕ) : MemoryEntry where
  entryId := noteId week
  ownerUserId := "user_1"
  scope := rolloutScope
  memoryKey := "note-" ++ week.repr
  kind := "conversation-fact"
  title := "Weekly report"
  content := "Status rollout"
  importance := 5
  sourceKind := "user"
  sourceId := "explicit"
  revision := 1
  contentSha256 := ""
  createdAt := 0
  updatedAt := 0
  deletedAt := none

/-- An entry of little importance with the word in its title. -/
def rolloutPlan : MemoryEntry :=
  { rolloutNote 0 with
    entryId := planId
    memoryKey := "plan"
    title := "Rollout"
    content := "Schedule"
    importance := 1 }

theorem noteId_inj {week week' : ℕ} (h : noteId week = noteId week') : week = week' := by
  have hrepr := (String.append_right_inj _).mp h
  have hcount := congrArg (fun text => Nat.ofDigitChars 10 text.toList 0) hrepr
  simp only [Nat.toList_repr, Nat.ofDigitChars_ten_toDigits] at hcount
  omega

theorem noteId_ne_planId (week : ℕ) : noteId week ≠ planId := by
  intro h
  have hid : "pmem_0000000000000" ++ (week + 100).repr = "pmem_ffffffffffffffff" := h
  have hchars := congrArg String.toList hid
  simp only [String.toList_append, String.reduceToList, List.cons_append, List.cons.injEq,
    Char.reduceEq, false_and, and_false] at hchars

theorem rollout_unique (weeks : ℕ) :
    ((rolloutPlan :: (List.range weeks).map rolloutNote).map MemoryEntry.entryId).Nodup := by
  have hnotes : ((List.range weeks).map rolloutNote).Pairwise fun e f => e.entryId ≠ f.entryId :=
    List.pairwise_map.mpr (List.nodup_range.imp fun hne h => hne (noteId_inj h))
  refine List.pairwise_map.mpr (List.pairwise_cons.mpr ⟨fun e he => ?_, hnotes⟩)
  obtain ⟨week, -, rfl⟩ := List.mem_map.mp he
  exact (noteId_ne_planId week).symm

/-- A plan and the notes of some weeks. -/
def rolloutMemory (weeks : ℕ) : ProjectMemory := .ofEntries asciiMemoryRules
  ⟨rolloutPlan :: (List.range weeks).map rolloutNote, rollout_unique weeks⟩

/-- The search for the best entry on the rollout. -/
def rolloutSearch : MemorySearch := { query := "rollout", limit := 1 }

def rolloutDraw : SearchDraw := ⟨0, "pmr_0", fun _ => 0⟩

section Rollout

variable {weeks : ℕ} {e : MemoryEntry}

theorem tokens_rollout : asciiMemoryRules.tokens "rollout" = ["rollout"] := by
  decide

theorem tokens_planTitle : asciiMemoryRules.tokens "Rollout" = ["rollout"] := by
  decide

theorem tokens_noteTitle : asciiMemoryRules.tokens "Weekly report" = ["weekly", "report"] := by
  decide

theorem tokens_plan : asciiMemoryRules.tokens ("Rollout" ++ "\n" ++ "Schedule") =
    ["rollout", "schedule"] := by
  decide

theorem tokens_note : asciiMemoryRules.tokens ("Weekly report" ++ "\n" ++ "Status rollout") =
    ["weekly", "report", "status", "rollout"] := by
  decide

theorem mem_rolloutMemory :
    e ∈ (rolloutMemory weeks).entries.rows ↔ e = rolloutPlan ∨
      ∃ week < weeks, rolloutNote week = e := by
  simp [rolloutMemory, ofEntries]

/-- Every entry has the term of the search. -/
theorem rollout_matched (he : e ∈ (rolloutMemory weeks).entries.rows) :
    (rolloutMemory weeks).matchedTerms asciiMemoryRules rolloutSearch e = 1 := by
  have hterm : "rollout" ∈ asciiMemoryRules.tokens (e.title ++ "\n" ++ e.content) := by
    rcases mem_rolloutMemory.mp he with rfl | ⟨week, -, rfl⟩
    · exact tokens_plan ▸ List.mem_cons_self
    · exact tokens_note ▸ by simp
  have hindex : (⟨e.entryId, "rollout"⟩ : MemoryTerm) ∈ (rolloutMemory weeks).terms.rows :=
    List.mem_flatMap.mpr ⟨e, he, List.mem_map.mpr ⟨_, hterm, rfl⟩⟩
  simp only [matchedTerms, rolloutSearch, tokens_rollout, List.countP_singleton, hindex,
    decide_true, if_true]

/-- The search matches every entry. -/
theorem rollout_matching : (rolloutMemory weeks).matching asciiMemoryRules "user_1" rolloutScope
    rolloutSearch = (rolloutMemory weeks).entries.rows := by
  rw [matching, List.filter_eq_self]
  intro e he
  rw [decide_eq_true_eq, rollout_matched he]
  rcases mem_rolloutMemory.mp he with rfl | ⟨week, -, rfl⟩
  · exact ⟨rfl, rfl, rfl, rfl, rfl, .inl rfl, rfl, List.mem_of_elem_eq_true rfl, Nat.one_pos⟩
  · exact ⟨rfl, rfl, rfl, rfl, rfl, .inl rfl, rfl, List.mem_of_elem_eq_true rfl, Nat.one_pos⟩

/-- The title of the plan has the term, and those of the notes have not. -/
theorem rollout_score (he : e ∈ (rolloutMemory weeks).entries.rows) :
    (rolloutMemory weeks).score asciiMemoryRules rolloutScope rolloutSearch 0 e =
      if e = rolloutPlan then 131 else 126 := by
  have hmatched := rollout_matched he
  rcases mem_rolloutMemory.mp he with rfl | ⟨week, -, rfl⟩
  · have htitle : asciiMemoryRules.tokens rolloutPlan.title = ["rollout"] := tokens_planTitle
    simp only [score, hmatched, htitle]
    simp [rolloutSearch, tokens_rollout, rolloutScope, rolloutPlan, rolloutNote]
  · have htitle : asciiMemoryRules.tokens (rolloutNote week).title = ["weekly", "report"] :=
      tokens_noteTitle
    have hne : rolloutNote week ≠ rolloutPlan := fun h =>
      noteId_ne_planId week (congrArg MemoryEntry.entryId h)
    simp only [score, hmatched, htitle, hne, if_false]
    simp [rolloutSearch, tokens_rollout, rolloutScope, rolloutNote]

/-- The plan is the first of the plain ranking. -/
theorem plan_mem_topMatches : rolloutPlan ∈ (rolloutMemory weeks).topMatches
    asciiMemoryRules "user_1"
    rolloutScope rolloutSearch 0 := by
  have hplan : rolloutPlan ∈ (rolloutMemory weeks).entries.rows := mem_rolloutMemory.mpr (.inl rfl)
  rw [topMatches, rollout_matching]
  refine mem_topRows_of_few hplan ?_
  have hnone : (rolloutMemory weeks).entries.rows.countP (fun e => decide (e ≠ rolloutPlan ∧
      (rolloutMemory weeks).rankKey asciiMemoryRules rolloutScope rolloutSearch 0 rolloutPlan ≤
        (rolloutMemory weeks).rankKey asciiMemoryRules rolloutScope rolloutSearch 0 e)) = 0 := by
    refine List.countP_eq_zero.mpr fun e he => ?_
    rw [decide_eq_true_eq, not_and, not_le]
    intro hne
    have hless : (126 : ℤ) < 131 := by decide
    rw [rankKey, rankKey, rollout_score hplan, rollout_score he, if_pos rfl, if_neg hne,
      Prod.Lex.toLex_lt_toLex]
    exact .inl hless
  rw [hnone]
  exact Nat.one_pos

/-- Five hundred notes come before the plan in the order of the candidates. -/
theorem plan_not_mem_candidates : rolloutPlan ∉ (rolloutMemory 500).candidates asciiMemoryRules
    "user_1" rolloutScope rolloutSearch rolloutDraw := by
  rw [candidates, rollout_matching]
  refine not_mem_topRows ?_
  have hnotes : ∀ e ∈ (List.range 500).map rolloutNote, decide
      ((rolloutMemory 500).candidateKey asciiMemoryRules rolloutSearch rolloutDraw rolloutPlan <
        (rolloutMemory 500).candidateKey asciiMemoryRules rolloutSearch rolloutDraw e) = true := by
    intro e he
    have hplan : rolloutPlan ∈ (rolloutMemory 500).entries.rows := List.mem_cons_self
    have hentry : e ∈ (rolloutMemory 500).entries.rows := List.mem_cons_of_mem _ he
    obtain ⟨week, -, rfl⟩ := List.mem_map.mp he
    rw [decide_eq_true_eq, candidateKey, candidateKey, rollout_matched hplan,
      rollout_matched hentry, Prod.Lex.toLex_lt_toLex, Prod.Lex.toLex_lt_toLex]
    have hless : (1 : ℤ) < 5 := by decide
    exact .inr ⟨rfl, .inl hless⟩
  calc maxMemorySearchCandidates
      = ((List.range 500).map rolloutNote).length := by
        rw [List.length_map, List.length_range, maxMemorySearchCandidates]
    _ = ((List.range 500).map rolloutNote).countP _ := (List.countP_eq_length.mpr hnotes).symm
    _ ≤ (rolloutMemory 500).entries.rows.countP _ :=
        (List.sublist_cons_self rolloutPlan _).countP_le

theorem rollout_checked :
    checkSearch asciiMemoryRules "user_1" rolloutScope rolloutSearch = .ok () := by
  decide +kernel

/-- The search for the best entry returns. -/
theorem rollout_found (weeks : ℕ) : ∃ found s',
    (rolloutMemory weeks).search asciiMemoryRules "user_1"
    rolloutScope rolloutSearch rolloutDraw = .ok (found, s') := by
  have hfresh : ¬(rolloutMemory weeks).retrievals.find? rolloutDraw.retrievalId ≠ none :=
    not_not.mpr rfl
  rw [search, rollout_checked, ok_bind, raiseIf_ok hfresh, ok_bind]
  exact ⟨_, _, rfl⟩

end Rollout

/-- The search returns a note, and the plan is the best entry. -/
theorem rollout_plan_missed : ∃ found s', (rolloutMemory 500).search asciiMemoryRules "user_1"
      rolloutScope rolloutSearch rolloutDraw = .ok (found, s') ∧
    found ≠ ((rolloutMemory 500).topMatches asciiMemoryRules "user_1" rolloutScope rolloutSearch
      rolloutDraw.now).map ((rolloutMemory 500).foundEntry asciiMemoryRules rolloutScope
        rolloutSearch rolloutDraw.now) := by
  obtain ⟨found, s', h⟩ := rollout_found 500
  refine ⟨found, s', h, fun hexact => ?_⟩
  rw [found_eq_topMatches_iff h] at hexact
  have hselected : rolloutPlan ∈ (rolloutMemory 500).selected asciiMemoryRules "user_1" rolloutScope
      rolloutSearch rolloutDraw := hexact ▸ plan_mem_topMatches
  exact plan_not_mem_candidates (mem_of_mem_topRows hselected)

end Example

/-- A search returns the first entries of the plain ranking exactly when the query that selects
the candidates places each of them before its bound. -/
theorem search_exact_iff {rules : MemoryRules} {owner : String} {scope : MemoryScope}
    {request : MemorySearch} {draw : SearchDraw} {s s' : ProjectMemory} {found : List PublicMemory}
    (h : s.search rules owner scope request draw = .ok (found, s')) :
    found = (s.topMatches rules owner scope request draw.now).map
        (s.foundEntry rules scope request draw.now) ↔
      ∀ e ∈ s.topMatches rules owner scope request draw.now,
        (s.candidateOrder rules owner scope request draw).idxOf e < maxMemorySearchCandidates :=
  (ProjectMemory.found_eq_topMatches_iff h).trans ProjectMemory.selected_eq_topMatches_iff

theorem search_exact_rollout : ∃ found s', (rolloutMemory 1).search asciiMemoryRules "user_1"
      rolloutScope rolloutSearch rolloutDraw = .ok (found, s') ∧
    (found = ((rolloutMemory 1).topMatches asciiMemoryRules "user_1" rolloutScope rolloutSearch
        rolloutDraw.now).map ((rolloutMemory 1).foundEntry asciiMemoryRules rolloutScope
          rolloutSearch rolloutDraw.now) ↔
      ∀ e ∈ (rolloutMemory 1).topMatches asciiMemoryRules "user_1" rolloutScope rolloutSearch
          rolloutDraw.now,
        ((rolloutMemory 1).candidateOrder asciiMemoryRules "user_1" rolloutScope rolloutSearch
          rolloutDraw).idxOf e < maxMemorySearchCandidates) := by
  obtain ⟨found, s', h⟩ := rollout_found 1
  exact ⟨found, s', h, search_exact_iff h⟩

end Magistrate
