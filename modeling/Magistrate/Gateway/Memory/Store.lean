import Mathlib.Data.List.Dedup
import Mathlib.Data.Prod.Lex
import Mathlib.Data.String.Basic
import Magistrate.Core.Dict
import Magistrate.Core.Ranking
import Magistrate.Core.Run

/-!
# Project memory

Entries of a scope of an owner are written under a key, revised and deleted; a search reads
the live ones that an index of terms matches. Every write comes with a revision and with one
record of the audit of the scope, which carries the hash of the one before it.
-/

namespace Magistrate

section Limits

/-- `MAX_MEMORY_CONTENT_CHARS` -/
def maxMemoryContentChars : ℕ := 8000

/-- `MAX_MEMORY_TITLE_CHARS` -/
def maxMemoryTitleChars : ℕ := 240

/-- `MAX_MEMORY_ENTRIES_PER_SCOPE` -/
def maxMemoryEntriesPerScope : ℕ := 2000

/-- `MAX_MEMORY_REVISIONS_PER_ENTRY` -/
def maxMemoryRevisionsPerEntry : ℕ := 100

/-- `MAX_MEMORY_SEARCH_RESULTS` -/
def maxMemorySearchResults : ℤ := 20

/-- `MAX_MEMORY_SEARCH_CANDIDATES` -/
def maxMemorySearchCandidates : ℕ := 500

/-- `MAX_MEMORY_QUERY_CHARS` -/
def maxMemoryQueryChars : ℕ := 1000

/-- `MAX_MEMORY_TERMS` -/
def maxMemoryTerms : ℕ := 128

/-- `MEMORY_KINDS` -/
def memoryKinds : List String :=
  ["goal", "architecture-decision", "user-decision", "conversation-fact", "repository",
    "prior-objective", "completed-outcome", "artifact", "failed-approach", "question",
    "preference", "fleet-outcome"]

/-- `_SEARCH_STOP_WORDS` -/
def searchStopWords : List String :=
  ["a", "an", "and", "are", "as", "at", "be", "by", "for", "from", "how", "i", "in", "is", "it",
    "me", "of", "on", "or", "that", "the", "this", "to", "use", "was", "we", "what", "when",
    "where", "which", "with", "you"]

/-- A letter or digit, and at most so many of these and of further characters. -/
def isReference (further : List Char) (most : ℕ) (text : String) : Bool :=
  match text.toList with
  | [] => false
  | c :: cs => c.isAlphanum && decide (cs.length ≤ most) &&
      cs.all fun c => c.isAlphanum || further.contains c

/-- `_SAFE_SCOPE` -/
def isSafeScope : String → Bool := isReference ['.', '_', ':', '/', '-'] 159

/-- `_SAFE_KEY` -/
def isSafeKey : String → Bool := isReference ['.', '_', ':', '-'] 199

/-- Letters, digits, underscores and hyphens. -/
def isPlainId (chars : List Char) : Bool := chars.all fun c => c.isAlphanum || c == '_' || c == '-'

/-- `_SAFE_ACTOR` -/
def isSafeActor (actor : String) : Bool :=
  decide (0 < actor.length ∧ actor.length ≤ 200) && isPlainId actor.toList

/-- `_SAFE_ENTRY` -/
def isSafeEntry (entry : String) : Bool :=
  "pmem_".toList.isPrefixOf entry.toList &&
    decide (21 ≤ entry.length ∧ entry.length ≤ 69) && isPlainId (entry.toList.drop 5)

end Limits

/-- `MemoryScope` -/
structure MemoryScope where
  tenantId : String
  organizationId : String
  workspaceId : String
  projectId : String
  repositoryId : String
  deriving DecidableEq, Repr

/-- `project_memory_entries` -/
structure MemoryEntry where
  entryId : String
  ownerUserId : String
  scope : MemoryScope
  memoryKey : String
  kind : String
  title : String
  content : String
  importance : ℤ
  sourceKind : String
  sourceId : String
  revision : ℕ
  contentSha256 : String
  createdAt : ℤ
  updatedAt : ℤ
  deletedAt : Option ℤ
  deriving DecidableEq, Repr

/-- `project_memory_terms` -/
structure MemoryTerm where
  entryId : String
  term : String
  deriving DecidableEq, Repr

/-- What a revision keeps of an entry, or the mark of its deletion. -/
inductive MemorySnapshot where
  | written (kind title content : String) (importance : ℤ) (sourceKind sourceId : String)
  | deleted
  deriving DecidableEq, Repr

/-- `project_memory_revisions` -/
structure MemoryRevision where
  entryId : String
  revision : ℕ
  snapshot : MemorySnapshot
  contentSha256 : String
  actorSessionId : String
  createdAt : ℤ
  deriving DecidableEq, Repr

/-- What an audit record's hash is of. -/
structure MemoryEvent where
  sequence : ℕ
  entryId : String
  revision : ℕ
  operation : String
  actorSessionId : String
  contentSha256 : String
  occurredAt : ℤ
  previousEventSha256 : String
  deriving DecidableEq, Repr

/-- `project_memory_audit` -/
structure MemoryAudit where
  ownerUserId : String
  scope : MemoryScope
  event : MemoryEvent
  eventSha256 : String
  deriving DecidableEq, Repr

/-- `project_memory_retrievals` -/
structure MemoryRetrieval where
  retrievalId : String
  ownerUserId : String
  scope : MemoryScope
  purpose : String
  actorSessionId : String
  querySha256 : String
  selectedIds : List String
  resultCount : ℕ
  createdAt : ℤ
  deriving DecidableEq, Repr

/-- The owner and the scope whose audit a record belongs to, and its place there. -/
def MemoryAudit.key (record : MemoryAudit) : String × MemoryScope × ℕ :=
  (record.ownerUserId, record.scope, record.event.sequence)

/-- The tables of the memory. -/
structure ProjectMemory where
  entries : Table MemoryEntry.entryId
  terms : Table (id : MemoryTerm → MemoryTerm)
  revisions : Table fun r : MemoryRevision => (r.entryId, r.revision)
  audit : Table MemoryAudit.key
  retrievals : Table MemoryRetrieval.retrievalId
  deriving DecidableEq

/-- What the memory raises. -/
inductive MemoryError where
  | value (message : String)
  | conflict (message : String)
  | notFound (message : String)
  | integrity
  deriving DecidableEq, Repr

/-- What the memory takes from the character database, from the search for credentials and from
the hash of canonical JSON. -/
structure MemoryRules where
  /-- The character is of a category that starts with `C`. -/
  isOther : Char → Bool
  isWord : Char → Bool
  strip : String → String
  /-- `unicodedata.normalize("NFKC", value)` -/
  normalize : String → String
  casefold : String → String
  sensitive : String → Bool
  sha256 : String → String
  /-- The hash of a deletion. -/
  tombstoneHash : String → ℕ → String → String
  /-- `_entry_hash` -/
  entryHash : MemorySnapshot → String
  eventHash : MemoryEvent → String

namespace MemoryRules

/-- A match of the pattern of terms has at least two characters. -/
def termOf (term : List Char) : List String :=
  if 2 ≤ term.length then [String.ofList term.reverse] else []

variable (rules : MemoryRules)

/-- `_valid_owner` -/
def validOwner (owner : String) : Bool :=
  decide (0 < owner.length ∧ owner.length ≤ 128) && !owner.toList.any rules.isOther

/-- `_bounded_text` -/
def boundedText (value : String) (maximum : ℕ) (field : String) : Except MemoryError String := do
  raiseIf (value = "" ∨ value ≠ rules.strip value ∨ maximum < value.length ∨
      value.toList.any rules.isOther ∨ rules.sensitive value)
    (.value s!"Memory {field} must be bounded, inert, and free of credential material.")
  pure value

/-- A character that can follow in a term. -/
def isTermChar (c : Char) : Bool := rules.isWord c || ['.', '/', ':', '#', '-'].contains c

/-- `re.findall(r"[\w][\w./:#-]{1,63}", …)`; the characters of the open match are kept backwards. -/
def findTerms : List Char → List Char → List String
  | term, [] => termOf term
  | term, c :: rest =>
    if term ≠ [] ∧ rules.isTermChar c ∧ term.length < 64 then findTerms (c :: term) rest
    else termOf term ++ findTerms (if rules.isWord c then [c] else []) rest

/-- `_tokens` -/
def tokens (value : String) : List String :=
  let found := rules.findTerms [] (rules.casefold (rules.normalize value)).toList
  let meaningful := found.filter fun term => !searchStopWords.contains term
  -- the first of equal terms is kept
  ((meaningful.reverse.dedup).reverse).take maxMemoryTerms

/-- `MemoryScope.for_owner(…).tenant_id` -/
def tenantOf (owner : String) : String :=
  "tenant-" ++ String.ofList ((rules.sha256 owner).toList.take 32)

end MemoryRules

/-- `MemoryScope.validate` -/
def MemoryScope.validate (scope : MemoryScope) : Except MemoryError Unit := do
  raiseIf ([scope.tenantId, scope.organizationId, scope.workspaceId, scope.projectId].any
      fun value => !isSafeScope value)
    (.value "Memory scope contains an invalid identifier.")
  raiseIf (scope.repositoryId ≠ "" ∧ isSafeScope scope.repositoryId = false)
    (.value "Memory repository scope is invalid.")

/-- `_validate` -/
def MemoryRules.validate (rules : MemoryRules) (owner : String) (scope : MemoryScope) :
    Except MemoryError Unit := do
  raiseIf (rules.validOwner owner = false)
    (.value "A bounded authenticated memory owner is required.")
  scope.validate
  raiseIf (scope.tenantId ≠ rules.tenantOf owner)
    (.value "Memory tenant does not match the authenticated owner.")

/-- `_public_entry` -/
structure PublicMemory where
  id : String
  kind : String
  title : String
  content : String
  importance : ℤ
  repositoryId : String
  revision : ℕ
  sourceKind : String
  sourceId : String
  createdAt : ℤ
  updatedAt : ℤ
  score : Option ℤ
  deriving DecidableEq, Repr

/-- `_public_entry` -/
def MemoryEntry.public (row : MemoryEntry) (score : Option ℤ) : PublicMemory where
  id := row.entryId
  kind := row.kind
  title := row.title
  content := row.content
  importance := row.importance
  repositoryId := row.scope.repositoryId
  revision := row.revision
  sourceKind := row.sourceKind
  sourceId := row.sourceId
  createdAt := row.createdAt
  updatedAt := row.updatedAt
  score := score

/-- What `put` is called with. -/
structure MemoryPut where
  memoryKey : String
  kind : String
  title : String
  content : String
  importance : ℤ := 3
  sourceKind : String := "user"
  sourceId : String := "explicit"
  actorSessionId : String := "system"
  immutable : Bool := false
  deriving DecidableEq, Repr

def MemoryPut.snapshot (request : MemoryPut) : MemorySnapshot :=
  .written request.kind request.title request.content request.importance request.sourceKind
    request.sourceId

/-- `_entry_id` -/
def MemoryRules.entryId (rules : MemoryRules) (owner : String) (scope : MemoryScope)
    (memoryKey : String) : String :=
  "pmem_" ++ String.ofList ((rules.sha256 ("magi-memory-v1\x00" ++ "\x00".intercalate
    [owner, scope.tenantId, scope.organizationId, scope.workspaceId, scope.projectId,
      scope.repositoryId, memoryKey])).toList.take 40)

namespace ProjectMemory

/-- The live entries of exactly this scope. -/
def liveIn (s : ProjectMemory) (owner : String) (scope : MemoryScope) : ℕ :=
  s.entries.rows.countP fun e => e.ownerUserId = owner ∧ e.scope = scope ∧ e.deletedAt = none

/-- The audit of a scope, oldest first. -/
def auditOf (s : ProjectMemory) (owner : String) (scope : MemoryScope) : List MemoryAudit :=
  s.audit.rows.filter fun r => r.ownerUserId = owner ∧ r.scope = scope

/-- The highest sequence of the audit of a scope. -/
def lastSequence (s : ProjectMemory) (owner : String) (scope : MemoryScope) : ℕ :=
  ((s.auditOf owner scope).map (·.event.sequence)).foldr max 0

/-- `_append_audit` -/
def appendAudit (rules : MemoryRules) (owner : String) (scope : MemoryScope) (entryId : String)
    (revision : ℕ) (operation actor contentSha256 : String) (now : ℤ) (s : ProjectMemory) :
    Except MemoryError ProjectMemory := do
  let last := s.lastSequence owner scope
  let previous := (s.audit.find? (owner, scope, last)).elim "" (·.eventSha256)
  let event : MemoryEvent :=
    ⟨last + 1, entryId, revision, operation, actor, contentSha256, now, previous⟩
  let record : MemoryAudit := ⟨owner, scope, event, rules.eventHash event⟩
  raiseIf (s.audit.find? record.key ≠ none) .integrity
  raiseIf (∃ r ∈ s.audit.rows, r.eventSha256 = record.eventSha256) .integrity
  pure { s with audit := s.audit.insertOrIgnore record }

/-- `INSERT INTO project_memory_revisions` -/
def insertRevision (row : MemoryRevision) (s : ProjectMemory) :
    Except MemoryError ProjectMemory := do
  raiseIf (s.revisions.find? (row.entryId, row.revision) ≠ none) .integrity
  pure { s with revisions := s.revisions.insertOrIgnore row }

/-- `DELETE FROM project_memory_terms WHERE entry_id = ?` -/
def dropTerms (entryId : String) (s : ProjectMemory) : ProjectMemory :=
  { s with terms := s.terms.filter fun t => t.entryId ≠ entryId }

/-- `INSERT INTO project_memory_terms` -/
def insertTerm (s : ProjectMemory) (term : MemoryTerm) : Except MemoryError ProjectMemory := do
  raiseIf (s.terms.find? term ≠ none) .integrity
  pure { s with terms := s.terms.insertOrIgnore term }

/-- `INSERT INTO project_memory_entries` -/
def insertEntry (row : MemoryEntry) (s : ProjectMemory) : Except MemoryError ProjectMemory := do
  raiseIf (s.entries.find? row.entryId ≠ none) .integrity
  raiseIf (∃ e ∈ s.entries.rows,
    e.ownerUserId = row.ownerUserId ∧ e.scope = row.scope ∧ e.memoryKey = row.memoryKey) .integrity
  pure { s with entries := s.entries.insertOrIgnore row }

/-- The checks of `put`. -/
def checkPut (rules : MemoryRules) (owner : String) (scope : MemoryScope) (request : MemoryPut) :
    Except MemoryError Unit := do
  rules.validate owner scope
  raiseIf (isSafeKey request.memoryKey = false) (.value "Memory key is invalid.")
  raiseIf (request.kind ∉ memoryKinds) (.value "Memory kind is unsupported.")
  let _ ← rules.boundedText request.title maxMemoryTitleChars "title"
  let _ ← rules.boundedText request.content maxMemoryContentChars "content"
  raiseIf (¬(1 ≤ request.importance ∧ request.importance ≤ 5))
    (.value "Memory importance must be between 1 and 5.")
  raiseIf (isSafeKey request.sourceKind = false ∨ isSafeKey request.sourceId = false ∨
    isSafeActor request.actorSessionId = false) (.value "Memory provenance is invalid.")

/-- The row of a new entry. -/
def newEntry (rules : MemoryRules) (owner : String) (scope : MemoryScope) (request : MemoryPut)
    (now : ℤ) : MemoryEntry where
  entryId := rules.entryId owner scope request.memoryKey
  ownerUserId := owner
  scope := scope
  memoryKey := request.memoryKey
  kind := request.kind
  title := request.title
  content := request.content
  importance := request.importance
  sourceKind := request.sourceKind
  sourceId := request.sourceId
  revision := 1
  contentSha256 := rules.entryHash request.snapshot
  createdAt := now
  updatedAt := now
  deletedAt := none

/-- What an update writes to an entry. -/
def revisedEntry (rules : MemoryRules) (request : MemoryPut) (now : ℤ) (e : MemoryEntry) :
    MemoryEntry :=
  { e with
    kind := request.kind
    title := request.title
    content := request.content
    importance := request.importance
    sourceKind := request.sourceKind
    sourceId := request.sourceId
    revision := e.revision + 1
    contentSha256 := rules.entryHash request.snapshot
    updatedAt := now }

/-- What `put` writes besides the entry: its revision, its terms and the audit. -/
def recordPut (rules : MemoryRules) (owner : String) (scope : MemoryScope) (request : MemoryPut)
    (revision : ℕ) (operation : String) (now : ℤ) (s : ProjectMemory) :
    Except MemoryError ProjectMemory := do
  let entryId := rules.entryId owner scope request.memoryKey
  let contentHash := rules.entryHash request.snapshot
  let s ← s.insertRevision
    ⟨entryId, revision, request.snapshot, contentHash, request.actorSessionId, now⟩
  let terms := rules.tokens (request.title ++ "\n" ++ request.content)
  let s ← (terms.map fun term => ⟨entryId, term⟩).foldlM insertTerm (s.dropTerms entryId)
  s.appendAudit rules owner scope entryId revision operation request.actorSessionId contentHash now

/-- `put` of an entry that exists. -/
def putExisting (rules : MemoryRules) (owner : String) (scope : MemoryScope) (request : MemoryPut)
    (now : ℤ) (existing : MemoryEntry) (s : ProjectMemory) :
    Except MemoryError ProjectMemory := do
  raiseIf (existing.scope ≠ scope ∨ existing.memoryKey ≠ request.memoryKey)
    (.conflict "Memory identity is already bound to another scope.")
  raiseIf (existing.deletedAt ≠ none) (.conflict "Deleted memory identities cannot be reused.")
  if existing.contentSha256 = rules.entryHash request.snapshot then
    return s
  raiseIf request.immutable
    (.conflict "Immutable memory identity is already bound to different content.")
  -- the last revision is kept for a deletion
  raiseIf (maxMemoryRevisionsPerEntry ≤ existing.revision + 1)
    (.conflict "The bounded memory revision limit was reached.")
  recordPut rules owner scope request (existing.revision + 1) "updated" now
    { s with entries := s.entries.update existing.entryId (revisedEntry rules request now) }

/-- `put` of a new entry. -/
def putNew (rules : MemoryRules) (owner : String) (scope : MemoryScope) (request : MemoryPut)
    (now : ℤ) (s : ProjectMemory) : Except MemoryError ProjectMemory := do
  raiseIf (maxMemoryEntriesPerScope ≤ s.liveIn owner scope)
    (.conflict "The bounded memory scope is full.")
  let s ← s.insertEntry (newEntry rules owner scope request now)
  recordPut rules owner scope request 1 "created" now s

/-- `put` -/
def put (rules : MemoryRules) (owner : String) (scope : MemoryScope) (request : MemoryPut) (now : ℤ)
    (s : ProjectMemory) : Except MemoryError (PublicMemory × ProjectMemory) := do
  checkPut rules owner scope request
  let entryId := rules.entryId owner scope request.memoryKey
  let s' ← match (s.entries.find? entryId).filter (·.ownerUserId = owner) with
    | none => putNew rules owner scope request now s
    | some existing => putExisting rules owner scope request now existing s
  let row ← orRaise (s'.entries.find? entryId) .integrity
  pure (row.public none, s')

/-- What a deletion writes to an entry. -/
def deletedEntry (now : ℤ) (e : MemoryEntry) : MemoryEntry :=
  { e with revision := e.revision + 1, deletedAt := some now, updatedAt := now }

/-- `delete` -/
def delete (rules : MemoryRules) (owner : String) (scope : MemoryScope) (entryId actor : String)
    (now : ℤ) (s : ProjectMemory) : Except MemoryError ProjectMemory := do
  rules.validate owner scope
  raiseIf (isSafeEntry entryId = false) (.notFound "Project memory not found.")
  raiseIf (isSafeActor actor = false) (.value "Memory actor identity is invalid.")
  let row ← orRaise ((s.entries.find? entryId).filter fun e =>
    e.ownerUserId = owner ∧ e.scope = scope ∧ e.deletedAt = none)
      (.notFound "Project memory not found.")
  let revision := row.revision + 1
  let s := { s with entries := s.entries.update entryId (deletedEntry now) }
  let hash := rules.tombstoneHash entryId revision row.contentSha256
  let s ← (s.dropTerms entryId).insertRevision ⟨entryId, revision, .deleted, hash, actor, now⟩
  s.appendAudit rules owner scope entryId revision "deleted" actor hash now

end ProjectMemory

section Search

/-- What `search` is called with. -/
structure MemorySearch where
  query : String
  kinds : List String := []
  limit : ℤ := 10
  purpose : String := "interactive-search"
  actorSessionId : String := "system"
  deriving DecidableEq, Repr

/-- What a search draws: the clock, the id of the retrieval, and the order in which the database
reads entries, which places those that the query's order does not tell apart. -/
structure SearchDraw where
  now : ℤ
  retrievalId : String
  scanOrder : String → ℤ

/-- The kinds that a search selects: all of them when none is given. -/
def MemorySearch.selectedKinds (request : MemorySearch) : List String :=
  if request.kinds = [] then memoryKinds else request.kinds

namespace ProjectMemory

variable (rules : MemoryRules) (owner : String) (scope : MemoryScope) (request : MemorySearch)
  (s : ProjectMemory)

/-- `COUNT(DISTINCT term.term)` of the terms of the query that the index has for an entry. -/
def matchedTerms (e : MemoryEntry) : ℕ :=
  (rules.tokens request.query).countP fun term => ⟨e.entryId, term⟩ ∈ s.terms.rows

/-- The entries that the query's condition selects. -/
def matching : List MemoryEntry :=
  s.entries.rows.filter fun e =>
    e.ownerUserId = owner ∧ e.scope.tenantId = scope.tenantId ∧
      e.scope.organizationId = scope.organizationId ∧ e.scope.workspaceId = scope.workspaceId ∧
      e.scope.projectId = scope.projectId ∧
      (e.scope.repositoryId = "" ∨ e.scope.repositoryId = scope.repositoryId) ∧
      e.deletedAt = none ∧ e.kind ∈ request.selectedKinds ∧ 0 < s.matchedTerms rules request e

/-- `ORDER BY matched_terms DESC, importance DESC, updated_at DESC`, and the place in the scan. -/
def candidateKey (draw : SearchDraw) (e : MemoryEntry) : ℕ ×ₗ ℤ ×ₗ ℤ ×ₗ ℤ :=
  toLex (s.matchedTerms rules request e, toLex (e.importance, toLex (e.updatedAt,
    -draw.scanOrder e.entryId)))

/-- The candidates of a search: the selected entries up to the `LIMIT`. -/
def candidates (draw : SearchDraw) : List MemoryEntry :=
  topRows (s.candidateKey rules request draw) maxMemorySearchCandidates
    (s.matching rules owner scope request)

/-- The score of an entry. -/
def score (now : ℤ) (e : MemoryEntry) : ℤ :=
  let exactTitle := (rules.tokens request.query).countP (· ∈ rules.tokens e.title)
  let repoSpecific := scope.repositoryId ≠ "" ∧ e.scope.repositoryId = scope.repositoryId
  let recent := now - e.updatedAt < 30 * 24 * 3600 * 1000
  s.matchedTerms rules request e * 100 + exactTitle * 25 + e.importance * 5 +
    (if repoSpecific then 1 else 0) * 4 + (if recent then 1 else 0)

/-- What the candidates are sorted by: the score, the last change and the id. -/
def rankKey (now : ℤ) (e : MemoryEntry) : ℤ ×ₗ ℤ ×ₗ String :=
  toLex (s.score rules scope request now e, toLex (e.updatedAt, e.entryId))

/-- The entries that a search selects. -/
def selected (draw : SearchDraw) : List MemoryEntry :=
  topRows (s.rankKey rules scope request draw.now) request.limit.toNat
    (s.candidates rules owner scope request draw)

/-- The checks of `search`. -/
def checkSearch : Except MemoryError Unit := do
  rules.validate owner scope
  raiseIf (rules.strip request.query = "" ∨ maxMemoryQueryChars < request.query.length)
    (.value "Memory search query is invalid.")
  raiseIf (rules.tokens request.query = [])
    (.value "Memory search query has no searchable terms.")
  raiseIf (¬request.selectedKinds ⊆ memoryKinds) (.value "Memory search kind is unsupported.")
  raiseIf (¬(1 ≤ request.limit ∧ request.limit ≤ maxMemorySearchResults))
    (.value "Memory search limit is invalid.")
  raiseIf (isSafeKey request.purpose = false) (.value "Memory retrieval purpose is invalid.")
  raiseIf (isSafeActor request.actorSessionId = false)
    (.value "Memory retrieval actor is invalid.")

/-- An entry that is found, with its score. -/
def foundEntry (now : ℤ) (e : MemoryEntry) : PublicMemory :=
  e.public (some (s.score rules scope request now e))

/-- `search` -/
def search (draw : SearchDraw) : Except MemoryError (List PublicMemory × ProjectMemory) := do
  checkSearch rules owner scope request
  let selected := s.selected rules owner scope request draw
  raiseIf (s.retrievals.find? draw.retrievalId ≠ none) .integrity
  let retrieval : MemoryRetrieval :=
    ⟨draw.retrievalId, owner, scope, request.purpose, request.actorSessionId,
      rules.sha256 request.query, selected.map (·.entryId), selected.length, draw.now⟩
  pure (selected.map (s.foundEntry rules scope request draw.now),
    { s with retrievals := s.retrievals.insertOrIgnore retrieval })

end ProjectMemory

end Search

end Magistrate
