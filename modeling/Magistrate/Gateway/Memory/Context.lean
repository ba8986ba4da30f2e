import Magistrate.Core.Greedy
import Magistrate.Gateway.Memory.Search

/-!
# Memories in the context of a model

Of the entries that a search finds, the context takes those that fit, in their order, each cut
to a length of its own.
-/

namespace Magistrate

section Context

/-- `MAX_CONTEXT_ENTRIES` -/
def maxContextEntries : ℤ := 12

/-- `MAX_CONTEXT_CHARS` -/
def maxContextChars : ℕ := 16000

/-- `MAX_CONTEXT_ITEM_CHARS` -/
def maxContextItemChars : ℕ := 1200

/-- What the context has of an entry. -/
structure ContextItem where
  id : String
  kind : String
  title : String
  content : String
  repositoryId : String
  revision : ℕ
  deriving DecidableEq, Repr

/-- What the context takes from the texts of Python. -/
structure ContextRules extends MemoryRules where
  rstrip : String → String
  /-- `_canonical_json` -/
  canonicalJson : ContextItem → String
  /-- Only the end of a text is stripped. -/
  rstrip_prefix : ∀ text, (rstrip text).toList <+: text.toList

namespace ContextRules

variable (rules : ContextRules)

/-- A content that is too long is cut, and marked so. -/
def content (text : String) : String :=
  if maxContextItemChars < text.length then
    rules.rstrip (String.ofList (text.toList.take (maxContextItemChars - 1))) ++ "…"
  else text

/-- The item of an entry. -/
def item (entry : PublicMemory) : ContextItem :=
  ⟨entry.id, entry.kind, entry.title, rules.content entry.content, entry.repositoryId,
    entry.revision⟩

/-- The size of the item of an entry. -/
def size (entry : PublicMemory) : ℕ := (rules.canonicalJson (rules.item entry)).length

/-- The items that fit, in the order of the entries, and their size. -/
def fitItems (entries : List PublicMemory) : List ContextItem × ℕ :=
  entries.foldl (fun (selected, used) entry =>
    if maxContextChars < used + rules.size entry then (selected, used)
    else (selected ++ [rules.item entry], used + rules.size entry)) ([], 0)

/-- `selected_context` -/
def selectedContext (owner : String) (scope : MemoryScope) (request : MemorySearch)
    (draw : SearchDraw) (s : ProjectMemory) :
    Except MemoryError (List ContextItem × ProjectMemory) := do
  if rules.tokens request.query = [] then return ([], s)
  let (entries, s) ← s.search rules.toMemoryRules owner scope
    { request with kinds := [], limit := min request.limit maxContextEntries } draw
  pure ((rules.fitItems entries).1, s)

end ContextRules

end Context

section Fitting

namespace ContextRules

variable (rules : ContextRules)

/-- The items are a greedy selection from the first entry on. -/
theorem fitItems_eq (entries : List PublicMemory) :
    rules.fitItems entries =
      ((((takeFitting rules.size maxContextChars entries.reverse).map rules.item).reverse),
        totalSize rules.size (takeFitting rules.size maxContextChars entries.reverse)) := by
  have hfold : entries.reverse.reverse.foldl (fun (selected, used) entry =>
      if maxContextChars < used + rules.size entry then (selected, used)
      else (selected ++ [rules.item entry], used + rules.size entry)) ([], 0) =
      (((takeFitting rules.size maxContextChars
        (entries.reverse.filter fun _ => true)).map rules.item).reverse,
        totalSize rules.size (takeFitting rules.size maxContextChars
          (entries.reverse.filter fun _ => true))) := by
    refine foldl_takeFitting ?_ ?_ ?_ entries.reverse
    · intro _ _ _ hadmits
      cases hadmits
    · intro _ _ _ _ hfit
      exact if_neg (not_lt.mpr hfit)
    · intro _ _ _ _ hlarge
      exact if_pos (not_le.mp hlarge)
  rw [List.reverse_reverse, List.filter_true] at hfold
  exact hfold

/-- A cut content is short. -/
theorem length_content_le (text : String) : (rules.content text).length ≤ maxContextItemChars := by
  unfold content
  split
  · have hprefix := (rules.rstrip_prefix
      (String.ofList (text.toList.take (maxContextItemChars - 1)))).length_le
    rw [String.toList_ofList, List.length_take] at hprefix
    rw [String.length_append, ← String.length_toList]
    have hmark : "…".length = 1 := rfl
    have hmost : maxContextItemChars = 1200 := rfl
    omega
  · next h => exact not_lt.mp h

/-- What a context is of the memory that it is selected from. -/
structure Selects (owner : String) (scope : MemoryScope) (request : MemorySearch)
    (s : ProjectMemory) (items : List ContextItem) : Prop where
  few : items.length ≤ maxContextEntries.toNat
  fits : totalSize (fun item => (rules.canonicalJson item).length) items ≤ maxContextChars
  short : ∀ item ∈ items, item.content.length ≤ maxContextItemChars
  current : ∀ item ∈ items, ∃ e ∈ s.matching rules.toMemoryRules owner scope
    { request with kinds := [] }, rules.item (e.public none) = item

variable {rules} {owner : String} {scope : MemoryScope} {request : MemorySearch}
  {draw : SearchDraw} {s s' : ProjectMemory} {items : List ContextItem}

/-- Each item is of an entry of the list. -/
theorem exists_of_mem_fitItems {entries : List PublicMemory} {item : ContextItem}
    (h : item ∈ (rules.fitItems entries).1) : ∃ entry ∈ entries, rules.item entry = item := by
  rw [fitItems_eq, List.mem_reverse, List.mem_map] at h
  obtain ⟨entry, hentry, hitem⟩ := h
  exact ⟨entry, List.mem_reverse.mp ((takeFitting_sublist _).subset hentry), hitem⟩

/-- The items of entries that a search has selected. -/
theorem selects_fitItems {limit : ℤ} (hlimit : limit ≤ maxContextEntries) :
    Selects rules owner scope request s (rules.fitItems
      ((s.selected rules.toMemoryRules owner scope { request with kinds := [], limit } draw).map
        (s.foundEntry rules.toMemoryRules scope { request with kinds := [], limit }
          draw.now))).1 where
  few := by
    rw [fitItems_eq, List.length_reverse, List.length_map]
    refine (takeFitting_sublist _).length_le.trans ?_
    rw [List.length_reverse, List.length_map]
    exact (List.length_take_le ..).trans (Int.toNat_le_toNat hlimit)
  fits := by
    rw [fitItems_eq, totalSize, List.map_reverse, List.sum_reverse, List.map_map]
    exact totalSize_takeFitting _
  short item hitem := by
    obtain ⟨entry, -, rfl⟩ := exists_of_mem_fitItems hitem
    exact rules.length_content_le entry.content
  current item hitem := by
    obtain ⟨entry, hentry, rfl⟩ := exists_of_mem_fitItems hitem
    obtain ⟨e, he, rfl⟩ := List.mem_map.mp hentry
    exact ⟨e, mem_of_mem_topRows (mem_of_mem_topRows he), rfl⟩

/-- A context has few items, which fit together, are short, and are of live entries of its scope
that match the query. The entries stay as they are. -/
theorem selectedContext_selects
    (h : rules.selectedContext owner scope request draw s = .ok (items, s')) :
    Selects rules owner scope request s items ∧ s'.entries = s.entries := by
  unfold selectedContext at h
  split at h
  · obtain ⟨rfl, rfl⟩ := Prod.mk.inj (pure_eq_ok.mp h)
    exact ⟨⟨Nat.zero_le _, Nat.zero_le _, by simp, by simp⟩, rfl⟩
  · obtain ⟨⟨found, t⟩, hsearch, hitems⟩ := bind_eq_ok.mp h
    obtain ⟨rfl, rfl⟩ := Prod.mk.inj (pure_eq_ok.mp hitems)
    refine ⟨?_, ?_⟩
    · rw [ProjectMemory.found_of_search hsearch]
      exact selects_fitItems (min_le_right ..)
    · simp only [ProjectMemory.search, bind_eq_ok, raiseIf_eq_ok, pure_eq_ok,
        Prod.mk.injEq] at hsearch
      obtain ⟨-, -, -, -, -, rfl⟩ := hsearch
      rfl

/-- Letters of ASCII, and the content alone as the text of an item. -/
def asciiContextRules : ContextRules where
  toMemoryRules := asciiMemoryRules
  rstrip text := text
  canonicalJson item := item.content
  rstrip_prefix _ := List.prefix_refl _

theorem rollout_selects : ∃ items s', asciiContextRules.selectedContext "user_1"
      rolloutScope rolloutSearch rolloutDraw (rolloutMemory 1) = .ok (items, s') ∧
    Selects asciiContextRules "user_1" rolloutScope rolloutSearch (rolloutMemory 1) items ∧
    s'.entries = (rolloutMemory 1).entries := by
  obtain ⟨found, s', hfound⟩ := rollout_found 1
  have hreturns : asciiContextRules.selectedContext "user_1" rolloutScope rolloutSearch rolloutDraw
      (rolloutMemory 1) = .ok ((asciiContextRules.fitItems found).1, s') := by
    have hterms : ¬asciiMemoryRules.tokens rolloutSearch.query = [] := by
      rw [show rolloutSearch.query = "rollout" from rfl, tokens_rollout]
      exact List.cons_ne_nil _ _
    rw [selectedContext]
    refine (if_neg hterms).trans ?_
    refine bind_eq_ok.mpr ⟨(found, s'), hfound, rfl⟩
  exact ⟨_, _, hreturns, selectedContext_selects hreturns⟩

end ContextRules

end Fitting

end Magistrate
