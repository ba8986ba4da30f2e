import Magistrate.Core.Greedy
import Magistrate.Core.PyJson

/-!
# The history of a model call

Older messages of a conversation are admitted to the call of a model whole, from the
newest to the oldest, as long as they fit into the context. A message counts with the
manifest of its attachments.
-/

namespace Magistrate

namespace MagiChatService

/-- `MAX_NATIVE_CONTEXT_CHARACTERS` -/
def maxNativeContextCharacters : ℕ := 100000

/-- A message of the store as the service reads it; the attachments are objects. -/
structure HistoryRow where
  role : PyText
  content : PyJson
  attachments : List (List (PyText × PyJson)) := []

/-- The role and the content of a `MagiModelMessage`; history has no other members. -/
structure HistoryMessage where
  role : PyText
  content : PyText
  deriving DecidableEq, Repr

/-- `_attachment_manifest`, over the members that name an attachment; `str` formats a value. -/
def attachmentManifest (str : PyJson → PyText) (attachments : List (PyJson × PyJson × PyJson)) :
    PyText :=
  if attachments = [] then []
  else [10].intercalate
    (PyText.of "Authenticated attachment metadata (file bytes are not included):" ::
    attachments.map fun (filename, mediaType, size) =>
      PyText.of "- " ++ str filename ++ PyText.of " (" ++ str mediaType ++
      PyText.of ", " ++ str size ++
        PyText.of " bytes)")

namespace HistoryRow

/-- The roles that history has. -/
def roles : List PyText := [PyText.of "user", PyText.of "assistant"]

/-- The role and the content of a row that history admits. -/
def admitted? (row : HistoryRow) : Option HistoryMessage :=
  match row.content with
  | .text content =>
    if row.role ∈ roles ∧ content ≠ [] then some { role := row.role, content } else none
  | _ => none

/-- The row is one that history admits. -/
def admissible (row : HistoryRow) : Bool := row.admitted?.isSome

/-- The records of the attachments of a row. -/
def records (row : HistoryRow) : List (PyJson × PyJson × PyJson) :=
  row.attachments.map fun item =>
    let get (name : String) (default_ : PyJson) : PyJson := (PyJson.dict item).getD name default_
    (get "name" (.text (.of "attachment")),
      get "media_type" (.text (.of "application/octet-stream")), get "size" (.int 0))

/-- The message of a row that history admits, with the manifest of a user's attachments. -/
def providerMessage (str : PyJson → PyText) (row : HistoryRow) : HistoryMessage :=
  let message := row.admitted?.getD { role := [], content := [] }
  let lines : PyText :=
    if message.role = PyText.of "user" then attachmentManifest str row.records else []
  { message with
    content := message.content ++ if lines = [] then [] else PyText.of "\n\n" ++ lines }

/-- The characters that a row takes in the context. -/
def size (str : PyJson → PyText) (row : HistoryRow) : ℕ := (row.providerMessage str).content.length

end HistoryRow

/-- One turn of the loop of `_bounded_history`. -/
def takeRow (str : PyJson → PyText) : List HistoryMessage × ℕ → HistoryRow → List HistoryMessage × ℕ
  | (selected, used), row =>
    if row.admissible = false then (selected, used)
    else if maxNativeContextCharacters < used + row.size str then (selected, used)
    else (selected ++ [row.providerMessage str], used + row.size str)

/-- `_bounded_history` -/
def boundedHistory (str : PyJson → PyText) (rows : List HistoryRow) : List HistoryMessage :=
  (rows.reverse.foldl (takeRow str) ([], 0)).1.reverse

variable {str : PyJson → PyText}

/-- The loop makes the greedy selection of the admissible rows. -/
theorem boundedHistory_eq (rows : List HistoryRow) :
    boundedHistory str rows =
      (takeFitting (HistoryRow.size str) maxNativeContextCharacters
        (rows.filter HistoryRow.admissible)).map (HistoryRow.providerMessage str) := by
  have hskip (selected : List HistoryMessage) (used : ℕ) (row : HistoryRow)
      (h : row.admissible = false) : takeRow str (selected, used) row = (selected, used) := if_pos h
  have hfits (selected : List HistoryMessage) (used : ℕ) (row : HistoryRow)
      (h : row.admissible = true) (hfit : used + row.size str ≤ maxNativeContextCharacters) :
      takeRow str (selected, used) row =
        (selected ++ [row.providerMessage str], used + row.size str) := by
    rw [takeRow, h, if_neg (by decide), if_neg (Nat.not_lt.mpr hfit)]
  have hlarge (selected : List HistoryMessage) (used : ℕ) (row : HistoryRow)
      (h : row.admissible = true) (hfit : ¬used + row.size str ≤ maxNativeContextCharacters) :
      takeRow str (selected, used) row = (selected, used) := by
    rw [takeRow, h, if_neg (by decide), if_pos (Nat.not_le.mp hfit)]
  rw [boundedHistory, foldl_takeFitting hskip hfits hlarge, List.reverse_reverse]

/-- The characters of the messages that are selected. -/
theorem totalSize_boundedHistory (rows : List HistoryRow) :
    totalSize (fun message : HistoryMessage => message.content.length) (boundedHistory str rows) =
      totalSize (HistoryRow.size str) (takeFitting (HistoryRow.size str) maxNativeContextCharacters
        (rows.filter HistoryRow.admissible)) := by
  rw [boundedHistory_eq, totalSize, totalSize, List.map_map]
  rfl

/-- History is a subsequence of the admissible rows that fits into the context. An admissible row is
left out exactly when it does not fit beside all newer rows that are kept. -/
theorem bounded_history_greedy (str : PyJson → PyText) (rows : List HistoryRow) :
    (boundedHistory str rows).Sublist
      ((rows.filter HistoryRow.admissible).map (HistoryRow.providerMessage str)) ∧
    totalSize (fun message : HistoryMessage => message.content.length) (boundedHistory str rows) ≤
      maxNativeContextCharacters ∧
    ∀ older row newer, rows = older ++ row :: newer → row.admissible = true →
      ∃ before : List HistoryMessage,
        before.Sublist
          ((older.filter HistoryRow.admissible).map (HistoryRow.providerMessage str)) ∧
        boundedHistory str rows = before ++
          (if maxNativeContextCharacters < row.size str +
              totalSize (fun message : HistoryMessage => message.content.length)
                (boundedHistory str newer)
            then [] else [row.providerMessage str]) ++ boundedHistory str newer := by
  refine ⟨?_, ?_, ?_⟩
  · rw [boundedHistory_eq]
    exact (takeFitting_sublist _).map _
  · rw [totalSize_boundedHistory]
    exact totalSize_takeFitting _
  · rintro older row newer rfl hadmissible
    obtain ⟨before, hbefore, heq⟩ := takeFitting_append (HistoryRow.size str)
      maxNativeContextCharacters (older.filter HistoryRow.admissible)
      ((row :: newer).filter HistoryRow.admissible)
    refine ⟨before.map (HistoryRow.providerMessage str), hbefore.map _, ?_⟩
    rw [totalSize_boundedHistory, boundedHistory_eq, boundedHistory_eq, List.filter_append, heq,
      List.filter_cons_of_pos hadmissible, takeFitting, List.map_append, List.append_assoc]
    congr 1
    by_cases hfit : totalSize (HistoryRow.size str) (takeFitting (HistoryRow.size str)
        maxNativeContextCharacters (newer.filter HistoryRow.admissible)) + row.size str ≤
          maxNativeContextCharacters
    · rw [if_pos hfit, if_neg (by omega), List.map_cons, List.singleton_append]
    · rw [if_neg hfit, if_pos (by omega), List.nil_append]

end MagiChatService

end Magistrate
