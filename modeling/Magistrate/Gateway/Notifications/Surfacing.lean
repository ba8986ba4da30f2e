import Magistrate.Gateway.Notifications.Board

/-!
# What surfaces, and how often

An item that a mode admits stays open while every reconcile is given it with one
fingerprint, and only an acknowledgement, a delivery mark or a reconcile in the
foreground settles it. So it is returned until then, and not after.
-/

namespace Magistrate

/-- The tables of the notifications, with what reconciles returned and what they kept back in the
foreground: a user, an item and its fingerprint. -/
structure NotificationState where
  board : NotificationBoard
  returned : List (String × String × String)
  foregrounded : List (String × String × String)
  deriving DecidableEq

/-- What happens to the notifications. -/
inductive NotificationStep where
  | reconcile (userId : String) (items : List NotificationItem) (foreground : Bool)
      (localHour : Option ℤ) (now : ℕ)
  | preferences (userId : String) (enabled : Bool) (quietStart quietEnd : Option ℤ) (mode : String)
      (now : ℕ)
  | delivered (userId : String) (itemIds : List String)
  | acknowledge (userId : String) (itemIds : List String)
  | receipt (userId itemId fingerprint : String)

/-- No user has a row, and nothing was returned. -/
def NotificationState.initial : NotificationState := ⟨.initial, [], []⟩

/-- The notifications after a step. -/
def notificationStep (rules : NotificationRules) (s : NotificationState) :
    NotificationStep → NotificationState
  | .reconcile userId items foreground localHour now =>
    let (result, board) := s.board.reconcile rules now userId items foreground localHour
    let pending := s.board.pending rules userId (s.board.preferencesOf userId).mode items
    { board := board
      returned := s.returned ++ result.events.map fun item =>
        (userId, item.id, rules.fingerprint item)
      foregrounded := if foreground = true then
          s.foregrounded ++ pending.map fun item => (userId, item.id, rules.fingerprint item)
        else s.foregrounded }
  | .preferences userId enabled quietStart quietEnd mode now =>
    { s with
      board := commit (s.board.updatePreferences now userId enabled quietStart
        quietEnd mode) s.board }
  | .delivered userId itemIds => { s with board := s.board.markDelivered userId itemIds }
  | .acknowledge userId itemIds => { s with board := s.board.acknowledge userId itemIds }
  | .receipt userId itemId fingerprint =>
    { s with board := s.board.markReceipt userId itemId fingerprint }

/-- A snapshot has an item with a fingerprint that demands attention and that the mode of its user
admits. -/
def NotificationState.Admits (rules : NotificationRules) (s : NotificationState)
    (userId itemId fingerprint : String) (items : List NotificationItem) : Prop :=
  ∃ item ∈ (NotificationBoard.actionable (s.board.preferencesOf userId).mode items).find? itemId,
    rules.fingerprint item = fingerprint

/-- A reconcile of a user is given an item with a fingerprint. -/
def NotificationStep.Presents (rules : NotificationRules) (userId itemId fingerprint : String)
    (s : NotificationState) : NotificationStep → Prop
  | .reconcile user items _ _ _ => user = userId → s.Admits rules userId itemId fingerprint items
  | _ => True

/-- A step acknowledges an item, marks it as delivered, or reconciles its user in the foreground. -/
def NotificationStep.settles (userId itemId fingerprint : String) : NotificationStep → Bool
  | .reconcile user _ foreground _ _ => userId == user && foreground
  | .preferences .. => false
  | .delivered user itemIds | .acknowledge user itemIds => userId == user && itemIds.contains itemId
  | .receipt user item sent => userId == user && itemId == item && fingerprint == sent

/-- Acknowledgements and marks name only items whose fingerprint was returned. -/
def NotificationStep.NamesReturned (s : NotificationState) : NotificationStep → Prop
  | .delivered userId itemIds | .acknowledge userId itemIds => ∀ row ∈ s.board.rows.rows,
    row.userId = userId → row.itemId ∈ itemIds → row.active = true →
      (userId, row.itemId, row.fingerprint) ∈ s.returned
  | .receipt userId itemId fingerprint => ∀ row ∈ s.board.rows.rows,
    row.userId = userId → row.itemId = itemId → row.fingerprint = fingerprint → row.active = true →
      (userId, itemId, fingerprint) ∈ s.returned
  | _ => True

/-- What is open and delivered or viewed was returned with its fingerprint, or kept back in the
foreground. -/
def NotificationState.Noticed (s : NotificationState) : Prop :=
  ∀ row ∈ s.board.rows.rows, row.active = true → row.delivered = true ∨ row.viewed = true →
    (row.userId, row.itemId, row.fingerprint) ∈ s.returned ∨
      (row.userId, row.itemId, row.fingerprint) ∈ s.foregrounded

/-- An item is open with a fingerprint. -/
def NotificationState.Open (s : NotificationState) (userId itemId fingerprint : String)
    (delivered : Bool) : Prop :=
  ∃ row, s.board.rows.find? (userId, itemId) = some row ∧ row.active = true ∧
    row.fingerprint = fingerprint ∧ row.delivered = delivered

section Steps

variable {s : NotificationState} {userId itemId fingerprint : String}

/-- What a refresh makes of an item that it is given. -/
theorem NotificationBoard.refresh_item (rules : NotificationRules) (userId : String)
    {b : NotificationBoard} {mode : NotificationMode} {items : List NotificationItem}
    {item : NotificationItem}
    (hitem : (actionable mode items).find? itemId = some item) (now : ℕ) :
    ∃ row, (b.refresh rules now userId mode items).rows.find? (userId, itemId) = some row ∧
      row = (b.open? rules userId item).getD (opened rules now userId item) ∧
      row.userId = userId ∧ row.itemId = itemId ∧ row.active = true ∧
      row.fingerprint = rules.fingerprint item ∧
      row.delivered = (b.open? rules userId item).any (·.delivered) := by
  obtain rfl : item.id = itemId := (Table.mem_of_find? hitem).2
  refine ⟨_, ?_, rfl, ?_⟩
  · rw [find?_refresh, if_pos rfl, hitem]
  · cases hopen : b.open? rules userId item with
    | none => exact ⟨rfl, rfl, rfl, rfl, rfl⟩
    | some row =>
      obtain ⟨hrow, hsame, hactive⟩ := open?_eq_some.mp hopen
      obtain ⟨huser, hid⟩ := Prod.ext_iff.mp (Table.mem_of_find? hrow).2
      exact ⟨huser, hid, hactive, hsame, rfl⟩

/-- An item is pending exactly if it is not open and delivered. -/
theorem NotificationBoard.mem_pending (rules : NotificationRules) (userId : String)
    {b : NotificationBoard} {mode : NotificationMode} {items : List NotificationItem}
    {item : NotificationItem}
    (hitem : (actionable mode items).find? itemId = some item) :
    item ∈ b.pending rules userId mode items ↔
      (b.open? rules userId item).any (·.delivered) = false := by
  obtain rfl : item.id = itemId := (Table.mem_of_find? hitem).2
  simp [pending, mem_actionable.mpr hitem]

/-- After a reconcile that is given an item it is open, and delivered if it was or if that was in
the foreground. -/
theorem NotificationState.open_reconcile (rules : NotificationRules) (userId : String)
    {items : List NotificationItem} {item : NotificationItem}
    (hitem : (NotificationBoard.actionable (s.board.preferencesOf userId).mode items).find? itemId =
      some item) (foreground : Bool) (localHour : Option ℤ) (now : ℕ) :
    (notificationStep rules s (.reconcile userId items foreground localHour now)).Open userId itemId
      (rules.fingerprint item)
      ((s.board.open? rules userId item).any (·.delivered) || foreground) := by
  obtain ⟨row, hrow, -, huser, hid, hactive, hsame, hdelivered⟩ :=
    NotificationBoard.refresh_item rules userId (b := s.board) hitem now
  cases foreground with
  | false => exact ⟨row, hrow, hactive, hsame, by rw [hdelivered, Bool.or_false]⟩
  | true =>
    let pending := s.board.pending rules userId (s.board.preferencesOf userId).mode items
    have hmarked := NotificationBoard.find?_markDelivered
      (b := s.board.refresh rules now userId (s.board.preferencesOf userId).mode items) userId
      (pending.map (·.id)) (userId, itemId)
    rw [hrow, Option.map_some] at hmarked
    refine ⟨_, hmarked, ?_⟩
    rw [Bool.or_true]
    split
    · exact ⟨hactive, hsame, rfl⟩
    · -- What was not marked was delivered.
      next hunmarked =>
      refine ⟨hactive, hsame, ?_⟩
      by_contra hnot
      rw [hdelivered, Bool.not_eq_true] at hnot
      have hmem := (NotificationBoard.mem_pending rules userId hitem).mpr hnot
      have hkey : item.id = itemId := (Table.mem_of_find? hitem).2
      apply hunmarked
      simp only [huser, hid, hactive, Bool.and_true, beq_self_eq_true, Bool.true_and,
        List.contains_iff_mem]
      exact List.mem_map.mpr ⟨item, hmem, hkey⟩

/-- Preferences leave the rows. -/
theorem NotificationBoard.rows_updatePreferences (b : NotificationBoard) (now : ℕ) (userId : String)
    (enabled : Bool) (quietStart quietEnd : Option ℤ) (mode : String) :
    (commit (b.updatePreferences now userId enabled quietStart quietEnd mode) b).rows = b.rows := by
  refine commit_of (P := fun c : NotificationBoard => c.rows = b.rows) rfl fun c hc => ?_
  unfold updatePreferences at hc
  split at hc
  · cases hc
  · obtain ⟨-, -, hc⟩ := bind_eq_ok.mp hc
    obtain ⟨-, -, hc⟩ := bind_eq_ok.mp hc
    cases hc
    rfl

/-- An open item stays open with its fingerprint while it is presented, and a step that settles it
delivers it. -/
theorem NotificationState.Open.step {rules : NotificationRules} {delivered : Bool}
    (h : s.Open userId itemId fingerprint delivered)
    {op : NotificationStep} (hpresents : op.Presents rules userId itemId fingerprint s) :
    (notificationStep rules s op).Open userId itemId fingerprint
      (delivered || op.settles userId itemId fingerprint) := by
  obtain ⟨row, hrow, hactive, hsame, rfl⟩ := h
  obtain ⟨huser, hid⟩ : row.userId = userId ∧ row.itemId = itemId :=
    Prod.ext_iff.mp (Table.mem_of_find? hrow).2
  -- A mark delivers the row if it names it.
  have hmark : ∀ {b : NotificationBoard} {named : Bool} {f : NotificationRow → NotificationRow},
      b.rows.find? (userId, itemId) = some (if named then f row else row) →
      (f row).active = true → (f row).fingerprint = fingerprint → (f row).delivered = true →
      NotificationState.Open { s with board := b } userId itemId fingerprint
        (row.delivered || named) := by
    intro b named f hfound hactive' hsame' hdelivered
    cases named with
    | false => exact ⟨row, hfound, hactive, hsame, by rw [Bool.or_false]⟩
    | true => exact ⟨f row, hfound, hactive', hsame', by rw [hdelivered, Bool.or_true]⟩
  cases op with
  | reconcile user items foreground localHour now =>
    by_cases hother : user = userId
    · subst hother
      obtain ⟨item, hitem, hpresented⟩ := hpresents rfl
      have hkey : item.id = itemId := (Table.mem_of_find? hitem).2
      have hopen : s.board.open? rules user item = some row :=
        NotificationBoard.open?_eq_some.mpr ⟨hkey ▸ hrow, hsame.trans hpresented.symm, hactive⟩
      have hreconciled := s.open_reconcile rules user hitem foreground localHour now
      rw [hopen, hpresented] at hreconciled
      simpa [NotificationStep.settles] using hreconciled
    · -- A reconcile leaves the rows of the other users.
      have hsettles : (NotificationStep.reconcile user items foreground localHour
        now).settles userId
          itemId fingerprint = false := by
        simp [NotificationStep.settles, Ne.symm hother]
      have hkept : (s.board.refresh rules now user (s.board.preferencesOf user).mode
        items).rows.find?
          (userId, itemId) = some row := by
        rw [NotificationBoard.find?_refresh, if_neg (Ne.symm hother), hrow]
        simp [huser, Ne.symm hother]
      rw [hsettles, Bool.or_false]
      refine ⟨row, ?_, hactive, hsame, rfl⟩
      cases foreground with
      | false => exact hkept
      | true =>
        refine (NotificationBoard.find?_markDelivered _ _ _).trans ?_
        rw [hkept]
        simp [huser, Ne.symm hother]
  | preferences user enabled quietStart quietEnd mode now =>
    refine ⟨row, ?_, hactive, hsame, ?_⟩
    · rw [notificationStep, NotificationBoard.rows_updatePreferences]
      exact hrow
    · rw [NotificationStep.settles, Bool.or_false]
  | delivered user itemIds =>
    refine hmark (f := .deliver) ?_ hactive hsame rfl
    rw [NotificationBoard.find?_markDelivered, hrow, Option.map_some, huser, hid, hactive,
      Bool.and_true, NotificationStep.settles]
  | acknowledge user itemIds =>
    refine hmark (f := .view) ?_ hactive hsame rfl
    rw [NotificationBoard.find?_acknowledge, hrow, Option.map_some, huser, hid, hactive,
      Bool.and_true, NotificationStep.settles]
  | receipt user item sent =>
    refine hmark (f := .deliver) ?_ hactive hsame rfl
    rw [NotificationBoard.find?_markReceipt, hrow, Option.map_some, huser, hid, hactive, hsame,
      Bool.and_true, NotificationStep.settles]

/-- An open item is open for one fingerprint, and delivered or not. -/
theorem NotificationState.Open.delivered_eq {rules : NotificationRules} {item : NotificationItem}
    {delivered : Bool}
    (h : s.Open userId itemId (rules.fingerprint item) delivered) (hkey : item.id = itemId) :
    (s.board.open? rules userId item).any (·.delivered) = delivered := by
  obtain ⟨row, hrow, hactive, hsame, rfl⟩ := h
  rw [NotificationBoard.open?_eq_some.mpr ⟨hkey ▸ hrow, hsame, hactive⟩, Option.any_some]

/-- A reconcile returns an item that it is given exactly if its user wants to be notified now, and
the item is not open and delivered. -/
theorem NotificationState.returned_iff (rules : NotificationRules) (userId : String)
    {items : List NotificationItem} {item : NotificationItem}
    (hitem : (NotificationBoard.actionable (s.board.preferencesOf userId).mode items).find? itemId =
      some item) (foreground : Bool) (localHour : Option ℤ) (now : ℕ) :
    let result := (s.board.reconcile rules now userId items foreground localHour).1
    (∃ returned ∈ result.events, returned.id = itemId ∧
        rules.fingerprint returned = rules.fingerprint item) ↔
      result.enabled = true ∧ result.quiet = false ∧ foreground = false ∧
        (s.board.open? rules userId item).any (·.delivered) = false := by
  have hkey : item.id = itemId := (Table.mem_of_find? hitem).2
  have hpending := NotificationBoard.mem_pending rules userId (b := s.board) hitem
  simp only [NotificationBoard.reconcile]
  split
  · next hwanted =>
    rw [and_iff_right hwanted.1, and_iff_right hwanted.2.1, and_iff_right hwanted.2.2, ← hpending]
    constructor
    · rintro ⟨other, hother, hsame, -⟩
      have hfound := NotificationBoard.mem_actionable.mp (List.mem_filter.mp hother).1
      rw [hsame] at hfound
      exact Option.some.inj (hfound.symm.trans hitem) ▸ hother
    · intro hmem
      exact ⟨item, hmem, hkey, rfl⟩
  · next hunwanted =>
    refine iff_of_false (by simp) fun hall => hunwanted ⟨hall.1, hall.2.1, hall.2.2.1⟩

/-- While an item is presented it stays open, and is delivered exactly if a step settled it. -/
theorem NotificationState.Open.run {rules : NotificationRules} {delivered : Bool}
    (h : s.Open userId itemId fingerprint delivered) {steps : List NotificationStep}
    (hmeets : RunMeets (notificationStep rules)
      (fun s op => op.Presents rules userId itemId fingerprint s) s steps) :
    (run (notificationStep rules) s steps).Open userId itemId fingerprint
      (delivered || steps.any (·.settles userId itemId fingerprint)) := by
  induction steps generalizing s delivered with
  | nil => simpa using h
  | cons op steps ih =>
    have hrest := ih (h.step hmeets.1) hmeets.2
    rwa [Bool.or_assoc, ← List.any_cons] at hrest

/-- A row that is active after a refresh was there, or was opened by it. -/
theorem NotificationBoard.mem_refresh {rules : NotificationRules} {b : NotificationBoard}
    {mode : NotificationMode}
    {items : List NotificationItem} {now : ℕ} {row : NotificationRow}
    (h : row ∈ (b.refresh rules now userId mode items).rows.rows) (hactive : row.active = true) :
    row ∈ b.rows.rows ∨ row.delivered = false ∧ row.viewed = false := by
  have hfound := Table.find?_of_mem h
  rw [find?_refresh] at hfound
  split at hfound
  · next item _ =>
    cases hopen : b.open? rules userId item with
    | none =>
      rw [hopen] at hfound
      exact .inr (Option.some.inj hfound ▸ ⟨rfl, rfl⟩)
    | some old =>
      rw [hopen] at hfound
      obtain rfl : old = row := Option.some.inj hfound
      exact .inl (Table.mem_of_find? (open?_eq_some.mp hopen).1).1
  · obtain ⟨old, hold, hsame⟩ := Option.map_eq_some_iff.mp hfound
    split at hsame
    · rw [← hsame] at hactive
      cases hactive
    · exact .inl (hsame ▸ (Table.mem_of_find? hold).1)

/-- A mark of rows that were returned settles nothing else. -/
theorem NotificationState.Noticed.mark (h : s.Noticed) {named : NotificationRow → Bool}
    {f : NotificationRow → NotificationRow}
    (hf : ∀ row, (f row).userId = row.userId ∧ (f row).itemId = row.itemId ∧
      (f row).fingerprint = row.fingerprint ∧ (f row).active = row.active)
    (hnamed : ∀ row ∈ s.board.rows.rows, named row = true →
      (row.userId, row.itemId, row.fingerprint) ∈ s.returned)
    {b : NotificationBoard}
    (hrows : b.rows.rows = s.board.rows.rows.map fun row => if named row then f row else row) :
    NotificationState.Noticed { s with board := b } := by
  intro row hrow hactive hseen
  rw [hrows] at hrow
  obtain ⟨old, hold, rfl⟩ := List.mem_map.mp hrow
  split at hactive
  · next hmarked =>
    obtain ⟨huser, hid, hsame, -⟩ := hf old
    rw [if_pos hmarked, huser, hid, hsame]
    exact .inl (hnamed old hold hmarked)
  · next hunmarked =>
    rw [if_neg hunmarked] at hseen ⊢
    exact h old hold hactive hseen

/-- Steps that name only what was returned settle nothing else. -/
theorem NotificationState.Noticed.step {rules : NotificationRules} (h : s.Noticed)
    {op : NotificationStep}
    (hnames : op.NamesReturned s) : (notificationStep rules s op).Noticed := by
  cases op with
  | reconcile user items foreground localHour now =>
    have hmore : ∀ {row : NotificationRow}, row ∈ s.board.rows.rows → row.active = true →
        row.delivered = true ∨ row.viewed = true →
        (row.userId, row.itemId, row.fingerprint) ∈
            (notificationStep rules s (.reconcile user items foreground localHour now)).returned ∨
          (row.userId, row.itemId, row.fingerprint) ∈
            (notificationStep rules s (.reconcile user items foreground localHour
              now)).foregrounded := by
      intro row hrow hactive hseen
      refine (h row hrow hactive hseen).imp (List.mem_append_left _) fun hkept => ?_
      simp only [notificationStep]
      split
      · exact List.mem_append_left _ hkept
      · exact hkept
    have hrefreshed : ∀ {row : NotificationRow},
        row ∈ (s.board.refresh rules now user (s.board.preferencesOf user).mode items).rows.rows →
        row.active = true → row.delivered = true ∨ row.viewed = true →
        row ∈ s.board.rows.rows := by
      intro row hrow hactive hseen
      refine (NotificationBoard.mem_refresh hrow hactive).resolve_right ?_
      rintro ⟨hdelivered, hviewed⟩
      rcases hseen with hseen | hseen
      · cases hdelivered.symm.trans hseen
      · cases hviewed.symm.trans hseen
    intro row hrow hactive hseen
    cases foreground with
    | false => exact hmore (hrefreshed hrow hactive hseen) hactive hseen
    | true =>
      obtain ⟨old, hold, rfl⟩ := List.mem_map.mp hrow
      split at hactive
      · -- The row is of a pending item, and was kept back with it.
        next hmarked =>
        rw [if_pos hmarked]
        simp only [Bool.and_eq_true, beq_iff_eq, List.contains_iff_mem] at hmarked
        obtain ⟨⟨huser, hid⟩, -⟩ := hmarked
        obtain ⟨item, hpending, hkey⟩ := List.mem_map.mp hid
        have hitem := NotificationBoard.mem_actionable.mp (List.mem_filter.mp hpending).1
        rw [hkey] at hitem
        obtain ⟨row, hrow, -, -, -, -, hsame, -⟩ := NotificationBoard.refresh_item rules
          user (b := s.board) hitem now
        obtain rfl : row = old := Table.eq_of_mem (Table.mem_of_find? hrow).1 hold (by
          rw [(Table.mem_of_find? hrow).2, ← huser]
          rfl)
        refine .inr (List.mem_append_right _ (List.mem_map.mpr ⟨item, hpending, ?_⟩))
        rw [hkey, ← hsame, ← huser]
        rfl
      · next hunmarked =>
        rw [if_neg hunmarked] at hseen ⊢
        exact hmore (hrefreshed hold hactive hseen) hactive hseen
  | preferences user enabled quietStart quietEnd mode now =>
    intro row hrow
    rw [notificationStep, NotificationBoard.rows_updatePreferences] at hrow
    exact h row hrow
  | delivered user itemIds =>
    refine h.mark (f := .deliver) (fun _ => ⟨rfl, rfl, rfl, rfl⟩) (fun row hrow hnamed => ?_) rfl
    simp only [Bool.and_eq_true, beq_iff_eq, List.contains_iff_mem] at hnamed
    obtain ⟨⟨rfl, hid⟩, hopen⟩ := hnamed
    exact hnames row hrow rfl hid hopen
  | acknowledge user itemIds =>
    refine h.mark (f := .view) (fun _ => ⟨rfl, rfl, rfl, rfl⟩) (fun row hrow hnamed => ?_) rfl
    simp only [Bool.and_eq_true, beq_iff_eq, List.contains_iff_mem] at hnamed
    obtain ⟨⟨rfl, hid⟩, hopen⟩ := hnamed
    exact hnames row hrow rfl hid hopen
  | receipt user item sent =>
    refine h.mark (f := .deliver) (fun _ => ⟨rfl, rfl, rfl, rfl⟩) (fun row hrow hnamed => ?_) rfl
    simp only [Bool.and_eq_true, beq_iff_eq] at hnamed
    obtain ⟨⟨⟨rfl, rfl⟩, rfl⟩, hopen⟩ := hnamed
    exact hnames row hrow rfl rfl rfl hopen

end Steps

/-- An item that appears with a fingerprint is returned by the reconcile that finds it, and by every
later one while reconciles are given it and its mode admits it, exactly if the user wants to be
notified then, the reconcile is in the background, and no step since has acknowledged the item,
marked it as delivered or reconciled it in the foreground. Where acknowledgements and marks name
only what was returned, nothing that is open is delivered or viewed that was not returned, or kept
back in the foreground. -/
theorem notifications_surface (rules : NotificationRules) :
    (∀ (before middle : List NotificationStep) (userId itemId fingerprint : String)
        (items items' : List NotificationItem) (foreground foreground' : Bool)
        (localHour localHour' : Option ℤ) (now now' : ℕ),
      let s := run (notificationStep rules) .initial before
      let opening := NotificationStep.reconcile userId items foreground localHour now
      let reached := run (notificationStep rules) s (opening :: middle)
      let first := (s.board.reconcile rules now userId items foreground localHour).1
      let later := (reached.board.reconcile rules now' userId items' foreground' localHour').1
      (∀ delivered, ¬s.Open userId itemId fingerprint delivered) →
      s.Admits rules userId itemId fingerprint items →
      RunMeets (notificationStep rules)
        (fun s op => op.Presents rules userId itemId fingerprint s)
        (notificationStep rules s opening) middle →
      reached.Admits rules userId itemId fingerprint items' →
      ((∃ item ∈ first.events, item.id = itemId ∧ rules.fingerprint item = fingerprint) ↔
          first.enabled = true ∧ first.quiet = false ∧ foreground = false) ∧
        ((∃ item ∈ later.events, item.id = itemId ∧ rules.fingerprint item = fingerprint) ↔
          later.enabled = true ∧ later.quiet = false ∧ foreground' = false ∧
            ∀ op ∈ opening :: middle, op.settles userId itemId fingerprint = false)) ∧
      ∀ steps : List NotificationStep,
        RunMeets (notificationStep rules) (fun s op => op.NamesReturned s) .initial steps →
          (run (notificationStep rules) .initial steps).Noticed := by
  constructor
  · intro before middle userId itemId fingerprint items items' foreground foreground' localHour
      localHour' now now' s opening reached first later hnew hadmits hmeets hadmits'
    obtain ⟨item, hitem, rfl⟩ := hadmits
    have hkey : item.id = itemId := (Table.mem_of_find? hitem).2
    have hclosed : s.board.open? rules userId item = none := by
      by_contra hopen
      obtain ⟨row, hrow⟩ := Option.ne_none_iff_exists'.mp hopen
      obtain ⟨hfound, hsame, hactive⟩ := NotificationBoard.open?_eq_some.mp hrow
      exact hnew row.delivered ⟨row, hkey ▸ hfound, hactive, hsame, rfl⟩
    constructor
    · refine (s.returned_iff rules userId hitem foreground localHour now).trans ?_
      rw [hclosed]
      simp [first]
    · obtain ⟨item', hitem', hsame⟩ := hadmits'
      have hopened := s.open_reconcile rules userId hitem foreground localHour now
      rw [hclosed] at hopened
      have hreached : reached.Open userId itemId (rules.fingerprint item)
          (foreground || middle.any (·.settles userId itemId (rules.fingerprint item))) :=
        NotificationState.Open.run hopened hmeets
      rw [← hsame] at hreached
      have hreturned := reached.returned_iff rules userId hitem' foreground' localHour' now'
      rw [hreached.delivered_eq (Table.mem_of_find? hitem').2, hsame] at hreturned
      refine hreturned.trans ?_
      simp [later, opening, NotificationStep.settles]
  · intro steps hmeets
    exact run_invariant (fun s op h hnames => h.step hnames) hmeets fun row hrow => by cases hrow

namespace NotificationSample

/-- Rules under which the fingerprint of an item is its revision. -/
def rules : NotificationRules := ⟨fun material => ((material.get "revision").str?).getD ""⟩

/-- A question at a revision. -/
def question (revision : String) : NotificationItem :=
  ⟨"question", true, some "captain_question", false, .str revision, .null, .null,
    .null, .null, .null⟩

/-- A pull request that is ready. -/
def ready : NotificationItem :=
  ⟨"pull", false, some "pr_ready", false, .str "1", .null, .null, .null, .null, .null⟩

/-- A reconcile in the background. -/
def reconcile (items : List NotificationItem) : NotificationStep :=
  .reconcile "captain" items false none 0

/-- The mode, and whether notifications are wanted. -/
def preferences (enabled : Bool) (mode : String) : NotificationStep :=
  .preferences "captain" enabled none none mode 0

/-- What was returned after some steps, and the row of an item. -/
def outcome (itemId : String) (steps : List NotificationStep) :
    List (String × String × String) × Option NotificationRow :=
  let s := run (notificationStep rules) .initial steps
  (s.returned, s.board.rows.find? ("captain", itemId))

end NotificationSample

open NotificationSample

/-- A question is returned when it appears, and not any more once it was acknowledged. -/
theorem notifications_surface_question :
    (∃ item ∈ (NotificationBoard.initial.reconcile rules 0 "captain" [question "1"]
      false none).1.events,
        item.id = "question" ∧ rules.fingerprint item = "1") ∧
      (¬∃ item ∈ ((run (notificationStep rules) .initial
            [reconcile [question "1"], .acknowledge "captain" ["question"]]).board.reconcile rules 0
          "captain" [question "1"] false none).1.events,
        item.id = "question" ∧ rules.fingerprint item = "1") ∧
      (run (notificationStep rules) .initial
        [reconcile [question "1"], .acknowledge "captain" ["question"]]).Noticed := by
  have hadmits : ∀ s : NotificationState, (s.board.preferencesOf "captain").mode = .moderate →
      s.Admits rules "captain" "question" "1" [question "1"] := by
    intro s hmode
    refine ⟨question "1", ?_, rfl⟩
    rw [hmode]
    rfl
  have hsurface := (notifications_surface rules).1 []
    [.acknowledge "captain" ["question"]] "captain"
    "question" "1" [question "1"] [question "1"] false false none none 0 0
    (by rintro delivered ⟨row, hrow, -⟩; cases hrow) (hadmits _ rfl) ⟨trivial,
      trivial⟩ (hadmits _ rfl)
  refine ⟨hsurface.1.mpr ⟨rfl, rfl, rfl⟩, fun hlater => ?_, ?_⟩
  · have hsettled := (hsurface.2.mp hlater).2.2.2 _ (List.mem_cons_of_mem _ List.mem_cons_self)
    cases hsettled
  · refine (notifications_surface rules).2 _ ⟨trivial, ?_, trivial⟩
    rintro row hrow - - -
    obtain rfl := List.mem_singleton.mp hrow
    exact List.mem_cons_self

/-- A reconcile in the foreground delivers a question that is returned by none, then or later; a
question that is withdrawn while nothing is wanted is viewed and was not returned; a pull request
that was acknowledged is returned again after the mode left it out for a while; and the
acknowledgement of one revision is that of the next one, which is never returned. -/
theorem notifications_lost_and_repeated :
    outcome "question" [.reconcile "captain" [question "1"] true none 0, reconcile [question "1"]] =
        ([], some ⟨"captain", "question", "1", true, true, false, 0⟩) ∧
      outcome "question" [preferences false "moderate", reconcile [question "1"], reconcile []] =
        ([], some ⟨"captain", "question", "1", false, true, true, 0⟩) ∧
      outcome "pull" [reconcile [ready], .acknowledge "captain" ["pull"],
        preferences true "restricted",
          reconcile [ready], preferences true "moderate", reconcile [ready]] =
        ([("captain", "pull", "1"), ("captain", "pull", "1")],
          some ⟨"captain", "pull", "1", true, false, false, 0⟩) ∧
      outcome "question" [reconcile [question "1"], preferences false "moderate",
          reconcile [question "2"], .acknowledge "captain" ["question"],
          preferences true "moderate",
          reconcile [question "2"]] =
        ([("captain", "question", "1")],
          some ⟨"captain", "question", "2", true, true, true, 0⟩) := by
  refine ⟨?_, ?_, ?_, ?_⟩ <;> decide

end Magistrate
