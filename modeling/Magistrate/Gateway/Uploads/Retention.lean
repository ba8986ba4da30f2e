import Mathlib.Algebra.Order.Group.Nat
import Magistrate.Gateway.Uploads.Store

/-!
# Retention of uploads

Whatever the schedule, the live uploads stay within the limits and no expiry moves back. An
attached upload is kept until it expires as long as no upload is attached, and no attached one
retained, between the check and the write of a request that removes it.
-/

namespace Magistrate

/-- A row is kept: a deleted one stays deleted, and the expiry does not move back. -/
structure ChatUpload.Kept (u v : ChatUpload) : Prop where
  uploadId : v.uploadId = u.uploadId
  userId : v.userId = u.userId
  size : v.size = u.size
  deleted : v.deletedAt = none → u.deletedAt = none
  expiry : ∀ e, u.expiresAt = some e → ∃ e', v.expiresAt = some e' ∧ e ≤ e'

theorem ChatUpload.Kept.refl (u : ChatUpload) : u.Kept u :=
  ⟨rfl, rfl, rfl, id, fun e he => ⟨e, he, le_rfl⟩⟩

theorem ChatUpload.Kept.trans {u v w : ChatUpload} (h : u.Kept v) (h' : v.Kept w) : u.Kept w where
  uploadId := h'.uploadId.trans h.uploadId
  userId := h'.userId.trans h.userId
  size := h'.size.trans h.size
  deleted hw := h.deleted (h'.deleted hw)
  expiry e he := by
    obtain ⟨e', he', hle⟩ := h.expiry e he
    obtain ⟨e'', he'', hle'⟩ := h'.expiry e' he'
    exact ⟨e'', he'', hle.trans hle'⟩

theorem ChatUpload.Kept.extended (u : ChatUpload) (expiresAt : ℤ) :
    u.Kept { u with expiresAt := u.extended expiresAt } where
  uploadId := rfl
  userId := rfl
  size := rfl
  deleted := id
  expiry e he := by
    rw [ChatUpload.extended, he, Option.getD_some]
    split
    · exact ⟨e, rfl, le_rfl⟩
    · next hle => exact ⟨expiresAt, rfl, Int.not_lt.mp hle⟩

namespace UploadDb

variable {db db' db'' : UploadDb} {f g : ChatUpload → ChatUpload} {u : ChatUpload}
  {uploadId userId : String} {rules : UploadRules}

/-- An upload is attached to a message. -/
def attached (db : UploadDb) (uploadId : String) : Bool :=
  db.attachments.rows.any (·.uploadId = uploadId)

theorem attached_iff : db.attached uploadId = true ↔
    ∃ a ∈ db.attachments.rows, a.uploadId = uploadId := by
  simp [attached]

/-- The rows of uploads are rewritten one by one, and each is kept. -/
structure Rewrites (db db' : UploadDb) (f : ChatUpload → ChatUpload) : Prop where
  rows : db'.uploads.rows = db.uploads.rows.map f
  kept : ∀ u : ChatUpload, u.Kept (f u)

namespace Rewrites

theorem refl (h : db'.uploads = db.uploads) : Rewrites db db' id :=
  ⟨by rw [h, List.map_id], ChatUpload.Kept.refl⟩

theorem trans (h : Rewrites db db' f) (h' : Rewrites db' db'' g) : Rewrites db db'' (g ∘ f) :=
  ⟨by rw [h'.rows, h.rows, List.map_map], fun u => (h.kept u).trans (h'.kept (f u))⟩

/-- An id finds the row that it found, rewritten. -/
theorem find? (h : Rewrites db db' f) (id : String) :
    db'.uploads.find? id = (db.uploads.find? id).map f := by
  rw [Table.find?, h.rows, List.find?_map, Table.find?]
  congr 2
  funext u
  simp [(h.kept u).uploadId]

end Rewrites

theorem rewrites_tombstone (uploadId : String) (current : ℤ) :
    Rewrites db (db.tombstone uploadId current)
    fun u => if u.uploadId = uploadId then { u with deletedAt := some current } else u where
  rows := rfl
  kept u := by
    split
    · exact ⟨rfl, rfl, rfl, fun h => absurd h (Option.some_ne_none _), fun e he => ⟨e, he, le_rfl⟩⟩
    · exact .refl u

theorem rewrites_retain (request : UploadRetention) (now : ℤ) : Rewrites db (db.retain request now)
    fun u => if u.uploadId = request.uploadId ∧ u.userId = request.userId ∧ u.available now then
      { u with expiresAt := u.extended request.expiresAt } else u where
  rows := by
    rw [retain, Table.rows_updateWhere]
    simp only [decide_eq_true_eq]
  kept u := by
    split
    · exact .extended u _
    · exact .refl u

/-- What `associate_uploads` writes: rows of the given uploads get a later expiry, and
attachments of them are added. -/
structure Attaches (request : UploadAssociation) (db db' : UploadDb)
    (f : ChatUpload → ChatUpload) : Prop extends Rewrites db db' f where
  deletedAt : ∀ u, (f u).deletedAt = u.deletedAt
  others : ∀ u, u.uploadId ∉ request.uploadIds → f u = u
  attachments : ∀ a ∈ db'.attachments.rows, a ∈ db.attachments.rows ∨
    a.uploadId ∈ request.uploadIds ∧ a.userId = request.userId
  clock : db'.clock = db.clock

theorem attaches_attach {request : UploadAssociation} (now expiresAt : ℤ)
    (hmem : uploadId ∈ request.uploadIds) : ∃ f, Attaches request db
      (attach request now expiresAt db uploadId) f := by
  refine ⟨fun u => if u.uploadId = uploadId ∧ u.userId = request.userId then
    { u with expiresAt := u.extended expiresAt } else u, ⟨?_, fun u => ?_⟩,
    fun u => ?_, fun u hu => ?_,
    fun a ha => ?_, rfl⟩
  · rw [attach, Table.rows_updateWhere]
    simp only [decide_eq_true_eq]
  · split
    · exact .extended u _
    · exact .refl u
  · split <;> rfl
  · refine if_neg fun h => hu ?_
    rw [h.1]
    exact hmem
  · rcases Table.mem_insertOrIgnore ha with ha | ⟨-, rfl⟩
    · exact .inl ha
    · exact .inr ⟨hmem, rfl⟩

theorem attaches_fold {request : UploadAssociation} (now expiresAt : ℤ) {uploadIds : List String}
    (h : ∀ id ∈ uploadIds, id ∈ request.uploadIds) :
    ∃ f, Attaches request db (uploadIds.foldl (attach request now expiresAt) db) f := by
  induction uploadIds generalizing db with
  | nil => exact ⟨id, .refl rfl, fun _ => rfl, fun _ _ => rfl, fun _ ha => .inl ha, rfl⟩
  | cons uploadId rest ih =>
    rw [List.forall_mem_cons] at h
    obtain ⟨f, hf⟩ : ∃ f, Attaches request db (attach request now expiresAt db uploadId) f :=
      attaches_attach now expiresAt h.1
    obtain ⟨g, hg⟩ : ∃ g, Attaches request (attach request now expiresAt db uploadId)
      (rest.foldl (attach request now expiresAt)
        (attach request now expiresAt db uploadId)) g := ih h.2
    refine ⟨g ∘ f, hf.toRewrites.trans hg.toRewrites,
      fun u => (hg.deletedAt _).trans (hf.deletedAt u), fun u hu => ?_, fun a ha => ?_,
      hg.clock.trans hf.clock⟩
    · rw [Function.comp, hf.others u hu, hg.others u hu]
    · exact (hg.attachments a ha).elim (hf.attachments a) .inr

/-- The transaction attaches available uploads of the user, or changes nothing. -/
theorem associate_cases (rules : UploadRules) (request : UploadAssociation) (now : ℤ)
    (db : UploadDb) :
    db.associate rules request now = db ∨
      (∀ id ∈ request.uploadIds, ∃ u, db.uploads.find? id = some u ∧ u.userId = request.userId ∧
        u.deletedAt = none) ∧ ∃ f, Attaches request db (db.associate rules request now) f := by
  rw [associate]
  split
  · next h =>
    refine .inr ⟨fun id hid => ?_, attaches_fold _ _ fun _ hid => hid⟩
    obtain ⟨u, hu, hattachable⟩ := (Option.any_eq_true _ _).mp (List.all_eq_true.mp h id hid)
    simp only [decide_eq_true_eq, ChatUpload.available] at hattachable
    exact ⟨u, hu, hattachable.1, hattachable.2.1⟩
  · exact .inl rfl

/-- The transaction stores a new upload within the limits, or changes nothing. -/
theorem store_cases (rules : UploadRules) (request : UploadContent) (draw : UploadDraw)
    (db : UploadDb) : db.store rules request draw = db ∨
      ∃ u : ChatUpload, db.uploads.find? u.uploadId = none ∧ u.deletedAt = none ∧
        u.expiresAt ≠ none ∧ fits rules.userBytes rules.userCount (db.liveOf u.userId) u.size ∧
        fits rules.globalBytes rules.globalCount db.live u.size ∧
        db.store rules request draw = { db with uploads := db.uploads.insertOrIgnore u } := by
  rw [store]
  split
  · next mediaType scanStatus _ _ =>
    split
    · next hfits =>
      by_cases hfresh : db.uploads.find? draw.uploadId = none
      · exact .inr ⟨db.newUpload rules request draw mediaType scanStatus, hfresh, rfl,
          Option.some_ne_none _, hfits.1, hfits.2, rfl⟩
      · exact .inl (by rw [Table.insertOrIgnore_of_ne_none hfresh])
    · exact .inl rfl
  · exact .inl rfl

/-- Every upload that is found is still found, and kept. -/
def KeepsRows (db db' : UploadDb) : Prop :=
  ∀ id u, db.uploads.find? id = some u → ∃ v, db'.uploads.find? id = some v ∧ u.Kept v

theorem KeepsRows.refl (db : UploadDb) : KeepsRows db db := fun _ u hu => ⟨u, hu, .refl u⟩

theorem KeepsRows.trans (h : KeepsRows db db') (h' : KeepsRows db' db'') : KeepsRows db db'' := by
  intro id u hu
  obtain ⟨v, hv, hkept⟩ := h id u hu
  obtain ⟨w, hw, hkept'⟩ := h' id v hv
  exact ⟨w, hw, hkept.trans hkept'⟩

theorem Rewrites.grows (h : Rewrites db db' f) : KeepsRows db db' := fun id u hu =>
  ⟨f u, by rw [h.find?, hu, Option.map_some], h.kept u⟩

theorem grows_insert (u : ChatUpload) :
    KeepsRows db { db with uploads := db.uploads.insertOrIgnore u } := by
  intro id v hv
  refine ⟨v, ?_, .refl v⟩
  rw [Table.find?_insertOrIgnore, hv, Option.some_or]

section Limits

/-- Uploads are within a limit on their sizes and one on their number. -/
def Within (bytes count : ℕ) (uploads : List ChatUpload) : Prop :=
  (uploads.map (·.size)).sum ≤ bytes ∧ uploads.length ≤ count

/-- The live uploads are within the limits for each user and for all of them. -/
structure WithinQuota (rules : UploadRules) (db : UploadDb) : Prop where
  users : ∀ userId, Within rules.userBytes rules.userCount (db.liveOf userId)
  all : Within rules.globalBytes rules.globalCount db.live

variable {bytes count : ℕ} {uploads : List ChatUpload}

/-- Fewer uploads of the same sizes are within the limits. -/
theorem Within.sublist {uploads' : List ChatUpload}
    (hsizes : (uploads'.map (·.size)).Sublist (uploads.map (·.size)))
    (h : Within bytes count uploads) : Within bytes count uploads' := by
  refine ⟨(hsizes.sum_le_sum fun _ _ => Nat.zero_le _).trans h.1, ?_⟩
  have hlength := hsizes.length_le
  rw [List.length_map, List.length_map] at hlength
  exact hlength.trans h.2

/-- Rewritten rows that meet a condition are among the rows that met it. -/
theorem Within.rewritten {p : ChatUpload → Bool} (hkept : ∀ u : ChatUpload, u.Kept (f u))
    (hp : ∀ u, p (f u) → p u) (h : Within bytes count (uploads.filter p)) :
    Within bytes count ((uploads.map f).filter p) := by
  refine h.sublist ?_
  have hsize : (fun u : ChatUpload => u.size) ∘ f = fun u => u.size :=
    funext fun u => (hkept u).size
  rw [List.filter_map, List.map_map, hsize]
  exact (List.monotone_filter_right uploads hp).map _

theorem Within.append {u : ChatUpload} (h : fits bytes count uploads u.size = true) :
    Within bytes count (uploads ++ [u]) := by
  simp only [fits, decide_eq_true_eq] at h
  exact ⟨by simpa using h.2.2.1, by simpa using h.2.2.2⟩

theorem WithinQuota.rewritten (h : db.WithinQuota rules) (hr : Rewrites db db' f) :
    db'.WithinQuota rules where
  users userId := by
    have hold := h.users userId
    simp only [liveOf, live, List.filter_filter] at hold ⊢
    rw [hr.rows]
    refine hold.rewritten hr.kept fun u hu => ?_
    simp only [Bool.and_eq_true, decide_eq_true_eq, (hr.kept u).userId] at hu ⊢
    exact ⟨hu.1, (hr.kept u).deleted hu.2⟩
  all := by
    rw [live, hr.rows]
    refine Within.rewritten hr.kept (fun u hu => ?_) h.all
    rw [decide_eq_true_eq] at hu ⊢
    exact (hr.kept u).deleted hu

theorem WithinQuota.insert {u : ChatUpload} (h : db.WithinQuota rules)
    (hfresh : db.uploads.find? u.uploadId = none) (hlive : u.deletedAt = none)
    (huser : fits rules.userBytes rules.userCount (db.liveOf u.userId) u.size = true)
    (hall : fits rules.globalBytes rules.globalCount db.live u.size = true) :
    WithinQuota rules { db with uploads := db.uploads.insertOrIgnore u } := by
  have hrows : ({ db with uploads := db.uploads.insertOrIgnore u } : UploadDb).live =
      db.live ++ [u] := by
    simp [live, Table.rows_insertOrIgnore hfresh, hlive]
  refine ⟨fun userId => ?_, hrows ▸ .append hall⟩
  rw [liveOf, hrows, List.filter_append]
  by_cases hu : u.userId = userId
  · subst hu
    rw [List.filter_singleton, decide_eq_true rfl]
    exact .append huser
  · rw [List.filter_singleton, decide_eq_false hu, cond_false, List.append_nil]
    exact h.users userId

end Limits

/-- What the rows of every reachable state keep: an attachment is of an upload of its user, every
upload expires, and the live ones are within the limits. -/
structure Sound (rules : UploadRules) (db : UploadDb) : Prop where
  owners : ∀ a ∈ db.attachments.rows, ∃ u, db.uploads.find? a.uploadId = some u ∧
    u.userId = a.userId
  expiring : ∀ u ∈ db.uploads.rows, u.expiresAt ≠ none
  quota : db.WithinQuota rules

theorem Sound.rewritten (h : db.Sound rules) (hr : Rewrites db db' f)
    (hattached : ∀ a ∈ db'.attachments.rows, a ∈ db.attachments.rows ∨
      ∃ u, db.uploads.find? a.uploadId = some u ∧ u.userId = a.userId) : db'.Sound rules where
  owners a ha := by
    obtain ⟨u, hu, huser⟩ := (hattached a ha).elim (h.owners a) id
    obtain ⟨v, hv, hkept⟩ := hr.grows _ u hu
    exact ⟨v, hv, hkept.userId.trans huser⟩
  expiring v hv := by
    rw [hr.rows] at hv
    obtain ⟨u, hu, rfl⟩ := List.mem_map.mp hv
    obtain ⟨e, he⟩ := Option.ne_none_iff_exists'.mp (h.expiring u hu)
    obtain ⟨e', he', -⟩ := (hr.kept u).expiry e he
    exact he' ▸ Option.some_ne_none e'
  quota := h.quota.rewritten hr

theorem Sound.store (h : db.Sound rules) (request : UploadContent) (draw : UploadDraw) :
    (db.store rules request draw).Sound rules := by
  rcases store_cases rules request draw db
    with hsame | ⟨u, hfresh, hlive, hexpiry, huser, hall, hdb⟩
  · rwa [hsame]
  rw [hdb]
  refine ⟨fun a ha => ?_, fun v hv => ?_, h.quota.insert hfresh hlive huser hall⟩
  · obtain ⟨v, hv, howner⟩ := h.owners a ha
    obtain ⟨w, hw, hkept⟩ := grows_insert u _ v hv
    exact ⟨w, hw, hkept.userId.trans howner⟩
  · rcases Table.mem_insertOrIgnore hv with hv | ⟨-, rfl⟩
    · exact h.expiring v hv
    · exact hexpiry

/-- No attached upload was removed before it expired. -/
def AttachedKept (db : UploadDb) : Prop :=
  ∀ u ∈ db.uploads.rows, db.attached u.uploadId = true → ∀ t, u.deletedAt = some t →
    ∃ e, u.expiresAt = some e ∧ e ≤ t

/-- An upload is not newly attached, and if it was attached its expiry stays. -/
def Untouched (db db' : UploadDb) (id : String) : Prop :=
  (db'.attached id = true → db.attached id = true) ∧
    ∀ u, db.uploads.find? id = some u → db.attached id = true →
      ∃ v, db'.uploads.find? id = some v ∧ v.expiresAt = u.expiresAt

theorem Untouched.refl (db : UploadDb) (id : String) : Untouched db db id :=
  ⟨fun h => h, fun u hu _ => ⟨u, hu, rfl⟩⟩

/-- Rewritten rows of an upload with its expiry leave it untouched. -/
theorem Rewrites.untouched {id : String} (h : Rewrites db db' f)
    (hattached : db'.attached id = true → db.attached id = true)
    (hexpiry : ∀ u : ChatUpload, db.uploads.find? id = some u → db.attached id = true →
      (f u).expiresAt = u.expiresAt) : Untouched db db' id :=
  ⟨hattached, fun u hu hat => ⟨f u, by rw [h.find?, hu, Option.map_some], hexpiry u hu hat⟩⟩

end UploadDb

namespace UploadWork

open UploadDb

/-- The uploads that a turn attaches, or retains although they are attached. -/
def prolongs (db : UploadDb) : UploadWork → List String
  | .associateAt request now =>
    if request.uploadIds.all (db.attachable request now) then request.uploadIds else []
  | .retainAt request now =>
    if request.valid now ∧ db.attached request.uploadId ∧ (db.uploads.find? request.uploadId).any
      fun u => u.userId = request.userId ∧ u.available now then [request.uploadId] else []
  | _ => []

/-- The uploads that a request removes after it has checked them. -/
def removes : UploadWork → List String
  | .sweeping _ uploadIds _ => uploadIds
  | .unattached _ uploadId _ => [uploadId]
  | .unattachedAt _ uploadId _ _ => [uploadId]
  | _ => []

/-- A request that found an upload is its user's. -/
def Owned (db : UploadDb) : UploadWork → Prop
  | .found userId uploadId _ | .unattached userId uploadId _ | .unattachedAt userId uploadId _ _ =>
    ∃ u, db.uploads.find? uploadId = some u ∧ u.userId = userId
  | _ => True

/-- A request that has checked an upload can remove it. -/
def Cleared (db : UploadDb) : UploadWork → Prop
  | .sweeping current uploadIds _ => ∀ id ∈ uploadIds, db.attached id = true →
    ∃ u, db.uploads.find? id = some u ∧ ∃ e, u.expiresAt = some e ∧ e ≤ current
  | .unattached _ uploadId _ | .unattachedAt _ uploadId _ _ => db.attached uploadId = false
  | _ => True

variable {rules : UploadRules} {draw : UploadDraw} {db db' : UploadDb} {w w' : UploadWork}

theorem Owned.grows (h : w.Owned db) (hg : KeepsRows db db') : w.Owned db' := by
  cases w with
  | found userId uploadId rest | unattached userId uploadId rest
  | unattachedAt userId uploadId rest now =>
    obtain ⟨u, hu, huser⟩ := h
    obtain ⟨v, hv, hkept⟩ := hg _ u hu
    exact ⟨v, hv, hkept.userId.trans huser⟩
  | _ => trivial

theorem Cleared.untouched (h : w.Cleared db) (hu : ∀ id ∈ w.removes, Untouched db db' id) :
    w.Cleared db' := by
  cases w with
  | sweeping current uploadIds next =>
    intro id hid hattached
    obtain ⟨hold, hexpiry⟩ := hu id hid
    obtain ⟨u, hfound, e, he, hle⟩ := h id hid (hold hattached)
    obtain ⟨v, hv, hsame⟩ := hexpiry u hfound (hold hattached)
    exact ⟨v, hv, e, hsame.trans he, hle⟩
  | unattached userId uploadId rest | unattachedAt userId uploadId rest now =>
    rw [Cleared, Bool.eq_false_iff] at h ⊢
    exact fun hattached => h ((hu uploadId (List.mem_singleton_self _)).1 hattached)
  | _ => trivial

/-- What a turn writes. -/
inductive Writes (rules : UploadRules) (draw : UploadDraw) (db : UploadDb) :
    UploadWork → UploadDb → Prop where
  | nothing (work : UploadWork) : Writes rules draw db work db
  | sweep (current : ℤ) (uploadId : String) (rest : List String) (next : Option UploadContent) :
    Writes rules draw db (.sweeping current (uploadId :: rest) next) (db.tombstone uploadId current)
  | remove (userId uploadId : String) (rest : List String) (now : ℤ) :
    Writes rules draw db (.unattachedAt userId uploadId rest now) (db.tombstone uploadId now)
  | store (request : UploadContent) :
    Writes rules draw db (.save request) (db.store rules request draw)
  | associate (request : UploadAssociation) (now : ℤ) :
    Writes rules draw db (.associateAt request now) (db.associate rules request now)
  | retain (request : UploadRetention) (now : ℤ) (hvalid : request.valid now = true) :
    Writes rules draw db (.retainAt request now) (db.retain request now)

theorem turn_writes (rules : UploadRules) (draw : UploadDraw) (w : UploadWork) (db : UploadDb) :
    Writes rules draw db w (w.turn rules draw db).1 := by
  cases w with
  | sweeping current uploadIds next =>
    cases uploadIds with
    | nil => exact .nothing _
    | cons uploadId rest => exact .sweep ..
  | save request => exact .store request
  | associateAt request now => exact .associate request now
  | retainAt request now =>
    rw [turn]
    split
    · next hvalid => exact .retain request now hvalid
    · exact .nothing _
  | discard userId uploadIds =>
    cases uploadIds with
    | nil => exact .nothing _
    | cons uploadId rest => exact .nothing _
  | unattachedAt userId uploadId rest now =>
    rw [turn, tombstoneOwned]
    split
    · exact .remove ..
    · exact .nothing _
  | _ => exact .nothing _

/-- A turn of a sound state leaves its rows found and kept, and the state sound. -/
theorem Writes.sound (h : Writes rules draw db w db') (hs : db.Sound rules) :
    KeepsRows db db' ∧ db'.Sound rules := by
  cases h with
  | nothing => exact ⟨.refl db, hs⟩
  | sweep current uploadId rest next =>
    exact ⟨(rewrites_tombstone uploadId current).grows,
      hs.rewritten (rewrites_tombstone uploadId current) fun a ha => .inl ha⟩
  | remove userId uploadId rest now =>
    exact ⟨(rewrites_tombstone uploadId now).grows,
      hs.rewritten (rewrites_tombstone uploadId now) fun a ha => .inl ha⟩
  | store request =>
    refine ⟨?_, hs.store request draw⟩
    rcases store_cases rules request draw db with hsame | ⟨u, -, -, -, -, -, hdb⟩
    · rw [hsame]
      exact .refl db
    · rw [hdb]
      exact grows_insert u
  | associate request now =>
    rcases associate_cases rules request now db with hsame | ⟨hfound, f, hf⟩
    · rw [hsame]
      exact ⟨.refl db, hs⟩
    · refine ⟨hf.grows, hs.rewritten hf.toRewrites fun a ha => ?_⟩
      refine (hf.attachments a ha).imp id fun hnew => ?_
      obtain ⟨u, hu, huser, -⟩ := hfound _ hnew.1
      exact ⟨u, hu, huser.trans hnew.2.symm⟩
  | retain request now =>
    exact ⟨(rewrites_retain request now).grows,
      hs.rewritten (rewrites_retain request now) fun a ha => .inl ha⟩

/-- A turn leaves the uploads untouched that it does not prolong. -/
theorem Writes.untouched (h : Writes rules draw db w db') {id : String} (hid : id ∉ w.prolongs db) :
    Untouched db db' id := by
  cases h with
  | nothing => exact .refl db id
  | sweep current uploadId rest next =>
    refine (rewrites_tombstone uploadId current).untouched (fun h => h) fun u _ _ => ?_
    split <;> rfl
  | remove userId uploadId rest now =>
    refine (rewrites_tombstone uploadId now).untouched (fun h => h) fun u _ _ => ?_
    split <;> rfl
  | store request =>
    rcases store_cases rules request draw db with hsame | ⟨u, -, -, -, -, -, hdb⟩
    · rw [hsame]
      exact .refl db id
    · rw [hdb]
      refine ⟨fun h => h, fun v hv _ => ⟨v, ?_, rfl⟩⟩
      rw [Table.find?_insertOrIgnore, hv, Option.some_or]
  | associate request now =>
    by_cases hall : request.uploadIds.all (db.attachable request now) = true
    · rw [prolongs, if_pos hall] at hid
      obtain ⟨f, hf⟩ : ∃ f, Attaches request db (db.associate rules request now) f := by
        rw [UploadDb.associate, if_pos hall]
        exact attaches_fold _ _ fun _ h => h
      refine hf.untouched (fun hattached => ?_) fun u hu _ => ?_
      · obtain ⟨a, ha, hsame⟩ := attached_iff.mp hattached
        rcases hf.attachments a ha with ha | ⟨hnew, -⟩
        · exact attached_iff.mpr ⟨a, ha, hsame⟩
        · exact absurd (hsame ▸ hnew) hid
      · rw [hf.others u]
        rwa [(Table.mem_of_find? hu).2]
    · rw [UploadDb.associate, if_neg hall]
      exact .refl db id
  | retain request now hvalid =>
    refine (rewrites_retain request now).untouched (fun h => h) fun u hu hattached => ?_
    split
    · next hthis =>
      obtain ⟨hsame, huser, havailable⟩ := hthis
      obtain rfl : id = request.uploadId := (Table.mem_of_find? hu).2.symm.trans hsame
      refine absurd ?_ hid
      have hany : (db.uploads.find? request.uploadId).any
          (fun u => u.userId = request.userId ∧ u.available now) = true := by
        rw [hu, Option.any_some, decide_eq_true_eq]
        exact ⟨huser, havailable⟩
      rw [prolongs, if_pos ⟨hvalid, hattached, hany⟩]
      exact List.mem_singleton_self _
    · rfl

/-- A turn of a request that can remove what it checked removes no attached upload before it
expired. -/
theorem Writes.attachedKept (h : Writes rules draw db w db') (hw : w.Cleared db)
    (hkept : db.AttachedKept) : db'.AttachedKept := by
  cases h with
  | nothing => exact hkept
  | sweep current uploadId rest next =>
    intro v hv hattached t ht
    rw [(rewrites_tombstone uploadId current).rows] at hv
    obtain ⟨u, hu, rfl⟩ := List.mem_map.mp hv
    by_cases hid : u.uploadId = uploadId
    · rw [if_pos hid] at hattached ht ⊢
      obtain rfl : current = t := Option.some.inj ht
      obtain ⟨u', hu', e, he, hle⟩ := hw uploadId List.mem_cons_self (hid ▸ hattached)
      obtain rfl : u = u' := Option.some.inj ((hid ▸ Table.find?_of_mem hu).symm.trans hu')
      exact ⟨e, he, hle⟩
    · rw [if_neg hid] at hattached ht ⊢
      exact hkept u hu hattached t ht
  | remove userId uploadId rest now =>
    intro v hv hattached t ht
    rw [(rewrites_tombstone uploadId now).rows] at hv
    obtain ⟨u, hu, rfl⟩ := List.mem_map.mp hv
    by_cases hid : u.uploadId = uploadId
    · rw [if_pos hid] at hattached
      have hnot : db.attached uploadId = false := hw
      exact absurd (hid ▸ hattached) (Bool.eq_false_iff.mp hnot)
    · rw [if_neg hid] at hattached ht ⊢
      exact hkept u hu hattached t ht
  | store request =>
    rcases store_cases rules request draw db with hsame | ⟨u, -, hlive, -, -, -, hdb⟩
    · rwa [hsame]
    · rw [hdb]
      intro v hv hattached t ht
      rcases Table.mem_insertOrIgnore hv with hv | ⟨-, rfl⟩
      · exact hkept v hv hattached t ht
      · exact absurd (hlive.symm.trans ht) (Option.some_ne_none t).symm
  | associate request now =>
    rcases associate_cases rules request now db with hsame | ⟨hfound, f, hf⟩
    · rwa [hsame]
    · intro v hv hattached t ht
      rw [hf.rows] at hv
      obtain ⟨u, hu, rfl⟩ := List.mem_map.mp hv
      rw [hf.deletedAt] at ht
      by_cases hid : u.uploadId ∈ request.uploadIds
      · obtain ⟨u', hu', -, hlive⟩ := hfound _ hid
        obtain rfl : u = u' := Option.some.inj ((Table.find?_of_mem hu).symm.trans hu')
        exact absurd (hlive.symm.trans ht) (Option.some_ne_none t).symm
      · rw [hf.others u hid] at hattached ⊢
        refine hkept u hu (attached_iff.mpr ?_) t ht
        obtain ⟨a, ha, hsame⟩ := attached_iff.mp hattached
        exact ⟨a, (hf.attachments a ha).resolve_right fun hnew => hid (hsame ▸ hnew.1), hsame⟩
  | retain request now =>
    intro v hv hattached t ht
    rw [(rewrites_retain request now).rows] at hv
    obtain ⟨u, hu, rfl⟩ := List.mem_map.mp hv
    by_cases hthis : u.uploadId = request.uploadId ∧ u.userId = request.userId ∧ u.available now
    · rw [if_pos hthis] at ht
      have hlive : u.deletedAt = none := (of_decide_eq_true hthis.2.2).1
      exact absurd (hlive.symm.trans ht) (Option.some_ne_none t).symm
    · rw [if_neg hthis] at hattached ht ⊢
      exact hkept u hu hattached t ht

/-- A request starts with nothing found or checked. -/
theorem of_first {request : UploadRequest} (h : first request = some w) :
    w.Owned db ∧ w.Cleared db := by
  cases request with
  | cleanup =>
    cases h
    exact ⟨trivial, trivial⟩
  | discard userId uploadIds =>
    cases h
    exact ⟨trivial, trivial⟩
  | save request =>
    simp only [first, Option.ite_none_left_eq_some] at h
    obtain ⟨-, ⟨⟩⟩ := h
    exact ⟨trivial, trivial⟩
  | associate request | retain request =>
    simp only [first, Option.ite_none_right_eq_some] at h
    obtain ⟨-, ⟨⟩⟩ := h
    exact ⟨trivial, trivial⟩

/-- A turn that attaches or retains uploads is the last of its request. -/
theorem prolongs_of_next (h : (w.turn rules draw db).2 = some w') : w.prolongs db = [] := by
  cases w with
  | associateAt request now | retainAt request now => cases h
  | _ => rfl

/-- A request goes on with what it found to be its user's. -/
theorem Owned.next (h : w.Owned db) (hnext : (w.turn rules draw db).2 = some w') : w'.Owned db := by
  cases w with
  | sweep next | sweepAt current next | associate request | retain request =>
    cases hnext
    trivial
  | sweeping current uploadIds next =>
    cases uploadIds with
    | nil =>
      obtain ⟨request, -, rfl⟩ := Option.map_eq_some_iff.mp hnext
      trivial
    | cons uploadId rest =>
      cases hnext
      trivial
  | save request | associateAt request now | retainAt request now => cases hnext
  | discard userId uploadIds =>
    cases uploadIds with
    | nil => cases hnext
    | cons uploadId rest =>
      simp only [turn, Option.some.injEq] at hnext
      subst hnext
      split <;> trivial
  | discardAt userId uploadId rest now =>
    simp only [turn, Option.some.injEq] at hnext
    subst hnext
    split
    · next hfound =>
      obtain ⟨u, hu, hthis⟩ := (Option.any_eq_true _ _).mp hfound.2
      exact ⟨u, hu, (of_decide_eq_true hthis).1⟩
    · trivial
  | found userId uploadId rest =>
    simp only [turn, Option.ite_none_left_eq_some, Option.some.injEq] at hnext
    obtain ⟨-, rfl⟩ := hnext
    exact h
  | unattached userId uploadId rest =>
    cases hnext
    exact h
  | unattachedAt userId uploadId rest now =>
    cases hnext
    trivial

/-- A request goes on with what it checked. -/
theorem Cleared.next (h : w.Cleared db) (hs : db.Sound rules) (ho : w.Owned db)
    (hnext : (w.turn rules draw db).2 = some w') : w'.Cleared db := by
  cases w with
  | sweep next | associate request | retain request =>
    cases hnext
    trivial
  | sweepAt current next =>
    cases hnext
    intro id hid _
    obtain ⟨u, hu, rfl⟩ := List.mem_map.mp hid
    obtain ⟨hlive, hexpired⟩ := List.mem_filter.mp hu
    obtain ⟨e, he, hle⟩ := (Option.any_eq_true _ _).mp hexpired
    exact ⟨u, Table.find?_of_mem (List.mem_of_mem_filter hlive), e, he, of_decide_eq_true hle⟩
  | sweeping current uploadIds next =>
    cases uploadIds with
    | nil =>
      obtain ⟨request, -, rfl⟩ := Option.map_eq_some_iff.mp hnext
      trivial
    | cons uploadId rest =>
      cases hnext
      exact fun id hid => h id (List.mem_cons_of_mem _ hid)
  | save request | associateAt request now | retainAt request now => cases hnext
  | discard userId uploadIds =>
    cases uploadIds with
    | nil => cases hnext
    | cons uploadId rest =>
      simp only [turn, Option.some.injEq] at hnext
      subst hnext
      split <;> trivial
  | discardAt userId uploadId rest now =>
    simp only [turn, Option.some.injEq] at hnext
    subst hnext
    split <;> trivial
  | found userId uploadId rest =>
    simp only [turn, Option.ite_none_left_eq_some, Option.some.injEq] at hnext
    obtain ⟨hnot, rfl⟩ := hnext
    rw [Cleared, Bool.eq_false_iff]
    intro hattached
    -- an attachment of the upload is its user's
    obtain ⟨a, ha, rfl⟩ := attached_iff.mp hattached
    obtain ⟨u, hu, huser⟩ := hs.owners a ha
    obtain ⟨u', hu', rfl⟩ := ho
    obtain rfl : u = u' := Option.some.inj (hu.symm.trans hu')
    exact hnot (List.any_eq_true.mpr ⟨a, ha, decide_eq_true ⟨rfl, huser.symm⟩⟩)
  | unattached userId uploadId rest =>
    cases hnext
    exact h
  | unattachedAt userId uploadId rest now =>
    cases hnext
    trivial

end UploadWork

namespace UploadService

open UploadDb

variable {rules : UploadRules} {p : UploadService}

/-- The rows are sound, and what a request found is its user's. -/
def Sound (rules : UploadRules) (p : UploadService) : Prop :=
  p.shared.Sound rules ∧ ∀ w ∈ p.workers, w.Owned p.shared

/-- Attached uploads are kept, and each request can remove what it checked. -/
def Safe (p : UploadService) : Prop :=
  p.shared.AttachedKept ∧ ∀ w ∈ p.workers, w.Cleared p.shared

/-- No request is about to remove an upload that the turn attaches, or retains attached. -/
def NoRace (p : UploadService) : UploadTurn → Prop
  | .turn i _ => ∀ w, p.workers[i]? = some w → ∀ id ∈ w.prolongs p.shared, ∀ v ∈ p.workers,
    id ∉ v.removes
  | .start _ | .tick _ => True

instance (p : UploadService) (t : UploadTurn) : Decidable (p.NoRace t) :=
  match t with
  | .turn i _ => p.decidableTurn i fun w => ∀ id ∈ w.prolongs p.shared,
    ∀ v ∈ p.workers, id ∉ v.removes
  | .start _ | .tick _ => .isTrue trivial

theorem grows_step (hs : p.Sound rules) (t : UploadTurn) :
    KeepsRows p.shared (p.step rules t).shared := by
  cases t with
  | start request =>
    rw [step]
    cases UploadWork.first request <;> exact .refl _
  | tick seconds => exact fun id u hu => ⟨u, hu, .refl u⟩
  | turn i draw =>
    rw [step]
    cases hw : p.workers[i]? with
    | none => rw [Pool.turn_none hw]; exact .refl _
    | some w =>
      rw [Pool.shared_turn hw]
      exact ((UploadWork.turn_writes rules draw w p.shared).sound hs.1).1

theorem Sound.step (hs : p.Sound rules) (t : UploadTurn) : (p.step rules t).Sound rules := by
  cases t with
  | start request =>
    rw [UploadService.step]
    cases hw : UploadWork.first request with
    | none => exact hs
    | some w =>
      refine ⟨hs.1, fun v hv => ?_⟩
      rcases List.mem_append.mp hv with hv | hv
      · exact hs.2 v hv
      · rw [List.mem_singleton.mp hv]
        exact (UploadWork.of_first hw).1
  | tick seconds =>
    exact ⟨hs.1.rewritten (.refl rfl) fun a ha => .inl ha, fun v hv =>
      (hs.2 v hv).grows fun id u hu => ⟨u, hu, .refl u⟩⟩
  | turn i draw =>
    have hgrows := grows_step hs (.turn i draw)
    refine ⟨?_, fun v hv => ?_⟩
    · rw [UploadService.step]
      cases hw : p.workers[i]? with
      | none => rw [Pool.turn_none hw]; exact hs.1
      | some w =>
        rw [Pool.shared_turn hw]
        exact ((UploadWork.turn_writes rules draw w p.shared).sound hs.1).2
    · rcases Pool.mem_turn hv with hv | ⟨w, hw, hnext⟩
      · exact (hs.2 v hv).grows hgrows
      · exact ((hs.2 w (List.mem_of_getElem? hw)).next hnext).grows hgrows

theorem Safe.step (h : p.Safe) (hs : p.Sound rules) {t : UploadTurn} (ht : p.NoRace t) :
    (p.step rules t).Safe := by
  cases t with
  | start request =>
    rw [UploadService.step]
    cases hw : UploadWork.first request with
    | none => exact h
    | some w =>
      refine ⟨h.1, fun v hv => ?_⟩
      rcases List.mem_append.mp hv with hv | hv
      · exact h.2 v hv
      · rw [List.mem_singleton.mp hv]
        exact (UploadWork.of_first hw).2
  | tick seconds =>
    refine ⟨h.1, fun v hv => (h.2 v hv).untouched fun id _ => ⟨fun hat => hat, fun u hu _ => ?_⟩⟩
    exact ⟨u, hu, rfl⟩
  | turn i draw =>
    rw [UploadService.step]
    cases hw : p.workers[i]? with
    | none => rw [Pool.turn_none hw]; exact h
    | some w =>
      have hwrites := UploadWork.turn_writes rules draw w p.shared
      have hmem := List.mem_of_getElem? hw
      refine ⟨?_, fun v hv => ?_⟩
      · rw [Pool.shared_turn hw]
        exact hwrites.attachedKept (h.2 w hmem) h.1
      · rw [Pool.shared_turn hw]
        rcases Pool.mem_turn hv with hv | ⟨w', hw', hnext⟩
        · exact (h.2 v hv).untouched fun id hid => hwrites.untouched fun hprolongs =>
            ht w hw id hprolongs v hv hid
        · obtain rfl : w = w' := Option.some.inj (hw.symm.trans hw')
          refine ((h.2 w hmem).next hs.1 (hs.2 w hmem) hnext).untouched fun id _ => ?_
          exact hwrites.untouched
            (by rw [UploadWork.prolongs_of_next hnext]; exact List.not_mem_nil)

theorem Sound.initial : UploadService.initial.Sound rules := by
  refine ⟨⟨fun a ha => absurd ha List.not_mem_nil, fun u hu => absurd hu List.not_mem_nil,
    fun _ => ⟨Nat.zero_le _, Nat.zero_le _⟩, ⟨Nat.zero_le _, Nat.zero_le _⟩⟩, fun w hw => ?_⟩
  exact absurd hw List.not_mem_nil

theorem Safe.initial : UploadService.initial.Safe :=
  ⟨fun _ hu => absurd hu List.not_mem_nil, fun _ hw => absurd hw List.not_mem_nil⟩

/-- The expiry of an upload that is live in the later state is not before the one it had. -/
def ExpiriesKept (p q : UploadService) : Prop :=
  ∀ u ∈ p.shared.uploads.rows, ∀ v ∈ q.shared.uploads.rows, v.uploadId = u.uploadId →
    v.deletedAt = none → ∃ e e', u.expiresAt = some e ∧ v.expiresAt = some e' ∧ e ≤ e'

theorem expiriesKept_of_run (hs : p.Sound rules) (steps : List UploadTurn) :
    ExpiriesKept p (run (UploadService.step rules) p steps) := by
  have hgrows : (run (UploadService.step rules) p steps).Sound rules ∧
      KeepsRows p.shared (run (UploadService.step rules) p steps).shared :=
    run_invariant' (I := fun q : UploadService => q.Sound rules ∧ KeepsRows p.shared q.shared)
      (fun q t hq => ⟨hq.1.step t, hq.2.trans (grows_step hq.1 t)⟩) steps ⟨hs, .refl _⟩
  intro u hu v hv hid _
  obtain ⟨e, he⟩ := Option.ne_none_iff_exists'.mp (hs.1.expiring u hu)
  obtain ⟨w, hw, hkept⟩ := hgrows.2 _ u (Table.find?_of_mem hu)
  obtain rfl : v = w := Option.some.inj ((hid ▸ Table.find?_of_mem hv).symm.trans hw)
  obtain ⟨e', he', hle⟩ := hkept.expiry e he
  exact ⟨e, e', he, he', hle⟩

/-- In a run in which no upload is attached, and no attached one retained, while a request is about
to remove it, no attached upload is removed before it expires; in every run the live uploads are
within the limits, and no expiry moves back. -/
theorem uploads_kept {steps : List UploadTurn}
    (h : RunMeets (UploadService.step rules) NoRace initial steps) :
    (run (UploadService.step rules) initial steps).shared.AttachedKept ∧
      (run (UploadService.step rules) initial steps).shared.WithinQuota rules ∧
      ∀ before after, steps = before ++ after →
        ExpiriesKept (run (UploadService.step rules) initial before)
          (run (UploadService.step rules) initial steps) := by
  have hsafe := run_invariant (I := fun p : UploadService => p.Sound rules ∧ p.Safe)
    (fun p t hp ht => ⟨hp.1.step t, hp.2.step hp.1 ht⟩) h ⟨.initial, .initial⟩
  refine ⟨hsafe.2.1, hsafe.1.1.quota, ?_⟩
  rintro before after rfl
  rw [run_append]
  exact expiriesKept_of_run (run_invariant' (fun _ t hp => hp.step t) before .initial) after

section Example

/-- The default limits and times to live, and what one small text file is taken as. -/
def defaultUploadRules : UploadRules where
  userBytes := 250 * 1024 * 1024
  userCount := 500
  globalBytes := 5 * 1024 * 1024 * 1024
  globalCount := 10000
  unattachedTtl := 24 * 60 * 60
  attachedTtl := 30 * 24 * 60 * 60
  safeName name := name
  validateContent _ _ _ := some "text/plain"
  sha256 _ := "8f434346648f6b96df89dda901c5176b10a6d83961dd3c1ac88b59b2dc327aa4"

def noteDraw : UploadDraw := ⟨"note_00000000000", "8f/43/00000000", true, some "not-configured"⟩

/-- A note is uploaded. -/
def noteSaved : List UploadTurn :=
  [.start (.save ⟨"user_1", "note.txt", none, [0x68, 0x69]⟩),
    .turn 0 noteDraw, .turn 0 noteDraw, .turn 0 noteDraw, .turn 0 noteDraw]

/-- The removal of the note finds it unattached, and a message takes it in the meantime. -/
def attachedMeanwhile : List UploadTurn :=
  noteSaved ++
    [.start (.discard "user_1" ["note_00000000000"]),
      .turn 0 noteDraw, .turn 0 noteDraw, .turn 0 noteDraw,
      .start (.associate ⟨"user_1", "message_1", ["note_00000000000"]⟩),
      .turn 1 noteDraw, .turn 1 noteDraw, .turn 0 noteDraw, .turn 0 noteDraw]

/-- The attached note is removed before it expires. -/
theorem attached_note_removed :
    ¬(run (UploadService.step defaultUploadRules) initial
      attachedMeanwhile).shared.AttachedKept := by
  have hremoved : ∃ u ∈ (run (UploadService.step defaultUploadRules) initial
      attachedMeanwhile).shared.uploads.rows, (run (UploadService.step defaultUploadRules) initial
        attachedMeanwhile).shared.attached u.uploadId = true ∧ u.deletedAt = some 0 ∧
          u.expiresAt = some 2592000 := by decide
  obtain ⟨u, hu, hattached, hdeleted, hexpiry⟩ := hremoved
  intro hkept
  obtain ⟨e, he, hle⟩ := hkept u hu hattached 0 hdeleted
  obtain rfl : 2592000 = e := Option.some.inj (hexpiry.symm.trans he)
  exact absurd hle (by decide)

/-- A message takes the note, its removal is refused, and a sweep removes it when it has expired. -/
def sweptAttached : List UploadTurn :=
  noteSaved ++
    [.start (.associate ⟨"user_1", "message_1", ["note_00000000000"]⟩),
      .turn 0 noteDraw, .turn 0 noteDraw,
      .start (.discard "user_1" ["note_00000000000"]),
      .turn 0 noteDraw, .turn 0 noteDraw, .turn 0 noteDraw,
      .tick 2592000, .start .cleanup,
      .turn 0 noteDraw, .turn 0 noteDraw, .turn 0 noteDraw, .turn 0 noteDraw]

theorem uploads_kept_attached :
    RunMeets (UploadService.step defaultUploadRules) NoRace initial sweptAttached ∧
    (run (UploadService.step defaultUploadRules) initial sweptAttached).shared.AttachedKept ∧
    ∃ u ∈ (run (UploadService.step defaultUploadRules) initial
      sweptAttached).shared.uploads.rows, (run (UploadService.step defaultUploadRules) initial
        sweptAttached).shared.attached u.uploadId = true ∧ u.deletedAt = some 2592000 ∧
          u.expiresAt = some 2592000 := by
  have h : RunMeets (UploadService.step defaultUploadRules) NoRace initial sweptAttached := by
    decide
  exact ⟨h, (uploads_kept h).1, by decide⟩

end Example

end UploadService

end Magistrate
