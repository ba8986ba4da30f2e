import Magistrate.Gateway.Pi.Envelope

/-!
# Binding prefixes of source sequences

The evidence of an answer contains the evidence of its binding: the entries up to the
marker of the binding pass the checks of a binding whenever the whole sequence passes
those of an answer.
-/

namespace Magistrate

namespace PiOwnershipEnvelope

variable {digest : PiDigest} {e b f : PiOwnershipEnvelope}

/-- The entries of a sequence are numbered without gaps and form one chain. -/
structure Chained (e : PiOwnershipEnvelope) (start : ℤ) : Prop where
  first : e.sourceStartOrder = some start
  last : e.sourceEndOrder = some (start + e.sourceSequence.length - 1)
  nonempty : e.sourceSequence ≠ []
  length : e.sourceSequence.length ≤ 4096
  orders : e.sourceSequence.map PiSourceEntry.order =
    (List.range e.sourceSequence.length).map fun index : ℕ => start + index
  nodup : (e.sourceSequence.map PiSourceEntry.entryId).Nodup
  chain : ∀ pair ∈ e.sourceSequence.zip e.sourceSequence.tail,
    pair.2.parentId = some pair.1.entryId

theorem validateOrder_eq_ok : e.validateOrder = .ok () ↔ ∃ start, e.Chained start := by
  simp only [validateOrder, bind_eq_ok, raiseIf_eq_ok, orRaise_eq_ok, not_or, not_not, not_lt,
    exists_and_left, exists_const]
  constructor
  · rintro ⟨⟨hne, hlength⟩, start, hstart, stop, hstop, ⟨hle, hcount, horders⟩, hnodup, hchain⟩
    have hlast : stop = start + e.sourceSequence.length - 1 := by omega
    exact ⟨start, hstart, hlast ▸ hstop, hne, hlength, horders, hnodup, hchain⟩
  · rintro ⟨start, h⟩
    have hpos : 0 < e.sourceSequence.length := List.length_pos_iff.mpr h.nonempty
    exact ⟨⟨h.nonempty, h.length⟩, start, h.first, _, h.last,
      ⟨by omega, by omega, h.orders⟩, h.nodup, h.chain⟩

/-- The prompt of a sequence, between its markers. -/
structure Marked (e : PiOwnershipEnvelope) (prepare user bind : PiSourceEntry) : Prop where
  prepareFound : e.entryOf e.piPrepareEntryId = some prepare
  anchor : e.sourceSequence.head? = some prepare
  prepares : prepare.isMarker prepareEntryType = true
  userFound : e.entryOf e.piUserEntryId = some user
  prompts : user.isMessageOf .user = true
  order : e.piUserEntryOrder = some user.order
  bindFound : e.entryOf e.piBindEntryId = some bind
  binds : bind.isMarker bindEntryType = true
  prepareFirst : e.position prepare < e.position user
  userFirst : e.position user < e.position bind
  onlyUser : some ((e.sourceSequence.filter (PiSourceEntry.isMessageOf .user)).map
    PiSourceEntry.entryId) = e.piUserEntryId.map fun id => [id]

theorem validateMarkers_eq_ok {bind : PiSourceEntry} :
    e.validateMarkers = .ok bind ↔ ∃ prepare user, e.Marked prepare user bind := by
  simp only [validateMarkers, bind_eq_ok, raiseIf_eq_ok, orRaise_eq_ok, pure_eq_ok, not_not,
    Option.filter_eq_some_iff, Bool.and_eq_true, decide_eq_true_eq, exists_const]
  constructor
  · rintro ⟨prepare, ⟨hprepare, hfirst, hprepares⟩, user, ⟨huser, hprompts⟩, horder, found,
      ⟨hbind, hbinds⟩, ⟨hprepareFirst, huserFirst⟩, honly, rfl⟩
    exact ⟨prepare, user, hprepare, hfirst, hprepares, huser, hprompts, horder, hbind, hbinds,
      hprepareFirst, huserFirst, honly⟩
  · rintro ⟨prepare, user, h⟩
    exact ⟨prepare, ⟨h.prepareFound, h.anchor, h.prepares⟩, user,
      ⟨h.userFound, h.prompts⟩, h.order, bind, ⟨h.bindFound, h.binds⟩,
        ⟨h.prepareFirst, h.userFirst⟩, h.onlyUser, rfl⟩

/-- The binding envelope whose fields are the binding prefix of a final one: it names the same
dispatch, binding and prompt, and its sequence ends at the marker of the binding. -/
structure BindingOf (digest : PiDigest) (f b : PiOwnershipEnvelope) : Prop where
  nonce : b.requestNonce.isPrefixed "" 16 128 = true
  stage : b.eventType = .bound ∧ b.sourceRevision = 1 ∧ b.finality = .pending
  dispatch : b.dispatchIncarnation = f.dispatchIncarnation ∧
    b.capabilitySha256 = f.capabilitySha256 ∧ b.tenantId = f.tenantId ∧
    b.principalId = f.principalId ∧ b.conversationId = f.conversationId ∧ b.turnId = f.turnId ∧
    b.assistantMessageId = f.assistantMessageId ∧ b.objectiveId = f.objectiveId ∧ b.runId = f.runId
  binding : b.piSessionId = f.piSessionId ∧ b.piPrepareEntryId = f.piPrepareEntryId ∧
    b.piUserEntryId = f.piUserEntryId ∧ b.piUserEntryOrder = f.piUserEntryOrder ∧
    b.piUserContentSha256 = f.piUserContentSha256 ∧ b.piBindEntryId = f.piBindEntryId ∧
    b.boundAt = f.boundAt
  unanswered : b.piAssistantEntryId = none ∧ b.piAssistantEntryOrder = none ∧
    b.piFinalizeEntryId = none ∧ b.finalizedAt = none ∧ b.stopReason = none ∧
    b.visibleContentSha256 = none ∧ b.assistantContent = [] ∧ b.errorCode = none
  entries : b.sourceSequence <+: f.sourceSequence
  marker : b.sourceSequence.getLast?.map PiSourceEntry.entryId = b.piBindEntryId
  source : b.sourceStartOrder = f.sourceStartOrder ∧
    b.sourceEndOrder = b.sourceSequence.getLast?.map PiSourceEntry.order ∧
    b.sourceCursor = b.sourceSequence.getLast?.map PiSourceEntry.entryId ∧
    b.sourceSequenceSha256 = some (digest.sequenceHash b.sourceSequence)

/-- The envelope that the recovery rebuilds is the binding envelope, up to its nonce. -/
theorem BindingOf.eq_payload (h : BindingOf digest f b) :
    b = { f.bindingPayload b.sourceSequence (digest.sequenceHash b.sourceSequence) with
      requestNonce := b.requestNonce } := by
  obtain ⟨-, ⟨h1, h2, h3⟩, ⟨h4, h5, h6, h7, h8, h9, h10, h11, h12⟩,
    ⟨h13, h14, h15, h16, h17, h18, h19⟩, ⟨h20, h21, h22, h23, h24, h25, h26, h27⟩, -, -,
      ⟨h28, h29, h30, h31⟩⟩ := h
  cases b
  simp only at *
  simp only [bindingPayload, mk.injEq]
  simp_all

/-- The digest of a sequence that passes is the digest of its entries. -/
theorem eq_of_validateSequence {final : Bool} {computed : PyText}
    (h : e.validateSequence digest final = .ok computed) :
    computed = digest.sequenceHash e.sourceSequence := by
  simp only [validateSequence, validateDigest, bind_eq_ok, raiseIf_eq_ok, pure_eq_ok] at h
  obtain ⟨_, -, found, ⟨_, -, _, -, rfl⟩, bind, -, h⟩ := h
  cases final <;> simp only [Bool.false_eq_true, if_false, if_true, bind_eq_ok, pure_eq_ok] at h <;>
    exact h.choose_spec.2.symm

/-- An entry that is found stands in the sequence under its id. -/
theorem mem_of_entryOf {id : Option PyText} {entry : PiSourceEntry}
    (h : e.entryOf id = some entry) : entry ∈ e.sourceSequence ∧ id = some entry.entryId := by
  obtain ⟨id, rfl, hfound⟩ := Option.bind_eq_some_iff.mp h
  have hid : entry.entryId = id := by simpa using List.find?_some hfound
  exact ⟨List.mem_of_find?_eq_some hfound, congrArg some hid.symm⟩

namespace BindingOf

variable {rest : List PiSourceEntry} {entry : PiSourceEntry}

/-- An entry of the prefix is found in it where it is found in the whole sequence. -/
theorem entryOf_eq (hsplit : f.sourceSequence = b.sourceSequence ++ rest) {id : Option PyText}
    (hfound : f.entryOf id = some entry) (hmem : entry ∈ b.sourceSequence) :
    b.entryOf id = some entry := by
  obtain ⟨-, hid⟩ := mem_of_entryOf hfound
  obtain ⟨id, rfl, hfind⟩ := Option.bind_eq_some_iff.mp hfound
  show b.sourceSequence.find? _ = some entry
  rw [hsplit, List.find?_append] at hfind
  cases hb : b.sourceSequence.find? fun entry => entry.entryId = id with
  | none =>
    exact absurd (decide_eq_true (Option.some.inj hid).symm) (List.find?_eq_none.mp hb entry hmem)
  | some other => rwa [hb, Option.some_or] at hfind

/-- An entry of the prefix stands in it where it stands in the whole sequence. -/
theorem position_eq (hsplit : f.sourceSequence = b.sourceSequence ++ rest)
    (hmem : entry ∈ b.sourceSequence) : b.position entry = f.position entry := by
  rw [position, position, hsplit, List.findIdx_append, if_pos]
  exact List.findIdx_lt_length_of_exists ⟨entry, hmem, decide_eq_true rfl⟩

/-- An entry that stands within the prefix is one of its entries. -/
theorem mem_of_position_lt (hsplit : f.sourceSequence = b.sourceSequence ++ rest)
    (nodup : (f.sourceSequence.map PiSourceEntry.entryId).Nodup) (hmem : entry ∈ f.sourceSequence)
    (hlt : f.position entry < b.sourceSequence.length) : entry ∈ b.sourceSequence := by
  have hbound : f.position entry < f.sourceSequence.length :=
    List.findIdx_lt_length_of_exists ⟨entry, hmem, decide_eq_true rfl⟩
  have hid : (f.sourceSequence[f.position entry]).entryId = entry.entryId :=
    of_decide_eq_true (List.findIdx_getElem (w := hbound))
  have heq : f.sourceSequence[f.position entry] = entry :=
    List.inj_on_of_nodup_map nodup (List.getElem_mem hbound) hmem hid
  rw [← heq]
  simp only [hsplit, List.getElem_append_left hlt]
  exact List.getElem_mem hlt

variable {start : ℤ} {prepare user bind : PiSourceEntry}

/-- The entry of the binding marker ends the prefix. -/
theorem getLast?_eq (h : BindingOf digest f b) (hchained : f.Chained start)
    (hmarked : f.Marked prepare user bind) : b.sourceSequence.getLast? = some bind := by
  obtain ⟨-, -, -, -, -, hbind, -⟩ := h.binding
  obtain ⟨rest, hsplit⟩ := h.entries
  obtain ⟨hmem, hid⟩ := mem_of_entryOf hmarked.bindFound
  have hmarker := h.marker
  rw [hbind, hid, Option.map_eq_some_iff] at hmarker
  obtain ⟨last, hlast, hlastId⟩ := hmarker
  have hlastMem : last ∈ f.sourceSequence :=
    hsplit ▸ List.mem_append_left _ (List.mem_of_getLast? hlast)
  rw [hlast, List.inj_on_of_nodup_map hchained.nodup hlastMem hmem hlastId]

/-- The prefix is numbered without gaps, and its entries form one chain. -/
theorem chained (h : BindingOf digest f b) (hchained : f.Chained start)
    (hmarked : f.Marked prepare user bind) : b.Chained start := by
  obtain ⟨hstart, hstop, -, -⟩ := h.source
  obtain ⟨rest, hsplit⟩ := h.entries
  have hlast := h.getLast?_eq hchained hmarked
  have hnonempty : b.sourceSequence ≠ [] := by
    intro hnil
    rw [hnil] at hlast
    cases hlast
  have hlength : b.sourceSequence.length ≤ f.sourceSequence.length := by
    rw [← hsplit, List.length_append]
    exact Nat.le_add_right _ _
  have horders : b.sourceSequence.map PiSourceEntry.order =
      (List.range b.sourceSequence.length).map fun index : ℕ => start + index := by
    have htake := congrArg (List.take b.sourceSequence.length) hchained.orders
    rwa [← hsplit, List.map_append, List.take_left' (List.length_map _), ← List.map_take,
      List.take_range, hsplit, Nat.min_eq_left hlength] at htake
  have hpos : 0 < b.sourceSequence.length := List.length_pos_iff.mpr hnonempty
  refine ⟨hstart.trans hchained.first, ?_, hnonempty, hlength.trans hchained.length,
    horders, ?_, ?_⟩
  · rw [hstop, ← List.getLast?_map, horders, List.getLast?_map, List.getLast?_range,
      if_neg (by omega), Option.map_some]
    congr 1
    omega
  · have hnodup := hchained.nodup
    rw [← hsplit, List.map_append] at hnodup
    exact hnodup.of_append_left
  · intro pair hpair
    have hgrow (i : ℕ) (entry : PiSourceEntry) (hentry : b.sourceSequence[i]? = some entry) :
        f.sourceSequence[i]? = some entry := by
      rw [← hsplit, List.getElem?_append_left (List.getElem?_eq_some_iff.mp hentry).1, hentry]
    obtain ⟨i, hi⟩ := List.mem_iff_getElem?.mp hpair
    obtain ⟨hprevious, hcurrent⟩ := List.getElem?_zip_eq_some.mp hi
    rw [List.getElem?_tail] at hcurrent
    refine hchained.chain pair (List.mem_iff_getElem?.mpr ⟨i,
      List.getElem?_zip_eq_some.mpr ⟨?_, ?_⟩⟩)
    · exact hgrow i _ hprevious
    · rw [List.getElem?_tail]
      exact hgrow (i + 1) _ hcurrent

/-- The prompt of the prefix stands between its markers. -/
theorem marked (h : BindingOf digest f b) (hchained : f.Chained start)
    (hmarked : f.Marked prepare user bind) : b.Marked prepare user bind := by
  obtain ⟨-, hprepare, huser, horder, -, hbind, -⟩ := h.binding
  obtain ⟨rest, hsplit⟩ := h.entries
  have hlast := h.getLast?_eq hchained hmarked
  have hbindMem : bind ∈ b.sourceSequence := List.mem_of_getLast? hlast
  have hwithin {entry : PiSourceEntry} (hmem : entry ∈ f.sourceSequence)
      (hbefore : f.position entry < f.position bind) : entry ∈ b.sourceSequence := by
    refine mem_of_position_lt hsplit.symm hchained.nodup hmem (hbefore.trans ?_)
    rw [← position_eq hsplit.symm hbindMem]
    exact List.findIdx_lt_length_of_exists ⟨bind, hbindMem, decide_eq_true rfl⟩
  have huserMem := hwithin (mem_of_entryOf hmarked.userFound).1 hmarked.userFirst
  have hprepareMem := hwithin (mem_of_entryOf hmarked.prepareFound).1
    (hmarked.prepareFirst.trans hmarked.userFirst)
  refine
    { prepareFound := hprepare ▸ entryOf_eq hsplit.symm hmarked.prepareFound hprepareMem
      anchor := ?_
      prepares := hmarked.prepares
      userFound := huser ▸ entryOf_eq hsplit.symm hmarked.userFound huserMem
      prompts := hmarked.prompts
      order := horder.trans hmarked.order
      bindFound := hbind ▸ entryOf_eq hsplit.symm hmarked.bindFound hbindMem
      binds := hmarked.binds
      prepareFirst := ?_
      userFirst := ?_
      onlyUser := ?_ }
  · have hanchor := hmarked.anchor
    rwa [← hsplit, List.head?_append_of_ne_nil _ (List.ne_nil_of_mem hbindMem)] at hanchor
  · rw [position_eq hsplit.symm hprepareMem, position_eq hsplit.symm huserMem]
    exact hmarked.prepareFirst
  · rw [position_eq hsplit.symm huserMem, position_eq hsplit.symm hbindMem]
    exact hmarked.userFirst
  · -- The only prompt of the whole sequence stands in the prefix, so none stands behind it.
    have honly := hmarked.onlyUser
    obtain ⟨-, hid⟩ := mem_of_entryOf hmarked.userFound
    rw [huser]
    rw [hid, Option.map_some, Option.some_inj] at honly ⊢
    rw [← hsplit, List.filter_append, List.map_append] at honly
    have hmem : user ∈ b.sourceSequence.filter (PiSourceEntry.isMessageOf .user) :=
      List.mem_filter.mpr ⟨huserMem, hmarked.prompts⟩
    rcases List.append_eq_singleton_iff.mp honly with ⟨hnone, -⟩ | ⟨honly, -⟩
    · exact absurd hnone (List.ne_nil_of_mem (List.mem_map_of_mem hmem))
    · exact honly

/-- The evidence of an answer contains the evidence of its binding. -/
theorem validateSequence_eq (h : BindingOf digest f b) {computed : PyText}
    (hf : f.validateSequence digest true = .ok computed) :
    b.validateSequence digest false = .ok (digest.sequenceHash b.sourceSequence) := by
  obtain ⟨_, hcursor, hsha⟩ := h.source.2
  simp only [validateSequence, bind_eq_ok] at hf
  obtain ⟨_, horder, _, -, bind, hmarkers, -⟩ := hf
  obtain ⟨start, hchained⟩ := validateOrder_eq_ok.mp horder
  obtain ⟨prepare, user, hmarked⟩ := validateMarkers_eq_ok.mp hmarkers
  have hdigest : b.validateDigest digest = .ok (digest.sequenceHash b.sourceSequence) := by
    rw [validateDigest, raiseIf_ok (not_not.mpr hsha), ok_bind, raiseIf_ok (not_not.mpr hcursor)]
    rfl
  rw [validateSequence, validateOrder_eq_ok.mpr ⟨start, h.chained hchained hmarked⟩,
    ok_bind, hdigest, ok_bind, validateMarkers_eq_ok.mpr ⟨prepare, user,
      h.marked hchained hmarked⟩, ok_bind,
    if_neg Bool.false_ne_true, raiseIf_ok (not_not.mpr h.marker)]
  rfl

/-- The recovery cuts a sequence right behind the marker of its binding. -/
theorem bindPosition (h : BindingOf digest f b) {computed : PyText}
    (hf : f.validateSequence digest true = .ok computed) :
    ∃ position, (f.sourceSequence.findIdx? fun entry => f.piBindEntryId = some entry.entryId) =
      some position ∧ f.sourceSequence.take (position + 1) = b.sourceSequence := by
  simp only [validateSequence, bind_eq_ok] at hf
  obtain ⟨_, horder, _, -, bind, hmarkers, -⟩ := hf
  obtain ⟨start, hchained⟩ := validateOrder_eq_ok.mp horder
  obtain ⟨prepare, user, hmarked⟩ := validateMarkers_eq_ok.mp hmarkers
  have hlast := h.getLast?_eq hchained hmarked
  obtain ⟨-, hid⟩ := mem_of_entryOf hmarked.bindFound
  obtain ⟨rest, hsplit⟩ := h.entries
  obtain ⟨before, hbefore⟩ := List.getLast?_eq_some_iff.mp hlast
  rw [hbefore, List.append_assoc, List.singleton_append] at hsplit
  have hnodup := hchained.nodup
  rw [← hsplit, List.map_append, List.map_cons, List.nodup_middle, List.nodup_cons] at hnodup
  have hnone : before.findIdx? (fun entry => f.piBindEntryId = some entry.entryId) = none := by
    refine List.findIdx?_eq_none_iff.mpr fun entry hmem => decide_eq_false fun hbind => ?_
    refine hnodup.1 (List.mem_append_left _ ?_)
    rw [Option.some.inj (hid.symm.trans hbind)]
    exact List.mem_map_of_mem hmem
  refine ⟨before.length, ?_, ?_⟩
  · rw [← hsplit, List.findIdx?_append, hnone, Option.none_or, List.findIdx?_cons,
      if_pos (decide_eq_true hid), Option.map_some, Nat.zero_add]
  · rw [← hsplit, hbefore, List.take_append, List.take_of_length_le (Nat.le_succ _),
      Nat.add_sub_cancel_left, List.take_succ_cons, List.take_zero]

/-- The members of a binding envelope are well formed where those of the final one are. -/
theorem fieldsValid (h : BindingOf digest f b) (hf : f.fieldsValid = true)
    (hentries : ∀ entry ∈ f.sourceSequence, entry.fieldsValid = true) : b.fieldsValid = true := by
  have hlast : (b.sourceSequence.getLast?.map PiSourceEntry.entryId).all PyText.isPiEntryId = true ∧
      (b.sourceSequence.getLast?.map PiSourceEntry.order).all isPiOrder = true := by
    cases hmem : b.sourceSequence.getLast? with
    | none => exact ⟨rfl, rfl⟩
    | some last =>
      have hvalid := hentries last (h.entries.subset (List.mem_of_getLast? hmem))
      simp only [PiSourceEntry.fieldsValid, Bool.and_eq_true] at hvalid
      exact ⟨hvalid.1.1.2, hvalid.1.1.1⟩
  obtain ⟨hlastId, hlastOrder⟩ := hlast
  obtain ⟨-, hrevision, -⟩ := h.stage
  obtain ⟨hincarnation, hcapability, htenant, hprincipal, hconversation, hturn,
    hmessage, hobjective, hrun⟩ := h.dispatch
  obtain ⟨hsession, hprepare, huser, horder, hcontent, hbind, hbound⟩ := h.binding
  obtain ⟨hassistant, hassistantOrder, hfinalize, hfinalized, -, hvisible, hblocks, hcode⟩ :=
    h.unanswered
  obtain ⟨hstart, hstop, hcursor, hsha⟩ := h.source
  simp only [PiOwnershipEnvelope.fieldsValid, List.all_cons, List.all_nil, Bool.and_true,
    Bool.and_eq_true, decide_eq_true_eq] at hf ⊢
  rw [hrevision, hincarnation, hcapability, htenant, hprincipal, hconversation, hturn, hmessage,
    hobjective, hrun, hsession, hprepare, huser, horder, hcontent, hbind, hbound, hassistant,
    hassistantOrder, hfinalize, hfinalized, hvisible, hblocks, hcode, hstart, hstop, hcursor, hsha]
  obtain ⟨⟨⟨⟨⟨⟨⟨⟨⟨⟨⟨⟨⟨⟨⟨⟨⟨-, vincarnation⟩, vcapability⟩, vowners⟩, vconversation⟩,
    vturn⟩, vmessage⟩, vobjective⟩, vrun⟩, -⟩, vsession, vprepare, vuser, vbind, -⟩, vorder, -,
      vstart, -⟩, vcontent, -⟩,
    vbound, -⟩, vlength⟩, -⟩, -⟩, -⟩ := hf
  exact ⟨⟨⟨⟨⟨⟨⟨⟨⟨⟨⟨⟨⟨⟨⟨⟨⟨h.nonce, vincarnation⟩, vcapability⟩, vowners⟩, vconversation⟩, vturn⟩,
    vmessage⟩, vobjective⟩, vrun⟩, by decide⟩, vsession, vprepare, vuser, vbind, rfl, rfl, hlastId⟩,
    vorder, rfl, vstart, hlastOrder⟩, vcontent, digest.hexadecimal _, rfl⟩, vbound, rfl⟩,
    h.entries.length_le.trans vlength⟩, by decide⟩, rfl⟩, rfl⟩

/-- A final envelope names what a binding names. -/
theorem validateStage_eq (h : BindingOf digest f b) (hstage : f.eventType = .finalized)
    (hf : f.validateStage = .ok ()) (hnonempty : b.sourceSequence ≠ []) :
    b.validateStage = .ok () := by
  obtain ⟨hevent, hrevision, hfinality⟩ := h.stage
  obtain ⟨hsession, hprepare, huser, horder, hcontent, hbind, hbound⟩ := h.binding
  obtain ⟨hassistant, hassistantOrder, hfinalize, hfinalized, hreason, hvisible, hblocks, hcode⟩ :=
    h.unanswered
  obtain ⟨hstart, hstop, hcursor, hsha⟩ := h.source
  obtain ⟨last, hlast⟩ : ∃ last, b.sourceSequence.getLast? = some last :=
    ⟨_, List.getLast?_eq_some_getLast hnonempty⟩
  simp only [validateStage, hstage, hevent, raiseIf_eq_ok, bindingIdentity, finalIdentity,
    sourceIdentity, List.cons_append, List.nil_append, List.all_cons, List.all_nil, List.any_cons,
    List.any_nil, id_eq, Bool.and_true, Bool.or_false, Bool.and_eq_true, Bool.or_eq_true] at hf ⊢
  rw [hrevision, hfinality, hsession, hprepare, huser, horder, hcontent, hbind, hbound, hassistant,
    hassistantOrder, hfinalize, hfinalized, hreason, hvisible, hblocks, hcode,
    hstart, hstop, hcursor,
    hsha, hlast]
  simp only [not_or, not_not] at hf ⊢
  obtain ⟨-, -, -, ⟨vsession, vprepare, vuser, vorder, vcontent, vbind, vbound, -, -,
    -, -, vstart, -⟩, -⟩ := hf
  exact ⟨trivial, trivial, ⟨vsession, vprepare, vuser, vorder, vcontent, vbind, vbound, vstart, rfl,
    rfl, rfl⟩, by simp, trivial, trivial, hnonempty, trivial, trivial⟩

/-- A binding envelope is well formed where the final one is. -/
theorem validate_eq (h : BindingOf digest f b) (hstage : f.eventType = .finalized)
    (hf : f.validate = .ok ()) {computed : PyText}
    (hsequence : f.validateSequence digest true = .ok computed) : b.validate = .ok () := by
  obtain ⟨start, hchained⟩ : ∃ start, b.Chained start := by
    have hb := h.validateSequence_eq hsequence
    simp only [validateSequence, bind_eq_ok] at hb
    obtain ⟨_, horder, -⟩ := hb
    exact validateOrder_eq_ok.mp horder
  simp only [PiOwnershipEnvelope.validate, bind_eq_ok, raiseIf_eq_ok, not_not] at hf ⊢
  obtain ⟨_, hfields, _, hentries, hfinal⟩ := hf
  have hvalid := forM_eq_ok.mp hentries
  refine ⟨⟨⟩, h.fieldsValid hfields fun entry hmem => ?_, ⟨⟩, forM_eq_ok.mpr fun entry hmem =>
    hvalid entry (h.entries.subset hmem), h.validateStage_eq hstage hfinal hchained.nonempty⟩
  have hentry := hvalid entry hmem
  simp only [PiSourceEntry.validate, bind_eq_ok, raiseIf_eq_ok, not_not] at hentry
  obtain ⟨-, hentryFields, -⟩ := hentry
  exact hentryFields

end BindingOf

end PiOwnershipEnvelope

end Magistrate
