import Magistrate.Frontend.AppRoutes

/-!
# Notifications that are opened

The server writes the link of an item anew as a route of the app. A payload is refused
where it names another target than its route does, and no item of the server is of that
kind.
-/

namespace Magistrate.Frontend

section Decisions

/-- Only zero begins with a zero. -/
theorem head?_toDigits_ne {n : ℕ} (h : 0 < n) : (Nat.toDigits 10 n).head? ≠ some '0' := by
  induction n using Nat.strongRecOn with
  | ind n ih =>
    rcases Nat.lt_or_ge n 10 with hlt | hge
    · have hdigits : ∀ n < 10, 0 < n → n.digitChar ≠ '0' := by decide
      rw [Nat.toDigits_of_lt_base hlt]
      simpa using hdigits n hlt h
    · rw [Nat.toDigits_of_base_le (by decide) hge,
        List.head?_append_of_ne_nil _ Nat.toDigits_ne_nil]
      exact ih (n / 10) (by omega) (by omega)

/-- A positive number is written as a numeral. -/
theorem isNumeral_toString {more : ℕ} {n : ℤ} (hpos : 1 ≤ n) (hlt : n < 10 ^ (more + 1)) :
    isNumeral more (toString n).toList = true := by
  obtain ⟨m, rfl⟩ := Int.eq_ofNat_of_zero_le (by omega : 0 ≤ n)
  have htext : (toString (m : ℤ)).toList = Nat.toDigits 10 m := Nat.toList_repr
  have hm : 0 < m := by omega
  have hhead := head?_toDigits_ne hm
  have hlength := (Nat.length_toDigits_le_iff (b := 10) (by decide) (Nat.succ_pos more)).mpr
    (by exact_mod_cast hlt : m < 10 ^ (more + 1))
  have hdigits : ∀ c ∈ Nat.toDigits 10 m, c.isDigit = true := fun c hc =>
    Nat.isDigit_of_mem_toDigits (by decide) (by decide) hc
  rw [htext]
  cases hd : Nat.toDigits 10 m with
  | nil => exact absurd hd Nat.toDigits_ne_nil
  | cons first rest =>
    rw [hd] at hhead hlength hdigits
    have hfirst : first ≠ '0' := by simpa using hhead
    have hrest : rest.all Char.isDigit = true :=
      List.all_eq_true.mpr fun c hc => hdigits c (List.mem_cons_of_mem first hc)
    have hshort : rest.length ≤ more := Nat.le_of_succ_le_succ hlength
    simp [isNumeral, hdigits first List.mem_cons_self, hfirst, hrest, hshort]

/-- What the server checks of a decision notification. -/
structure ValidDecision (d : DecisionNotification) : Prop where
  names : ∀ name ∈ [d.decisionId, d.taskId, d.runId, d.requestId, d.scope],
    isTarget name.toList = true
  revision : 1 ≤ d.revision ∧ d.revision ≤ 2147483647
  expiresAt : 1 ≤ d.expiresAt ∧ d.expiresAt ≤ 9007199254740991

theorem isTarget_of_isDecisionId {value : Json} {text : String} (h : isDecisionId value = true)
    (htext : value.str? = some text) : isTarget text.toList = true := by
  simpa [isDecisionId, htext, isTarget, ← String.length_toList] using h

theorem valid_of_validate {value : Json} {d : DecisionNotification}
    (h : DecisionNotification.validate value = some d) : ValidDecision d := by
  obtain ⟨-, -, ⟨hids, htexts⟩, ⟨-, hrevision⟩, -, hexpires⟩ :=
    DecisionNotification.validate_eq_some h
  refine ⟨fun name hname => ?_, hrevision, hexpires⟩
  obtain ⟨key, hkey, htext⟩ := htexts name hname
  exact isTarget_of_isDecisionId (List.all_eq_true.mp hids key hkey) htext

/-- The app takes every decision that the server sends. -/
theorem isDecisionNotification_dump {d : DecisionNotification} (h : ValidDecision d) :
    isDecisionNotification d.dump = true := by
  obtain ⟨hnames, hrevision, hexpires⟩ := h
  simp only [List.forall_mem_cons, List.not_mem_nil, false_implies, implies_true,
    and_true] at hnames
  obtain ⟨hdecision, htask, hrun, hrequest, hscope⟩ := hnames
  have hpositive {n : ℤ} {bound : ℤ} (hbound : bound ≤ 9007199254740991) (hn : 1 ≤ n ∧ n ≤ bound) :
      isSafePositive (.int n) = true := by
    have hsafe : -9007199254740991 ≤ n ∧ n ≤ 9007199254740991 := by omega
    have hint : (Json.int n).int? = some n := rfl
    rw [isSafePositive, safeInteger?, hint, Option.filter_some, if_pos (decide_eq_true hsafe)]
    exact decide_eq_true (by omega)
  simp [isDecisionNotification, DecisionNotification.dump, Json.get, List.lookup_cons, Json.str?,
    Json.int?, opaqueId, hdecision, htask, hrun, hrequest, hscope, decisionNames,
    hpositive (by decide) hrevision, hpositive (Int.le_refl _) hexpires, hrevision.2]

end Decisions

section Routes

/-- A route of an item names the decision that its event has. -/
def AppRoute.Names (decision : Option DecisionNotification) : AppRoute → Prop
  | .item _ named =>
    named.map (fun (id, revision) => (String.ofList id.val, String.ofList revision.val)) =
      decision.map fun d => (d.decisionId, toString d.revision)
  | _ => True

theorem valid_of_decision {event : AttentionEvent} {d : DecisionNotification}
    (h : event.decision = some (some d)) : ValidDecision d := by
  unfold AttentionEvent.decision at h
  split at h
  · cases h
  · obtain ⟨d', hd', heq⟩ := Option.map_eq_some_iff.mp h
    obtain rfl := Option.some.inj heq
    exact valid_of_validate hd'

/-- The decision of an event is named by texts that a route may have. -/
theorem exists_named {event : AttentionEvent} {decision : Option DecisionNotification}
    (h : event.decision = some decision) : ∃ named : Option (TargetText × NumeralText 9),
      named.map (fun (id, revision) => (id.val, revision.val)) =
        decision.map fun d => (d.decisionId.toList, (toString d.revision).toList) := by
  cases decision with
  | none => exact ⟨none, rfl⟩
  | some d =>
    have hvalid := valid_of_decision h
    have hbound : d.revision < 10 ^ (9 + 1) := hvalid.revision.2.trans_lt (by decide)
    exact ⟨some (⟨_, hvalid.names d.decisionId List.mem_cons_self⟩,
      ⟨_, isNumeral_toString hvalid.revision.1 hbound⟩), rfl⟩

/-- The route of an item, as the server writes it. -/
theorem item_text (itemId : TargetText) (decision : Option DecisionNotification)
    (named : Option (TargetText × NumeralText 9))
    (h : named.map (fun (id, revision) => (id.val, revision.val)) =
      decision.map fun d => (d.decisionId.toList, (toString d.revision).toList)) :
    routeOf "/attention" (itemParams itemId.val decision) = (AppRoute.item itemId named).text := by
  cases decision with
  | none =>
    obtain rfl := Option.map_eq_none_iff.mp h
    rfl
  | some d =>
    obtain ⟨⟨id, revision⟩, rfl, hpair⟩ := Option.map_eq_some_iff.mp h
    obtain ⟨hid, hrevision⟩ := Prod.mk.inj hpair
    rw [AppRoute.text, AppRoute.params, hid, hrevision, AppRoute.path, itemParams]

theorem exists_targetText {text : List Char} (h : isTarget text = true) :
    ∃ value : TargetText, value.val = text := ⟨⟨text, h⟩, rfl⟩

theorem exists_numeralText {more : ℕ} {text : List Char} (h : isNumeral more text = true) :
    ∃ value : NumeralText more, value.val = text := ⟨⟨text, h⟩, rfl⟩

theorem agent_text (agentId : TargetText) :
    routeOf "/chat" [("agentId".toList, agentId.val)] = (AppRoute.agent agentId).text := rfl

theorem pull_text (number : NumeralText 8) :
    routeOf "/pr-detail" [("number".toList, number.val)] = (AppRoute.pull number).text := rfl

theorem names_of_named {decision : Option DecisionNotification} (itemId : TargetText)
    {named : Option (TargetText × NumeralText 9)}
    (h : named.map (fun (id, revision) => (id.val, revision.val)) =
      decision.map fun d => (d.decisionId.toList, (toString d.revision).toList)) :
    (AppRoute.item itemId named).Names decision := by
  have hpairs := congrArg (Option.map (Prod.map String.ofList String.ofList)) h
  simpa only [AppRoute.Names, Option.map_map, Function.comp_def, Prod.map_apply,
    String.ofList_toList] using hpairs

/-- What the server writes of a link is a route of the app. -/
theorem exists_appRoute {event : AttentionEvent} {decision : Option DecisionNotification}
    {route : String} (hdecision : event.decision = some decision)
    (h : event.safeDeepLink = some route) : ∃ r : AppRoute, route = r.text ∧ r.Names decision ∧
      (r = .overview ∨ (urlparse event.link.toList).path = r.path.toList) := by
  have hoverview : overviewRoute = AppRoute.overview.text := by decide
  have hrunning : "/chat?shortcut=running" = AppRoute.running.text := by decide
  simp only [AttentionEvent.safeDeepLink, hdecision, Option.bind_eq_bind, Option.bind_some,
    Option.pure_def] at h
  split_ifs at h with hforeign hitem hlink hagent hshortcut hnumber <;>
    obtain rfl := Option.some.inj h
  · exact ⟨.overview, hoverview, trivial, .inl rfl⟩
  · obtain ⟨named, hnamed⟩ := exists_named hdecision
    obtain ⟨itemId, hitemId⟩ := exists_targetText hitem.2
    rw [← hitemId]
    exact ⟨.item itemId named, item_text itemId decision named hnamed,
      names_of_named itemId hnamed, .inr hitem.1⟩
  · exact ⟨.overview, hoverview, trivial, .inl rfl⟩
  · obtain ⟨agentId, hagentId⟩ := exists_targetText hagent.2
    rw [← hagentId]
    exact ⟨.agent agentId, agent_text agentId, trivial, .inr hagent.1⟩
  · exact ⟨.running, hrunning, trivial, .inr hshortcut.1⟩
  · obtain ⟨number, hnumeral⟩ := exists_numeralText hnumber.2
    rw [← hnumeral]
    exact ⟨.pull number, pull_text number, trivial, .inr hnumber.1⟩
  · exact ⟨.overview, hoverview, trivial, .inl rfl⟩

end Routes

section Payloads

open PendingIntentRouter

variable {rules : NavigationRules}

/-- The identity of a delivery is an identifier. -/
theorem safeParameter_sha256 (rules : NavigationRules) (text : String) :
    safeParameter (some (rules.sha256 text)) opaqueId = some (rules.sha256 text) := by
  obtain ⟨hlength, hall⟩ := rules.digits text
  have hplain : ∀ c ∈ (rules.sha256 text).toList, isDecisionIdChar c = true := by
    intro c hc
    rw [isDecisionIdChar, List.all_eq_true.mp hall c hc]
    rfl
  have htarget : isTarget (rules.sha256 text).toList = true := by
    rw [isTarget, List.all_eq_true.mpr hplain, String.length_toList, hlength]
    decide
  have h := TargetText.safeParameter ⟨_, htarget⟩ (TargetText.opaqueId ⟨_, htarget⟩)
  rwa [String.ofList_toList] at h

/-- What an event is for its route: an item is the one of the route, a decision is one of an item,
and running work is no target that the server names. -/
def AppRoute.Agrees (id : String) (decision : Option DecisionNotification) : AppRoute → Prop
  | .item itemId _ => id = "" ∨ id = String.ofList itemId.val
  | .running => False
  | .overview | .agent _ | .pull _ => decision = none

/-- The decision of an item is the one that its route names. -/
theorem decision_agrees {decision : Option DecisionNotification} {named : Option (String × String)}
    (hvalid : ∀ d ∈ decision, ValidDecision d)
    (hnames : named = decision.map fun d => (d.decisionId, toString d.revision)) :
    ((decision.map DecisionNotification.dump).all fun value => isDecisionNotification value &&
      (named.map Prod.fst == (value.get "decision_id").str?) &&
      (named.map Prod.snd == (value.get "revision").int?.map toString)) = true := by
  subst hnames
  cases decision with
  | none => rfl
  | some d =>
    have hid : (d.dump.get "decision_id").str? = some d.decisionId := by
      simp [DecisionNotification.dump, Json.get, List.lookup_cons, Json.str?]
    have hrevision : (d.dump.get "revision").int? = some d.revision := by
      simp [DecisionNotification.dump, Json.get, List.lookup_cons, Json.int?]
    simp [isDecisionNotification_dump (hvalid d rfl), hid, hrevision]

theorem disagree_self (given : String) : disagree (some given) (some given) = false := by
  simp [disagree]

/-- A payload is taken for its route exactly where it agrees with it. -/
theorem agreedIntent_eq {p : PendingIntentPayload} {r : AppRoute} {id deliveryId : String}
    {decision : Option DecisionNotification}
    (htarget : (p.targetType, p.targetId) = (some (r.named id).1, some (r.named id).2))
    (hitem : p.itemId = some id) (hdecision : p.decision = decision.map DecisionNotification.dump)
    (hvalid : ∀ d ∈ decision, ValidDecision d) (hnames : r.Names decision)
    (hdelivery : p.deliveryId = some deliveryId)
    (hsafe : safeParameter (some deliveryId) opaqueId = some deliveryId) :
    (r.Agrees id decision →
      agreedIntent p ⟨r.target, none⟩ = some ⟨r.target, some deliveryId⟩) ∧
    (¬r.Agrees id decision → agreedIntent p ⟨r.target, none⟩ = none) := by
  obtain ⟨htype, hid⟩ := Prod.mk.inj htarget
  cases r with
  | overview =>
    cases decision <;>
      simp [agreedIntent, AppRoute.Agrees, htype, hid, hdecision, hdelivery, hsafe, AppRoute.named,
        AppRoute.target, IntentTarget.targetType, targetId, disagree, guard]
  | item itemId named =>
    have hagrees := decision_agrees hvalid hnames
    have hdisagree : disagree (some id) (some (String.ofList itemId.val)) = false ↔
        id = "" ∨ id = String.ofList itemId.val := by
      simp only [disagree, Option.any_some, Bool.and_eq_false_iff, decide_eq_false_iff_not, not_not]
      exact or_congr Iff.rfl eq_comm
    simp only [agreedIntent, AppRoute.Agrees, htype, hid, hitem, hdecision, hdelivery, hsafe,
      AppRoute.named, AppRoute.target, IntentTarget.targetType, targetId, hagrees, guard,
      disagree_self, hdisagree]
    refine ⟨fun h => ?_, fun h => ?_⟩
    · simp [h]
    · simp [h]
  | agent agentId =>
    cases decision <;>
      simp [agreedIntent, AppRoute.Agrees, htype, hid, hdecision, hdelivery, hsafe, AppRoute.named,
        AppRoute.target, IntentTarget.targetType, targetId, disagree, guard]
  | running =>
    simp [agreedIntent, AppRoute.Agrees, htype, AppRoute.named,
        AppRoute.target, IntentTarget.targetType, disagree, guard]
  | pull number =>
    cases decision <;>
      simp [agreedIntent, AppRoute.Agrees, htype, hid, hdecision, hdelivery, hsafe, AppRoute.named,
        AppRoute.target, IntentTarget.targetType, targetId, disagree, guard]

section Events

variable {user fingerprint tokenSha256 : String} {event : AttentionEvent} {data : PushData}
  {decision : Option DecisionNotification} {r : AppRoute}

/-- What is pushed of an event names the target of the route that is written of its link. -/
theorem pushData_eq (hdecision : event.decision = some decision)
    (hroute : event.safeDeepLink = some r.text)
    (h : event.pushData rules user fingerprint tokenSha256 = some data) :
    data =
      { targetType := (r.named event.id).1
        targetId := some (r.named event.id).2
        route := r.text
        decision := decision.map DecisionNotification.dump
        actionKey := (event.action.get "action_key").str?
        url := some r.text
        itemId := some event.id
        notificationKind := event.notificationKind
        deliveryId := rules.deliveryId user event.id fingerprint tokenSha256 } := by
  simp only [AttentionEvent.pushData, hdecision, hroute, Option.bind_eq_bind, Option.bind_some,
    r.intentTarget_text] at h
  exact (Option.some.inj h).symm

/-- The intent of what is pushed of an event is that of its route, where they agree. -/
theorem intentOf_pushData (urls : UrlRules) (hdecision : event.decision = some decision)
    (hroute : event.safeDeepLink = some r.text) (hnames : r.Names decision)
    (h : event.pushData rules user fingerprint tokenSha256 = some data) :
    (r.Agrees event.id decision → intentOf urls (.payload (payloadOf data)) =
      some ⟨r.target, some data.deliveryId⟩) ∧
    (¬r.Agrees event.id decision → intentOf urls (.payload (payloadOf data)) = none) := by
  have hvalid : ∀ d ∈ decision, ValidDecision d := by
    rintro d rfl
    exact valid_of_decision hdecision
  have hdata := pushData_eq hdecision hroute h
  have htarget : ((payloadOf data).targetType, (payloadOf data).targetId) =
      (some (r.named event.id).1, some (r.named event.id).2) := by
    rw [hdata]
    rfl
  have hitem : (payloadOf data).itemId = some event.id := by
    rw [hdata]
    rfl
  have hdump : (payloadOf data).decision = decision.map DecisionNotification.dump := by
    rw [hdata]
    rfl
  have hpayloadRoute : (payloadOf data).route = r.text := by
    rw [hdata]
    rfl
  have hsafe : safeParameter (some data.deliveryId) opaqueId = some data.deliveryId := by
    rw [hdata]
    exact safeParameter_sha256 rules _
  have hintent : intentOf urls (.payload (payloadOf data)) =
      agreedIntent (payloadOf data) ⟨r.target, none⟩ := by
    rw [intentOf, hpayloadRoute, r.parsePendingIntent_text]
    rfl
  rw [hintent]
  exact agreedIntent_eq htarget hitem hdump hvalid hnames rfl hsafe

end Events

end Payloads

section Opening

open PendingIntentRouter

variable {rules : NavigationRules} {urls : UrlRules} {now later : ℕ}

/-- A router that was given nothing takes what is pushed, and what is taken of it leads to a
route. -/
def Opens (urls : UrlRules) (now later : ℕ) (data : PushData) (route : String) : Prop :=
  (enqueuePendingIntent urls now (.payload (payloadOf data)) .fresh).1 = true ∧
    (consumePendingIntent later
      (enqueuePendingIntent urls now (.payload (payloadOf data)) .fresh).2).1.map
      pendingIntentPath =
        some route

/-- A router that was given nothing takes every intent. -/
theorem enqueue_fresh {input : IntentInput} {intent : PendingIntent}
    (h : intentOf urls input = some intent) :
    enqueuePendingIntent urls now input .fresh =
      (true, { PendingIntentRouter.fresh with pendingIntent := some intent }) := by
  have hfree : ¬PendingIntentRouter.fresh.Handled now (pendingIntentKey intent) := by
    rintro ⟨row, hrow, -⟩
    cases hrow
  have hpending : PendingIntentRouter.fresh.pendingIntent.map pendingIntentKey ≠
      some (pendingIntentKey intent) := Option.some_ne_none _ |>.symm
  simp only [enqueuePendingIntent, h]
  exact if_neg (not_or.mpr ⟨hpending, hfree⟩)

theorem opens_of_intentOf {data : PushData} {r : AppRoute} {deliveryId : Option String}
    (h : intentOf urls (.payload (payloadOf data)) = some ⟨r.target, deliveryId⟩) :
    Opens urls now later data r.text := by
  rw [Opens, enqueue_fresh h]
  exact ⟨rfl, congrArg some (r.pendingIntentPath_target deliveryId)⟩

/-- What is pushed of an event is taken exactly where the event agrees with its route. -/
theorem opens_pushData_iff {user fingerprint tokenSha256 : String} {event : AttentionEvent}
    {data : PushData} {decision : Option DecisionNotification} {r : AppRoute}
    (hdecision : event.decision = some decision) (hroute : event.safeDeepLink = some r.text)
    (hnames : r.Names decision)
    (h : event.pushData rules user fingerprint tokenSha256 = some data) :
    Opens urls now later data r.text ↔ r.Agrees event.id decision := by
  obtain ⟨htaken, hrefused⟩ := intentOf_pushData urls hdecision hroute hnames h
  constructor
  · intro hopens
    by_contra hagrees
    have henqueue := hopens.1
    simp only [enqueuePendingIntent, hrefused hagrees] at henqueue
    exact Bool.false_ne_true henqueue
  · intro hagrees
    exact opens_of_intentOf (htaken hagrees)

end Opening

section Items

variable {rules : NavigationRules} {event : AttentionEvent} {decision : Option DecisionNotification}

/-- A link that names an item is written anew with its decision. -/
theorem safeDeepLink_item {itemId : TargetText} (hdecision : event.decision = some decision)
    (hlink : event.link = (AppRoute.item itemId none).text) :
    event.safeDeepLink = some (routeOf "/attention" (itemParams itemId.val decision)) := by
  have hvalue : queryValue (AppRoute.item itemId none).params "item" = itemId.val := by
    simp [queryValue, AppRoute.params, FormPair.valuesOf]
  have hpath : (AppRoute.item itemId none).path.toList = "/attention".toList := rfl
  simp only [AttentionEvent.safeDeepLink, hlink, AppRoute.urlparse_text, AppRoute.parseQsl_params,
    hvalue, hpath, itemId.property, hdecision, Bool.false_eq_true, if_false, and_self, if_true,
    Option.bind_eq_bind, Option.bind_some, Option.pure_def]

/-- The identifier of a decision's item. -/
theorem isTarget_item (rules : NavigationRules) (d : CaptainDecision) :
    isTarget (d.item rules).id.toList = true ∧ ∀ c ∈ (d.item rules).id.toList,
      quoteKept c = true := by
  obtain ⟨digest, hdigest⟩ : ∃ digest, rules.sha256 (String.intercalate "\x00"
      [d.ownerUserId, d.sourceInstanceId, d.taskId, d.lifecycleIdentity]) = digest := ⟨_, rfl⟩
  have hid : (d.item rules).id.toList =
      "captain-question-fmd_".toList ++ digest.toList.take 32 := by
    have hword : "captain-question-fmd_".toList = "captain-question-".toList ++
      "fmd_".toList := by decide
    have hitem : (d.item rules).id = "captain-question-" ++ rules.decisionId d := rfl
    rw [hitem, NavigationRules.decisionId, hdigest, hword]
    simp only [String.toList_append, String.toList_ofList, List.append_assoc]
  obtain ⟨hlength, hall⟩ := hdigest ▸ rules.digits _
  have hprefix : "captain-question-fmd_".toList.all (fun c => isDecisionIdChar c && quoteKept c) =
      true := by decide
  have hchars : ∀ c ∈ (d.item rules).id.toList, isDecisionIdChar c = true ∧ quoteKept c = true := by
    intro c hc
    rw [hid] at hc
    rcases List.mem_append.mp hc with hc | hc
    · exact Bool.and_eq_true_iff.mp (List.all_eq_true.mp hprefix c hc)
    · have halnum := List.all_eq_true.mp hall c (List.mem_of_mem_take hc)
      simp [isDecisionIdChar, quoteKept, halnum]
  have hcount : (d.item rules).id.toList.length = 53 := by
    rw [hid, List.length_append, List.length_take, String.length_toList,
      String.length_toList, hlength]
    rfl
  refine ⟨?_, fun c hc => (hchars c hc).2⟩
  rw [isTarget, hcount, List.all_eq_true.mpr fun c hc => (hchars c hc).1]
  decide

/-- The link of an event is its deep link, where it has one. -/
theorem link_of_deepLink {text : String} (hdeep : event.deepLink = some text) (hne : text ≠ "") :
    event.link = text := by
  rw [AttentionEvent.link, hdeep, Option.filter_some, if_pos (decide_eq_true hne)]
  rfl

theorem link_of_url {text : String} (hdeep : event.deepLink = none) (hurl : event.url = some text) :
    event.link = text := by
  rw [AttentionEvent.link, hdeep, hurl]
  rfl

theorem append_ne_empty {first : String} (h : first ≠ "") (second : String) :
    first ++ second ≠ "" := by
  intro hempty
  exact h (String.append_eq_empty_iff.mp hempty).1

/-- The item of a decision is linked to by its identifier. -/
theorem exists_link_item (rules : NavigationRules) (d : CaptainDecision) :
    ∃ itemId : TargetText, String.ofList itemId.val = (d.item rules).id ∧
      (d.item rules).link = (AppRoute.item itemId none).text := by
  obtain ⟨htarget, hkept⟩ := isTarget_item rules d
  obtain ⟨itemId, hitemId⟩ := exists_targetText htarget
  have hitem : formEncode quoteKept (d.item rules).id.toList = (d.item rules).id.toList :=
    formEncode_of_kept fun c hc =>
      ⟨fun hblank => absurd (hblank ▸ hkept c hc) (by decide), hkept c hc⟩
  have hname : formEncode quoteKept "item".toList = "item".toList := by decide
  have hlink : (d.item rules).link = "/attention?item=" ++ (d.item rules).id :=
    link_of_deepLink rfl (append_ne_empty (by decide) _)
  refine ⟨itemId, by rw [hitemId, String.ofList_toList], ?_⟩
  have hword : "/attention?item=".toList = "/attention".toList ++
    '?' :: ("item".toList ++ ['=']) := by
    decide
  have htext : formText quoteKept (AppRoute.item itemId none).params =
      "item".toList ++ '=' :: (d.item rules).id.toList := by
    rw [AppRoute.params, hitemId, formText, List.map_singleton, List.intercalate_singleton,
      FormPair.write, hitem, hname]
  refine String.toList_inj.mp ?_
  rw [hlink, AppRoute.text_toList, htext, String.toList_append, hword, AppRoute.path]
  simp only [List.append_assoc, List.cons_append, List.nil_append]

theorem decision_eq_none {event : AttentionEvent} (hnone : event.decisionNotification = .null) :
    event.decision = some none := by
  rw [AttentionEvent.decision, hnone]

/-- A pull request is linked to by the path of its details. -/
theorem urlparse_pull (pull : AttentionPull) :
    (urlparse pull.item.link.toList).path = "/pr-detail".toList := by
  obtain ⟨suffix, hlink⟩ : ∃ suffix : String, pull.item.link = "/pr-detail?number=" ++ suffix := by
    obtain ⟨number, repositoryId, flagged⟩ := pull
    refine ⟨number.getD "None" ++
      (repositoryId.elim "" fun repository => "&repositoryId=" ++ repository), ?_⟩
    rw [← String.append_assoc]
    cases number with
    | none => exact link_of_url rfl rfl
    | some number => exact link_of_deepLink rfl (append_ne_empty (append_ne_empty (by decide) _) _)
  have hword : "/pr-detail?number=".toList = '/' :: "pr-detail".toList ++
    '?' :: "number=".toList := by
    decide
  have hlist : pull.item.link.toList =
      '/' :: "pr-detail".toList ++ '?' :: ("number=".toList ++ suffix.toList) := by
    rw [hlink, String.toList_append, hword]
    simp only [List.append_assoc, List.cons_append]
  rw [hlist, urlparse_segment (by decide)]
  rfl

/-- The item of a decision agrees with the route of its link. -/
theorem exists_route_item {d : CaptainDecision}
    (hdecision : (d.item rules).decision = some decision) :
    ∃ r : AppRoute, (d.item rules).safeDeepLink = some r.text ∧ r.Names decision ∧
      r.Agrees (d.item rules).id decision := by
  obtain ⟨itemId, hid, hlink⟩ := exists_link_item rules d
  obtain ⟨named, hnamed⟩ := exists_named hdecision
  refine ⟨.item itemId named, ?_, names_of_named itemId hnamed, .inr hid.symm⟩
  rw [safeDeepLink_item hdecision hlink, item_text itemId decision named hnamed]

/-- The item of a pull request agrees with the route of its link. -/
theorem exists_route_pull {pull : AttentionPull} {route : String}
    (hroute : pull.item.safeDeepLink = some route) :
    ∃ r : AppRoute, route = r.text ∧ r.Names none ∧ r.Agrees pull.item.id none := by
  obtain ⟨r, hr, hnames, hpath⟩ := exists_appRoute (decision_eq_none rfl) hroute
  refine ⟨r, hr, hnames, ?_⟩
  rw [urlparse_pull] at hpath
  have hattention : "/pr-detail".toList ≠ "/attention".toList := by decide
  have hchat : "/pr-detail".toList ≠ "/chat".toList := by decide
  cases r with
  | overview | agent _ | pull _ => exact rfl
  | item _ _ => exact absurd (hpath.resolve_left (by simp)) hattention
  | running => exact absurd (hpath.resolve_left (by simp)) hchat

/-- What is pushed of an event that agrees with its route leads there. -/
theorem opens_of_agrees {urls : UrlRules} {now later : ℕ} {user fingerprint tokenSha256 : String}
    {data : PushData} {r : AppRoute} (hdecision : event.decision = some decision)
    (hroute : event.safeDeepLink = some r.text) (hnames : r.Names decision)
    (hagrees : r.Agrees event.id decision)
    (h : event.pushData rules user fingerprint tokenSha256 = some data) :
    ∃ route, data.url = some route ∧ Opens urls now later data route := by
  refine ⟨r.text, ?_, (opens_pushData_iff hdecision hroute hnames h).mpr hagrees⟩
  rw [pushData_eq hdecision hroute h]

/-- An event that is pushed has no invalid decision. -/
theorem exists_of_pushData {user fingerprint tokenSha256 : String} {data : PushData}
    (h : event.pushData rules user fingerprint tokenSha256 = some data) :
    ∃ decision route, event.decision = some decision ∧ event.safeDeepLink = some route := by
  simp only [AttentionEvent.pushData, Option.bind_eq_bind, Option.bind_eq_some_iff] at h
  obtain ⟨decision, hdecision, route, hroute, -⟩ := h
  exact ⟨decision, route, hdecision, hroute⟩

/-- The items of the server are those of decisions and of pull requests. -/
theorem mem_unifiedAttentionItems {decisions : List CaptainDecision} {pulls : List AttentionPull}
    {deferred : Bool} (h : event ∈ unifiedAttentionItems rules decisions pulls deferred) :
    (∃ d : CaptainDecision, event = d.item rules) ∨ ∃ pull : AttentionPull, event = pull.item := by
  rcases List.mem_append.mp h with h | h
  · rcases List.mem_append.mp h with h | h
    · obtain ⟨d, -, rfl⟩ := List.mem_map.mp h
      exact .inl ⟨d, rfl⟩
    · obtain ⟨pull, -, rfl⟩ := List.mem_map.mp h
      exact .inr ⟨pull, rfl⟩
  · cases deferred <;> cases h

/-- What is pushed for a test leads to its route. -/
theorem opens_ownerTest {urls : UrlRules} {now later : ℕ} (user requestId tokenSha256 : String) :
    Opens urls now later (ownerTestData rules user requestId tokenSha256)
      (ownerTestData rules user requestId tokenSha256).route := by
  have hroute : (ownerTestData rules user requestId tokenSha256).route =
      AppRoute.overview.text := (by decide : overviewRoute = AppRoute.overview.text)
  have hsafe : safeParameter (some (ownerTestData rules user requestId tokenSha256).deliveryId)
      opaqueId = some (ownerTestData rules user requestId tokenSha256).deliveryId :=
    safeParameter_sha256 rules _
  have hintent : PendingIntentRouter.intentOf urls
      (.payload (payloadOf (ownerTestData rules user requestId tokenSha256))) =
        some ⟨AppRoute.overview.target,
          some (ownerTestData rules user requestId tokenSha256).deliveryId⟩ := by
    have hparse : parsePendingIntent urls
        (payloadOf (ownerTestData rules user requestId tokenSha256)).route =
          some ⟨AppRoute.overview.target, none⟩ := by
      rw [payloadOf, hroute, AppRoute.parsePendingIntent_text]
    have htype : (ownerTestData rules user requestId tokenSha256).targetType =
      "attention-overview" :=
      rfl
    have hdecision : (ownerTestData rules user requestId tokenSha256).decision = none := rfl
    rw [PendingIntentRouter.intentOf, hparse]
    simp [PendingIntentRouter.agreedIntent, payloadOf, pendingIntentVersion, hsafe,
      htype, hdecision, AppRoute.target, IntentTarget.targetType, PendingIntentRouter.targetId,
      PendingIntentRouter.disagree, guard]
  rw [hroute]
  exact opens_of_intentOf hintent

end Items

/-- What is pushed of an item of the server is taken by a router that was given nothing, and leads
to the address that is pushed with it; what is pushed for a test leads to its route. -/
theorem push_navigates (rules : NavigationRules) (urls : UrlRules) (now later : ℕ)
    (user tokenSha256 : String) :
    (∀ (decisions : List CaptainDecision) (pulls : List AttentionPull) (deferred : Bool)
      (fingerprint : String), ∀ event ∈ unifiedAttentionItems rules decisions pulls deferred,
      ∀ data ∈ event.pushData rules user fingerprint tokenSha256,
        ∃ route, data.url = some route ∧ Opens urls now later data route) ∧
    ∀ requestId, Opens urls now later (ownerTestData rules user requestId tokenSha256)
      (ownerTestData rules user requestId tokenSha256).route := by
  constructor
  · intro decisions pulls deferred fingerprint event hevent data hdata
    obtain ⟨decision, route, hdecision, hroute⟩ := exists_of_pushData hdata
    rcases mem_unifiedAttentionItems hevent with ⟨d, rfl⟩ | ⟨pull, rfl⟩
    · obtain ⟨r, hr, hnames, hagrees⟩ := exists_route_item hdecision
      exact opens_of_agrees hdecision hr hnames hagrees hdata
    · have hnone : pull.item.decision = some none := decision_eq_none rfl
      obtain ⟨r, rfl, hnames, hagrees⟩ := exists_route_pull hroute
      exact opens_of_agrees hnone hroute hnames hagrees hdata
  · intro requestId
    exact opens_ownerTest user requestId tokenSha256

/-- A decision that waits for the captain. -/
def sampleDecision : CaptainDecision where
  ownerUserId := "captain"
  sourceInstanceId := "production"
  taskId := "task-1"
  lifecycleIdentity := "lifecycle-1"
  envelope := .obj [("schema_version", .str "magistrate.decision-notification.v1"),
    ("decision_id", .str "decision-1"), ("task_id", .str "task-1"), ("run_id", .str "run-1"),
    ("request_id", .str "request-1"), ("scope", .str "task"), ("revision", .int 3),
    ("expires_at", .int 1800000000000)]
  actionable := true

/-- The digest of the token of the captain's device. -/
def sampleToken : String := "cd3d1dd8e1e94de144abfcd2c22ec1c321ca547b2f71e6337d61be9df0aa0cd4"

/-- The digests of the decision and of its delivery. -/
def sampleNavigation : NavigationRules where
  sha256 text :=
    if text = "captain\x00production\x00task-1\x00lifecycle-1" then
      "7fe7b77da5ed01c775138ea0eeef62d0085b6b5e305c7ed18cbd99a774e51043"
    else "9861def52fd99ba849b71286beebc1d69edf7cd04be3cdcc09fdb9f96f42b002"
  digits text := by
    split_ifs
    · decide +kernel
    · decide +kernel

/-- The captain opens the decision that was pushed. -/
theorem decision_pushed_opens :
    ∃ data ∈ (sampleDecision.item
      sampleNavigation).pushData sampleNavigation "captain" "fingerprint"
      sampleToken, ∃ route, data.url = some route ∧
        Opens ⟨fun _ => none, none⟩ 0 1000 data route := by
  obtain ⟨data, hdata⟩ := Option.isSome_iff_exists.mp (by decide +kernel :
    ((sampleDecision.item sampleNavigation).pushData sampleNavigation "captain" "fingerprint"
      sampleToken).isSome = true)
  exact ⟨data, hdata, (push_navigates sampleNavigation ⟨fun _ => none, none⟩ 0 1000 "captain"
    sampleToken).1 [sampleDecision] [] true "fingerprint" _ List.mem_cons_self data hdata⟩

end Magistrate.Frontend
