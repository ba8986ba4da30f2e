import Magistrate.Core.FormQuery
import Magistrate.Gateway.Notifications.Push

/-!
# Navigation of notifications

An attention item links to a route of the app. What is pushed of it names its target
beside a route that is written anew from the link, and falls back to the overview
where the link is none of the app's own.
-/

namespace Magistrate

/-- What is not modelled of navigation: the digest of a text in hexadecimal digits. -/
structure NavigationRules where
  sha256 : String → String
  digits : ∀ text, (sha256 text).length = 64 ∧ (sha256 text).toList.all Char.isAlphanum = true

/-- `DecisionNotification` -/
structure DecisionNotification where
  decisionId : String
  taskId : String
  runId : String
  requestId : String
  scope : String
  revision : ℤ
  expiresAt : ℤ
  deriving DecidableEq, Repr

/-- `DecisionNotification.model_validate` -/
def DecisionNotification.validate (value : Json) : Option DecisionNotification := do
  guard (value.namesAre ["schema_version", "decision_id", "task_id", "run_id", "request_id",
    "scope", "revision", "expires_at"] = true)
  guard ((value.get "schema_version").str? = some "magistrate.decision-notification.v1")
  guard ((["decision_id", "task_id", "run_id", "request_id", "scope"].all fun name =>
    isDecisionId (value.get name)) = true)
  let revision ← (value.get "revision").int?.filter fun n => 1 ≤ n ∧ n ≤ 2147483647
  let expiresAt ← (value.get "expires_at").int?.filter fun n => 1 ≤ n ∧ n ≤ 9007199254740991
  return {
    decisionId := ← (value.get "decision_id").str?
    taskId := ← (value.get "task_id").str?
    runId := ← (value.get "run_id").str?
    requestId := ← (value.get "request_id").str?
    scope := ← (value.get "scope").str?
    revision, expiresAt }

/-- `model_dump` -/
def DecisionNotification.dump (d : DecisionNotification) : Json :=
  .obj [("schema_version", .str "magistrate.decision-notification.v1"),
    ("decision_id", .str d.decisionId), ("task_id", .str d.taskId), ("run_id", .str d.runId),
    ("request_id", .str d.requestId), ("scope", .str d.scope), ("revision", .int d.revision),
    ("expires_at", .int d.expiresAt)]

/-- What navigation reads of an attention item. -/
structure AttentionEvent where
  id : String
  url : Option String
  deepLink : Option String
  notificationKind : Option String
  decisionNotification : Json
  action : Json

/-- `_decision_notification`, which raises where there is an envelope that is not valid. -/
def AttentionEvent.decision (event : AttentionEvent) : Option (Option DecisionNotification) :=
  match event.decisionNotification with
  | .null => some none
  | value => (DecisionNotification.validate value).map some

/-- What a valid decision notification is. -/
theorem DecisionNotification.validate_eq_some {value : Json} {d : DecisionNotification}
    (h : DecisionNotification.validate value = some d) :
    value.namesAre ["schema_version", "decision_id", "task_id", "run_id", "request_id", "scope",
      "revision", "expires_at"] = true ∧
    (value.get "schema_version").str? = some "magistrate.decision-notification.v1" ∧
    ((["decision_id", "task_id", "run_id", "request_id", "scope"].all fun name =>
      isDecisionId (value.get name)) = true ∧
      ∀ name ∈ [d.decisionId, d.taskId, d.runId, d.requestId, d.scope],
        ∃ key ∈ ["decision_id", "task_id", "run_id", "request_id", "scope"],
          (value.get key).str? = some name) ∧
    ((value.get "revision").int? = some d.revision ∧ 1 ≤ d.revision ∧ d.revision ≤ 2147483647) ∧
    (value.get "expires_at").int? = some d.expiresAt ∧ 1 ≤ d.expiresAt ∧
      d.expiresAt ≤ 9007199254740991 := by
  simp only [DecisionNotification.validate, Option.bind_eq_bind, Option.bind_eq_some_iff,
    Option.pure_def, Option.some.injEq, Option.filter_eq_some_iff, decide_eq_true_eq,
    Option.guard_eq_some'] at h
  obtain ⟨-, hnames, -, hschema, -, hids, revision, hrevision, expiresAt, hexpires,
    _, hdecisionId, _, htask, _, hrun, _, hrequest, _, hscope, rfl⟩ := h
  refine ⟨hnames, hschema, ⟨hids, ?_⟩, hrevision, hexpires⟩
  simp [hdecisionId, htask, hrun, hrequest, hscope]

/-- What `urlparse` finds in a link: whether it has a scheme or a host, its path and its query. -/
structure ParsedLink where
  foreign : Bool
  path : List Char
  query : List Char
  deriving DecidableEq, Repr

/-- A scheme stands before the first colon. -/
def hasScheme (text : List Char) : Bool :=
  let (before, rest) := cutAt ':' text
  rest.isSome && before.head?.any Char.isAlpha &&
    before.all fun c => c.isAlphanum || ['+', '-', '.'].contains c

/-- `_splitparams`: what follows a semicolon in the last segment is no part of the path. -/
def dropParams (path : List Char) : List Char :=
  let segment := (path.reverse.takeWhile (· ≠ '/')).reverse
  path.take (path.length - segment.length) ++ segment.takeWhile (· ≠ ';')

/-- A character that a link loses wherever it stands. -/
def isIgnored (c : Char) : Bool := ['\t', '\r', '\n'].contains c

/-- `urlparse`. A host in brackets, at some of which it raises, is a host here. -/
def urlparse (link : List Char) : ParsedLink :=
  let text := (link.dropWhile fun c => decide (c.toNat ≤ 32)).filter (isIgnored · = false)
  let (host, rest) : List Char × List Char :=
    if text.take 2 = ['/', '/'] then
      (text.drop 2).span fun c => c != '/' && c != '?' && c != '#'
    else ([], text)
  let (path, query) := cutAt '?' (cutAt '#' rest).1
  { foreign := hasScheme text || !host.isEmpty
    path := dropParams path
    query := query.getD [] }

/-- `parse_qs(...).get(name, [""])[0]` -/
def queryValue (pairs : List FormPair) (name : String) : List Char :=
  (FormPair.valuesOf name.toList pairs).headD []

/-- `[A-Za-z0-9._:-]{1,128}` -/
def isTarget (value : List Char) : Bool :=
  decide (1 ≤ value.length ∧ value.length ≤ 128) && value.all isDecisionIdChar

/-- `[1-9][0-9]{0,more}` -/
def isNumeral (more : ℕ) : List Char → Bool
  | [] => false
  | first :: rest =>
    first.isDigit && first != '0' && rest.all Char.isDigit && decide (rest.length ≤ more)

/-- A route with the parameters that `urlencode` writes. -/
def routeOf (path : String) (params : List FormPair) : String :=
  path ++ "?" ++ String.ofList (formText quoteKept params)

/-- The route that a link falls back to. -/
def overviewRoute : String := "/attention?overview=true"

/-- The parameters that name an item and the request of its decision. -/
def itemParams (item : List Char) (decision : Option DecisionNotification) : List FormPair :=
  ("item".toList, item) :: match decision with
    | none => []
    | some d => [("decision".toList, d.decisionId.toList),
      ("revision".toList, (toString d.revision).toList)]

namespace AttentionEvent

/-- `str(event.get("deep_link") or event.get("url") or "")` -/
def link (event : AttentionEvent) : String :=
  ((event.deepLink.filter (· ≠ "")).orElse fun _ => event.url).getD ""

/-- `_safe_deep_link` -/
def safeDeepLink (event : AttentionEvent) : Option String := do
  let parsed := urlparse event.link.toList
  let query := parseQsl parsed.query
  let item := queryValue query "item"
  let agentId := queryValue query "agentId"
  let number := queryValue query "number"
  if parsed.foreign = true then return overviewRoute
  else if parsed.path = "/attention".toList ∧ isTarget item = true then
    return routeOf "/attention" (itemParams item (← event.decision))
  else if parsed.path = "/attention".toList ∧
      FormPair.valuesOf "overview".toList query = ["true".toList] then
    return overviewRoute
  else if parsed.path = "/chat".toList ∧ isTarget agentId = true then
    return routeOf "/chat" [("agentId".toList, agentId)]
  else if parsed.path = "/chat".toList ∧
      FormPair.valuesOf "shortcut".toList query = ["running".toList] then
    return "/chat?shortcut=running"
  else if parsed.path = "/pr-detail".toList ∧ isNumeral 8 number = true then
    return routeOf "/pr-detail" [("number".toList, number)]
  else return overviewRoute

end AttentionEvent

/-- The data of a push; the test that an owner asks for has no item. -/
structure PushData where
  targetType : String
  targetId : Option String
  route : String
  decision : Option Json
  actionKey : Option String
  url : Option String
  itemId : Option String
  notificationKind : Option String
  deliveryId : String

/-- What `_push_intent_data` names as the target of a route. -/
def intentTarget (route : String) (id : String) : String × String :=
  let parsed := urlparse route.toList
  let query := parseQsl parsed.query
  let value (name : String) : String := String.ofList (queryValue query name)
  if parsed.path = "/chat".toList ∧ value "agentId" ≠ "" then ("agent", value "agentId")
  else if parsed.path = "/pr-detail".toList ∧ value "number" ≠ "" then
    ("pull-request", value "number")
  else if parsed.path = "/attention".toList ∧ value "item" ≠ "" then ("attention", value "item")
  else ("attention", id)

/-- The identity under which `claim_send` claims the delivery of an item. -/
def NavigationRules.deliveryId (rules : NavigationRules)
    (user item fingerprint tokenSha256 : String) :
    String :=
  rules.sha256 (String.intercalate "\x00" ["push-v1", user, item, fingerprint, tokenSha256])

/-- What `dispatch_notification_events` pushes of an event, by `_push_intent_data`. -/
def AttentionEvent.pushData (rules : NavigationRules) (user fingerprint tokenSha256 : String)
    (event : AttentionEvent) : Option PushData := do
  let decision ← event.decision
  let route ← event.safeDeepLink
  let (targetType, targetId) := intentTarget route event.id
  return {
    targetType
    targetId := some targetId
    route
    decision := decision.map DecisionNotification.dump
    actionKey := (event.action.get "action_key").str?
    url := some route
    itemId := some event.id
    notificationKind := event.notificationKind
    deliveryId := rules.deliveryId user event.id fingerprint tokenSha256 }

/-- What `send_owner_test_notification` pushes. -/
def ownerTestData (rules : NavigationRules) (user requestId tokenSha256 : String) : PushData where
  targetType := "attention-overview"
  targetId := none
  route := overviewRoute
  decision := none
  actionKey := none
  url := none
  itemId := none
  notificationKind := some "owner_test"
  deliveryId := rules.deliveryId user ("owner-test-" ++ requestId) "owner-test-v1" tokenSha256

section Items

/-- What is read of a row of `firstmate_decisions`, with the envelope of its request. -/
structure CaptainDecision where
  ownerUserId : String
  sourceInstanceId : String
  taskId : String
  lifecycleIdentity : String
  envelope : Json
  actionable : Bool

/-- `_decision_id` -/
def NavigationRules.decisionId (rules : NavigationRules) (d : CaptainDecision) : String :=
  "fmd_" ++ String.ofList ((rules.sha256 (String.intercalate "\x00"
    [d.ownerUserId, d.sourceInstanceId, d.taskId, d.lifecycleIdentity])).toList.take 32)

/-- An item of `FirstmateDecisionService.attention_items` -/
def CaptainDecision.item (rules : NavigationRules) (d : CaptainDecision) : AttentionEvent :=
  let itemId := "captain-question-" ++ rules.decisionId d
  { id := itemId
    url := some ("/attention?item=" ++ itemId)
    deepLink := some ("/attention?item=" ++ itemId)
    notificationKind := if d.actionable = true then some "captain_question" else none
    decisionNotification := if d.envelope.truthy = true then d.envelope else .null
    action := .null }

/-- A pull request as the provider lists it; the texts are those of its numbers. -/
structure AttentionPull where
  number : Option String
  repositoryId : Option String
  flagged : Bool

/-- The item of a pull request. -/
def AttentionPull.item (pull : AttentionPull) : AttentionEvent :=
  let number := pull.number.getD "None"
  let detailUrl := "/pr-detail?number=" ++ number ++
    (pull.repositoryId.elim "" fun repository => "&repositoryId=" ++ repository)
  { id := "github-repository-" ++ pull.repositoryId.getD "None" ++ "-pr-" ++ number
    url := some detailUrl
    deepLink := pull.number.map fun _ => detailUrl
    notificationKind := some "pr_ready"
    decisionNotification := .null
    action := .null }

/-- An issue or a mention of a provider, as far as its item is read. -/
structure ProviderNotice where
  key : String
  flagged : Bool

/-- `JiraProviderAdapter.get_assigned_issues`, which is not implemented and lists nothing. -/
def getAssignedIssues : List ProviderNotice := []

/-- `TeamsProviderAdapter.get_mentions`, which is not implemented and lists nothing. -/
def getMentions : List ProviderNotice := []

/-- The item of an issue or of a mention. -/
def ProviderNotice.item (stem kind : String) (notice : ProviderNotice) : AttentionEvent where
  id := stem ++ notice.key
  url := some ("/attention?item=" ++ stem ++ notice.key)
  deepLink := none
  notificationKind := some kind
  decisionNotification := .null
  action := .null

/-- `get_unified_attention_items`. `deferred` is whether the principal sees no deployment-level
provider. -/
def unifiedAttentionItems (rules : NavigationRules) (decisions : List CaptainDecision)
    (pulls : List AttentionPull) (deferred : Bool) : List AttentionEvent :=
  decisions.map (CaptainDecision.item rules) ++
    (pulls.filter AttentionPull.flagged).map AttentionPull.item ++
    if deferred = true then []
    else
      (getAssignedIssues.filter ProviderNotice.flagged).map
        (ProviderNotice.item "jira-" "blocker") ++
        (getMentions.filter ProviderNotice.flagged).map (ProviderNotice.item "" "captain_question")

end Items

end Magistrate
