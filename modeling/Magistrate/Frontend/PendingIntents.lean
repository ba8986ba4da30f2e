import Mathlib.Data.List.DropRight
import Magistrate.Frontend.Chat.Records
import Magistrate.Gateway.Notifications.Intents

/-!
# Pending intents

A notification that is opened names a route of the app. The route is read into an
intent, the payload has to agree with it, and one intent waits until the root of the
app takes it.
-/

namespace Magistrate.Frontend

/-- Where an intent leads. -/
inductive IntentTarget where
  | voice (entry : Option String)
  | attention (item : String) (decision : Option (String × String))
  | attentionOverview
  | agent (agentId : String)
  | magiQuery
  | pullRequest (number : String)
  deriving DecidableEq, Repr

namespace IntentTarget

/-- `targetType` -/
def targetType : IntentTarget → String
  | voice _ => "voice"
  | attention _ _ => "attention"
  | attentionOverview => "attention-overview"
  | agent _ => "agent"
  | magiQuery => "magi-query"
  | pullRequest _ => "pull-request"

/-- `route` -/
def route : IntentTarget → String
  | voice _ => "/voice"
  | attention _ _ | attentionOverview => "/attention"
  | agent _ | magiQuery => "/chat"
  | pullRequest _ => "/pr-detail"

/-- `params` -/
def params : IntentTarget → List (String × String)
  | voice entry => ("autostart", "true") :: entry.toList.map fun entry => ("entry", entry)
  | attention item none => [("item", item)]
  | attention item (some (decision, revision)) =>
    [("item", item), ("decision", decision), ("revision", revision)]
  | attentionOverview => [("overview", "true")]
  | agent agentId => [("agentId", agentId)]
  | magiQuery => [("shortcut", "running")]
  | pullRequest number => [("number", number)]

end IntentTarget

/-- `PENDING_INTENT_VERSION` -/
def pendingIntentVersion : ℤ := 1

/-- `PendingIntent` -/
structure PendingIntent where
  target : IntentTarget
  deliveryId : Option String
  deriving DecidableEq, Repr

/-- The text of a `URLSearchParams`. -/
def searchText (params : List (String × String)) : String :=
  String.ofList (formText searchKept (params.map fun pair => (pair.1.toList, pair.2.toList)))

/-- `pendingIntentKey` -/
def pendingIntentKey (intent : PendingIntent) : String :=
  String.intercalate ":" [toString pendingIntentVersion, intent.target.targetType,
    intent.target.route, searchText intent.target.params, intent.deliveryId.getD ""]

/-- `pendingIntentPath` -/
def pendingIntentPath (intent : PendingIntent) : String :=
  intent.target.route ++ "?" ++ searchText intent.target.params

/-- `PendingIntentPayload` -/
structure PendingIntentPayload where
  intentVersion : ℤ
  targetType : Option String
  targetId : Option String
  itemId : Option String
  deliveryId : Option String
  decision : Option Json
  route : String

/-- What is pushed, as the app receives it. -/
def payloadOf (data : PushData) : PendingIntentPayload where
  intentVersion := 1
  targetType := some data.targetType
  targetId := data.targetId
  itemId := data.itemId
  deliveryId := some data.deliveryId
  decision := data.decision
  route := data.route

/-- What the app is given to open. -/
inductive IntentInput where
  | absent
  | url (rawUrl : String)
  | payload (payload : PendingIntentPayload)

/-- What the router reads of a `URL`. The characters of its path stand as they are: the escapes of
a path are left out, and none of the routes has one. -/
structure WebUrl where
  protocol : String
  origin : String
  hostname : List Char
  pathname : List Char
  username : List Char
  password : List Char
  hash : List Char
  searchParams : List FormPair

/-- What is not modelled of the platform: how it reads an address that does not begin with a single
slash, and the origin of its window. -/
structure UrlRules where
  elsewhere : String → Option WebUrl
  origin : Option String

section Addresses

/-- The length of a text in the units of UTF-16. -/
def utf16Length (text : String) : ℕ :=
  (text.toList.map fun c => if c.toNat < 65536 then 1 else 2).sum

/-- A segment that stands for the directory it is in. -/
def isSingleDot (segment : List Char) : Bool :=
  [".".toList, "%2e".toList].contains (segment.map Char.toLower)

/-- A segment that stands for the directory above. -/
def isDoubleDot (segment : List Char) : Bool :=
  ["..".toList, ".%2e".toList, "%2e.".toList, "%2e%2e".toList].contains (segment.map Char.toLower)

/-- The segments of a path behind those before them. -/
def resolveSegments (before : List (List Char)) : List (List Char) → List (List Char)
  | [] => before
  | [segment] =>
    if isDoubleDot segment = true then before.dropLast ++ [[]]
    else if isSingleDot segment = true then before ++ [[]]
    else before ++ [segment]
  | segment :: next :: rest =>
    if isDoubleDot segment = true then resolveSegments before.dropLast (next :: rest)
    else if isSingleDot segment = true then resolveSegments before (next :: rest)
    else resolveSegments (before ++ [segment]) (next :: rest)

/-- The address of a path, below the base `magistrate://app`; the text follows its first slash. -/
def appUrl (text : List Char) : WebUrl :=
  let (address, fragment) := cutAt '#' text
  let (path, query) := cutAt '?' address
  { protocol := "magistrate:"
    origin := "null"
    hostname := "app".toList
    pathname := (resolveSegments [] (path.splitOn '/')).flatMap ('/' :: ·)
    username := []
    password := []
    hash := fragment.getD []
    searchParams := searchPairs (query.getD []) }

/-- The text of an address without the characters that a `URL` ignores. -/
def urlText (rawUrl : String) : List Char :=
  let outer (c : Char) : Bool := decide (c.toNat ≤ 32)
  (List.rdropWhile outer (rawUrl.toList.dropWhile outer)).filter (isIgnored · = false)

/-- `new URL(rawUrl, 'magistrate://app')` -/
def UrlRules.parse (rules : UrlRules) (rawUrl : String) : Option WebUrl :=
  match urlText rawUrl with
  | '/' :: text => if text.head? = some '/' then rules.elsewhere rawUrl else some (appUrl text)
  | _ => rules.elsewhere rawUrl

end Addresses

section Parsing

/-- `OPAQUE_ID` -/
def opaqueId (value : String) : Bool := isTarget value.toList

/-- `/^[A-Za-z0-9._:-]+$/` -/
def targetText (value : String) : Bool := value ≠ "" && value.toList.all isDecisionIdChar

/-- `safeParameter` -/
def safeParameter (value : Option String) (pattern : String → Bool) : Option String :=
  value.filter fun value => value ≠ "" && utf16Length value ≤ 128 && pattern value

/-- The target of a route. -/
def routeTarget (path : String) (param : String → Option String) : Option IntentTarget :=
  if path = "/voice" ∧ param "autostart" = some "true" then do
    guard (param "entry" = none ∨ safeParameter (param "entry") opaqueId ≠ none)
    return .voice (param "entry")
  else if path = "/attention" then
    match safeParameter (param "item") targetText with
    | some item =>
      if param "decision" ≠ none ∨ param "revision" ≠ none then do
        let decision ← safeParameter (param "decision") opaqueId
        let revision ← (param "revision").filter fun revision => isNumeral 9 revision.toList
        return .attention item (some (decision, revision))
      else return .attention item none
    | none => if param "overview" = some "true" then return .attentionOverview else none
  else if path = "/chat" then
    match safeParameter (param "agentId") targetText with
    | some agentId => return .agent agentId
    | none => if param "shortcut" = some "running" then return .magiQuery else none
  else if path = "/pr-detail" then do
    let number ← (param "number").filter fun number => isNumeral 8 number.toList
    return .pullRequest number
  else none

/-- The path of an address: native links may have its first part for a host. -/
def WebUrl.path (url : WebUrl) : List Char :=
  if url.protocol = "magistrate:" ∧ url.hostname ≠ [] ∧ url.hostname ≠ "app".toList then
    '/' :: url.hostname ++ if url.pathname = ['/'] then [] else url.pathname
  else url.pathname

/-- A parameter of an address. -/
def WebUrl.param (url : WebUrl) (name : String) : Option String :=
  (FormPair.valuesOf name.toList url.searchParams).head?.map String.ofList

/-- `parsePendingIntent` of a text -/
def parsePendingIntent (rules : UrlRules) (rawUrl : String) : Option PendingIntent := do
  guard ((rawUrl.toList.all isTrimmed) = false ∧ utf16Length rawUrl ≤ 2048)
  let url ← rules.parse rawUrl
  guard (["magistrate:", "http:", "https:"].contains url.protocol = true)
  guard (url.protocol = "magistrate:" ∨ rules.origin = some url.origin)
  guard (url.path.head? = some '/' ∧ url.username = [] ∧ url.password = [] ∧ url.hash = [])
  guard (∀ pair ∈ url.searchParams, (FormPair.valuesOf pair.1 url.searchParams).length = 1)
  let target ← routeTarget (String.ofList url.path) url.param
  return ⟨target, none⟩

/-- `Number.isSafeInteger(value) && value > 0` -/
def isSafePositive (value : Json) : Bool :=
  (safeInteger? value).any fun n => decide (0 < n)

/-- The names of a decision notification. -/
def decisionNames : List String :=
  ["schema_version", "decision_id", "task_id", "run_id", "request_id", "scope", "revision",
    "expires_at"]

/-- `isDecisionNotification` -/
def isDecisionNotification (value : Json) : Bool :=
  match value with
  | .obj fields =>
    decide ((value.get "schema_version").str? = some "magistrate.decision-notification.v1") &&
      (["decision_id", "task_id", "run_id", "request_id", "scope"].all fun key =>
        (value.get key).str?.any opaqueId) &&
      isSafePositive (value.get "revision") &&
      ((value.get "revision").int?.any fun n => decide (n ≤ 2147483647)) &&
      (fields.all fun field => decisionNames.contains field.1) &&
      isSafePositive (value.get "expires_at")
  | _ => false

end Parsing

/-- An intent that was taken, and until when it is not taken again; none is forever. -/
structure HandledKey where
  key : String
  blockedUntil : Option ℕ
  deriving DecidableEq, Repr

/-- The state of the router: the intent that waits, and those taken lately. -/
structure PendingIntentRouter where
  pendingIntent : Option PendingIntent
  handledKeys : Table HandledKey.key

namespace PendingIntentRouter

/-- A router that was given nothing. -/
def fresh : PendingIntentRouter := ⟨none, .empty⟩

/-- `LEGACY_DUPLICATE_WINDOW_MS` -/
def legacyDuplicateWindowMs : ℕ := 2000

/-- `MAX_HANDLED_KEYS` -/
def maxHandledKeys : ℕ := 32

/-- The identifier that an intent has for its target. -/
def targetId : IntentTarget → Option String
  | .attention item _ => some item
  | .agent agentId => some agentId
  | .pullRequest number => some number
  | .voice _ | .attentionOverview | .magiQuery => none

/-- Both are there, and they differ. -/
def disagree (given wanted : Option String) : Bool :=
  given.any fun given => given ≠ "" && wanted.any (· ≠ given)

/-- The intent of a payload whose fields agree with its route. -/
def agreedIntent (payload : PendingIntentPayload) (intent : PendingIntent) :
    Option PendingIntent := do
  guard (disagree payload.targetType (some intent.target.targetType) = false ∨
    payload.targetType = some "attention" ∧ intent.target.targetType = "attention-overview")
  guard (disagree payload.targetId (targetId intent.target) = false)
  match intent.target with
  | .attention item named =>
    guard (disagree payload.itemId (some item) = false)
    guard (payload.decision.all (fun decision => isDecisionNotification decision &&
      (named.map Prod.fst == (decision.get "decision_id").str?) &&
      (named.map Prod.snd == (decision.get "revision").int?.map toString)) = true)
  | _ => guard (payload.decision.isNone = true)
  match payload.deliveryId with
  | none => return intent
  | some deliveryId =>
    let deliveryId ← safeParameter (some deliveryId) opaqueId
    return { intent with deliveryId := some deliveryId }

/-- The intent of what the app is given. -/
def intentOf (rules : UrlRules) : IntentInput → Option PendingIntent
  | .absent => none
  | .url rawUrl => parsePendingIntent rules rawUrl
  | .payload payload => do
    guard (payload.intentVersion = pendingIntentVersion)
    agreedIntent payload (← parsePendingIntent rules payload.route)

/-- An intent was taken and is not to be taken again yet. -/
def Handled (router : PendingIntentRouter) (now : ℕ) (key : String) : Prop :=
  ∃ row ∈ router.handledKeys.find? key, row.blockedUntil.all (now < ·) = true

instance (router : PendingIntentRouter) (now : ℕ) (key : String) :
    Decidable (router.Handled now key) :=
  inferInstanceAs (Decidable (∃ row ∈ router.handledKeys.find? key,
    row.blockedUntil.all (now < ·) = true))

/-- `enqueuePendingIntent` -/
def enqueuePendingIntent (rules : UrlRules) (now : ℕ) (input : IntentInput)
    (router : PendingIntentRouter) : Bool × PendingIntentRouter :=
  match intentOf rules input with
  | none => (false, router)
  | some intent =>
    if router.pendingIntent.map pendingIntentKey = some (pendingIntentKey intent) ∨
        router.Handled now (pendingIntentKey intent) then (false, router)
    else (true, { router with pendingIntent := some intent })

/-- An intent with an identity is not taken twice. -/
def hasIdentity (intent : PendingIntent) : Bool :=
  intent.deliveryId.any (· ≠ "") ||
    match intent.target with
    | .voice entry => entry.any (· ≠ "")
    | _ => false

/-- `consumePendingIntent` -/
def consumePendingIntent (now : ℕ) (router : PendingIntentRouter) :
    Option PendingIntent × PendingIntentRouter :=
  match router.pendingIntent with
  | none => (none, router)
  | some intent =>
    let handled := router.handledKeys.put ⟨pendingIntentKey intent,
      if hasIdentity intent = true then none else some (now + legacyDuplicateWindowMs)⟩
    let dropped := handled.rows.take (handled.rows.length - maxHandledKeys)
    (some intent, ⟨none, handled.filter fun row => !dropped.contains row⟩)

end PendingIntentRouter

end Magistrate.Frontend
