import Magistrate.Frontend.PendingIntents

/-!
# Routes of the app

The routes that the server writes for a notification, and what both sides read of them:
the server finds the target that it names, the app finds the one it navigates to, and
writes the same route again.
-/

namespace Magistrate.Frontend

/-- A text that may name a target. -/
abbrev TargetText : Type := {value : List Char // isTarget value = true}

/-- A numeral with at most so many digits behind its first. -/
abbrev NumeralText (more : ℕ) : Type := {value : List Char // isNumeral more value = true}

/-- A route that a notification may lead to. -/
inductive AppRoute where
  | overview
  | item (itemId : TargetText) (decision : Option (TargetText × NumeralText 9))
  | agent (agentId : TargetText)
  | running
  | pull (number : NumeralText 8)

namespace AppRoute

/-- The path of a route. -/
def path : AppRoute → String
  | overview | item _ _ => "/attention"
  | agent _ | running => "/chat"
  | pull _ => "/pr-detail"

/-- The parameters of a route. -/
def params : AppRoute → List FormPair
  | overview => [("overview".toList, "true".toList)]
  | item itemId none => [("item".toList, itemId.val)]
  | item itemId (some (decision, revision)) =>
    [("item".toList, itemId.val), ("decision".toList, decision.val),
      ("revision".toList, revision.val)]
  | agent agentId => [("agentId".toList, agentId.val)]
  | running => [("shortcut".toList, "running".toList)]
  | pull number => [("number".toList, number.val)]

/-- A route as the server writes it. -/
def text (r : AppRoute) : String := routeOf r.path r.params

/-- A route as the app reads it. -/
def target : AppRoute → IntentTarget
  | overview => .attentionOverview
  | item itemId decision =>
    .attention (String.ofList itemId.val) (decision.map fun (decision, revision) =>
      (String.ofList decision.val, String.ofList revision.val))
  | agent agentId => .agent (String.ofList agentId.val)
  | running => .magiQuery
  | pull number => .pullRequest (String.ofList number.val)

/-- What the server names as the target of a route, for an item that is not in its route. -/
def named (id : String) : AppRoute → String × String
  | overview | running => ("attention", id)
  | item itemId _ => ("attention", String.ofList itemId.val)
  | agent agentId => ("agent", String.ofList agentId.val)
  | pull number => ("pull-request", String.ofList number.val)

end AppRoute

section Characters

theorem toNat_of_isAlphanum {c : Char} (h : c.isAlphanum = true) :
    (48 ≤ c.toNat ∧ c.toNat ≤ 57) ∨ (65 ≤ c.toNat ∧ c.toNat ≤ 90) ∨
      (97 ≤ c.toNat ∧ c.toNat ≤ 122) := by
  have hcases : ((c.isUpper || c.isLower) || c.isDigit) = true := h
  rw [Bool.or_eq_true, Bool.or_eq_true] at hcases
  rcases hcases with (hupper | hlower) | hdigit
  · exact .inr (.inl (of_decide_eq_true hupper))
  · exact .inr (.inr ((Bool.and_eq_true _ _).mp hlower |>.imp of_decide_eq_true of_decide_eq_true))
  · exact .inl ((Bool.and_eq_true _ _).mp hdigit |>.imp of_decide_eq_true of_decide_eq_true)

/-- A character of an identifier is ASCII, and both writers keep it or neither does. -/
theorem isDecisionIdChar_kept {c : Char} (h : isDecisionIdChar c = true) :
    c.toNat < 128 ∧ quoteKept c = searchKept c := by
  simp only [isDecisionIdChar, Bool.or_eq_true, beq_iff_eq] at h
  rcases h with (((h | rfl) | rfl) | rfl) | rfl
  · refine ⟨?_, by simp only [quoteKept, searchKept, h, Bool.true_or]⟩
    have hrange := toNat_of_isAlphanum h
    omega
  all_goals exact ⟨by decide, by decide⟩

/-- The characters of identifiers. -/
def Plain (text : List Char) : Prop := ∀ c ∈ text, isDecisionIdChar c = true

theorem TargetText.plain (value : TargetText) : Plain value.val := by
  have h := value.property
  simp only [isTarget, Bool.and_eq_true, List.all_eq_true] at h
  exact h.2

theorem TargetText.length (value : TargetText) : 1 ≤ value.val.length ∧ value.val.length ≤ 128 := by
  have h := value.property
  simp only [isTarget, Bool.and_eq_true, decide_eq_true_eq] at h
  exact h.1

theorem isDecisionIdChar_of_isDigit {c : Char} (h : c.isDigit = true) :
    isDecisionIdChar c = true := by
  simp [isDecisionIdChar, Char.isAlphanum, h]

theorem NumeralText.plain {more : ℕ} (value : NumeralText more) : Plain value.val := by
  obtain ⟨value, h⟩ := value
  cases value with
  | nil => exact absurd h (by simp [isNumeral])
  | cons first rest =>
    simp only [isNumeral, Bool.and_eq_true, List.all_eq_true] at h
    rintro c (_ | ⟨_, hc⟩)
    · exact isDecisionIdChar_of_isDigit h.1.1.1
    · exact isDecisionIdChar_of_isDigit (h.1.2 c hc)

theorem NumeralText.length {more : ℕ} (value : NumeralText more) :
    1 ≤ value.val.length ∧ value.val.length ≤ more + 1 := by
  obtain ⟨value, h⟩ := value
  cases value with
  | nil => exact absurd h (by simp [isNumeral])
  | cons first rest =>
    simp only [isNumeral, Bool.and_eq_true, decide_eq_true_eq] at h
    exact ⟨Nat.succ_le_succ (Nat.zero_le _), Nat.succ_le_succ h.2⟩

/-- A character of a link that is none of those at which a link is cut. -/
def isLinkChar (c : Char) : Bool := decide (32 < c.toNat ∧ c.toNat < 128) && c != '#' && c != '?'

/-- What a character of a link is not. -/
def LinkChar (c : Char) : Prop := 32 < c.toNat ∧ c.toNat < 128 ∧ c ≠ '#' ∧ c ≠ '?'

instance (c : Char) : Decidable (LinkChar c) :=
  inferInstanceAs (Decidable (32 < c.toNat ∧ c.toNat < 128 ∧ c ≠ '#' ∧ c ≠ '?'))

theorem linkChar_of_all {text : List Char} (h : text.all isLinkChar = true) :
    ∀ c ∈ text, LinkChar c := by
  intro c hc
  have hlink := List.all_eq_true.mp h c hc
  simp only [isLinkChar, Bool.and_eq_true, decide_eq_true_eq, bne_iff_ne] at hlink
  exact ⟨hlink.1.1.1, hlink.1.1.2, hlink.1.2, hlink.2⟩

theorem linkChar_of_mem_formText {c : Char} {pairs : List FormPair}
    (h : c ∈ formText quoteKept pairs) : LinkChar c := by
  rcases mem_formText h with hkept | hother
  · simp only [quoteKept, Bool.or_eq_true, List.contains_iff_mem] at hkept
    rcases hkept with halnum | hmark
    · have hrange := toNat_of_isAlphanum halnum
      refine ⟨by omega, by omega, ?_, ?_⟩
      · rintro rfl
        exact absurd halnum (by decide)
      · rintro rfl
        exact absurd halnum (by decide)
    · exact linkChar_of_all (by decide) c hmark
  · exact linkChar_of_all (by decide) c hother

end Characters

section Links

/-- The segments of the routes. -/
def routeSegments : List (List Char) := ["attention".toList, "chat".toList, "pr-detail".toList]

variable {segment query : List Char}

theorem routeSegment_head : ∀ segment ∈ routeSegments, ∃ first rest, segment = first :: rest ∧
    first ≠ '/' := by
  simp [routeSegments]

theorem routeSegment_linkChar (hsegment : segment ∈ routeSegments) : ∀ c ∈ segment, LinkChar c := by
  have hall : ∀ segment ∈ routeSegments, segment.all isLinkChar = true := by decide
  exact linkChar_of_all (hall segment hsegment)

theorem linkChar_of_mem_link (hsegment : segment ∈ routeSegments) (hquery : ∀ c ∈ query, LinkChar c)
    {c : Char} (hc : c ∈ '/' :: segment ++ '?' :: query) : c = '?' ∨ LinkChar c := by
  rcases List.mem_append.mp hc with hc | hc
  · rcases List.mem_cons.mp hc with rfl | hc
    · exact .inr (by decide)
    · exact .inr (routeSegment_linkChar hsegment c hc)
  · rcases List.mem_cons.mp hc with rfl | hc
    · exact .inl rfl
    · exact .inr (hquery c hc)

/-- Nothing of a link is ignored. -/
theorem visible_of_mem_link (hsegment : segment ∈ routeSegments)
    (hquery : ∀ c ∈ query, LinkChar c) {c : Char} (hc : c ∈ '/' :: segment ++ '?' :: query) :
    32 < c.toNat ∧ c.toNat < 128 ∧ c ≠ '#' := by
  rcases linkChar_of_mem_link hsegment hquery hc with rfl | ⟨hlow, hhigh, hhash, -⟩
  · decide
  · exact ⟨hlow, hhigh, hhash⟩

theorem hash_notMem_link (hsegment : segment ∈ routeSegments) (hquery : ∀ c ∈ query, LinkChar c) :
    '#' ∉ '/' :: segment ++ '?' :: query := by
  intro hc
  exact (visible_of_mem_link hsegment hquery hc).2.2 rfl

theorem questionMark_notMem_segment (hsegment : segment ∈ routeSegments) : '?' ∉ segment := by
  intro hc
  exact (routeSegment_linkChar hsegment _ hc).2.2.2 rfl

/-- A text without blanks and control characters begins where it begins. -/
theorem dropWhile_visible {text : List Char} (h : ∀ c ∈ text, 32 < c.toNat) :
    (text.dropWhile fun c => decide (c.toNat ≤ 32)) = text := by
  cases text with
  | nil => rfl
  | cons c text =>
    have hc := h c List.mem_cons_self
    exact List.dropWhile_cons_of_neg (by simpa using hc)

/-- A character that is no blank and no control character is not lost. -/
theorem isIgnored_eq_false {c : Char} (h : 32 < c.toNat) : isIgnored c = false := by
  have hlow : c ∈ ['\t', '\r', '\n'] → c.toNat ≤ 32 := by
    simp only [List.mem_cons, List.not_mem_nil, or_false]
    rintro (rfl | rfl | rfl) <;> decide
  rw [isIgnored, List.contains_eq_mem, decide_eq_false_iff_not]
  intro hmem
  have hle := hlow hmem
  omega

/-- A text without blanks and control characters loses none. -/
theorem filter_visible {text : List Char} (h : ∀ c ∈ text, 32 < c.toNat) :
    text.filter (isIgnored · = false) = text :=
  List.filter_eq_self.mpr fun c hc => decide_eq_true (isIgnored_eq_false (h c hc))

/-- What the server finds in a link with the path of a route, whatever follows the path. -/
theorem urlparse_segment (hsegment : segment ∈ routeSegments) (suffix : List Char) :
    urlparse ('/' :: segment ++ '?' :: suffix) =
      ⟨false, '/' :: segment,
        (suffix.filter (isIgnored · = false)).takeWhile (· ≠ '#')⟩ := by
  have hvisible : ∀ c ∈ segment, 32 < c.toNat := fun c hc =>
    (routeSegment_linkChar hsegment c hc).1
  have hdrop : (('/' :: segment ++ '?' :: suffix).dropWhile fun c => decide (c.toNat ≤ 32)) =
      '/' :: segment ++ '?' :: suffix := List.dropWhile_cons_of_neg (by decide)
  have hkept : ('/' :: segment ++ '?' :: suffix).filter (isIgnored · = false) =
      '/' :: segment ++ '?' :: suffix.filter (isIgnored · = false) := by
    rw [List.filter_append, List.filter_cons_of_pos (by decide), filter_visible hvisible,
      List.filter_cons_of_pos (by decide)]
  generalize suffix.filter (isIgnored · = false) = rest at hkept
  have hhost : ('/' :: segment ++ '?' :: rest).take 2 ≠ ['/', '/'] := by
    obtain ⟨first, tail, rfl, hfirst⟩ := routeSegment_head segment hsegment
    simpa using hfirst
  have hscheme : hasScheme ('/' :: segment ++ '?' :: rest) = false := by
    rw [hasScheme, cutAt, List.cons_append, List.takeWhile_cons_of_pos (by decide)]
    simp
  have hhash : (cutAt '#' ('/' :: segment ++ '?' :: rest)).1 =
      '/' :: segment ++ '?' :: rest.takeWhile (· ≠ '#') := by
    have hall : ∀ c ∈ '/' :: segment, decide (c ≠ '#') = true := by
      rintro c (_ | ⟨_, hc⟩)
      · decide
      · exact decide_eq_true (routeSegment_linkChar hsegment c hc).2.2.1
    rw [cutAt, List.takeWhile_append_of_pos hall, List.takeWhile_cons_of_pos (by decide)]
  have hquestion : '?' ∉ '/' :: segment := by
    simp [questionMark_notMem_segment hsegment]
  have hpath : ∀ segment ∈ routeSegments, dropParams ('/' :: segment) = '/' :: segment := by decide
  simp only [urlparse, hdrop, hkept, hhost, if_false, hscheme, hhash, cutAt_append hquestion,
    hpath segment hsegment, List.isEmpty_nil, Bool.not_true, Bool.or_false, Option.getD_some]

/-- What the server finds in a link. -/
theorem urlparse_link (hsegment : segment ∈ routeSegments) (hquery : ∀ c ∈ query, LinkChar c) :
    urlparse ('/' :: segment ++ '?' :: query) = ⟨false, '/' :: segment, query⟩ := by
  have hkept := filter_visible fun c hc => (hquery c hc).1
  have hcut : query.takeWhile (· ≠ '#') = query :=
    List.takeWhile_eq_self_iff.mpr fun c hc => decide_eq_true (hquery c hc).2.2.1
  rw [urlparse_segment hsegment, hkept, hcut]

/-- The address that the app reads of a link. -/
def linkUrl (segment query : List Char) : WebUrl where
  protocol := "magistrate:"
  origin := "null"
  hostname := "app".toList
  pathname := '/' :: segment
  username := []
  password := []
  hash := []
  searchParams := searchPairs query

/-- What the app finds in a link. -/
theorem parse_link (rules : UrlRules) (hsegment : segment ∈ routeSegments)
    (hquery : ∀ c ∈ query, LinkChar c) :
    rules.parse (String.ofList ('/' :: segment ++ '?' :: query)) =
      some (linkUrl segment query) := by
  have hvisible : ∀ c ∈ '/' :: segment ++ '?' :: query, 32 < c.toNat := fun c hc =>
    (visible_of_mem_link hsegment hquery hc).1
  have hends : List.rdropWhile (fun c => decide (c.toNat ≤ 32)) ('/' :: segment ++ '?' :: query) =
      '/' :: segment ++ '?' :: query := by
    rw [List.rdropWhile_eq_self_iff]
    intro hne
    have hlast := hvisible _ (List.getLast_mem hne)
    simpa using hlast
  have htext : urlText (String.ofList ('/' :: segment ++ '?' :: query)) =
      '/' :: (segment ++ '?' :: query) := by
    rw [urlText, String.toList_ofList, dropWhile_visible hvisible, hends]
    exact filter_visible hvisible
  have hslash : (segment ++ '?' :: query).head? ≠ some '/' := by
    obtain ⟨first, rest, rfl, hfirst⟩ := routeSegment_head segment hsegment
    simpa using hfirst
  have hhash : '#' ∉ segment ++ '?' :: query := fun hc =>
    hash_notMem_link hsegment hquery (List.mem_cons_of_mem _ hc)
  have hpath : ∀ segment ∈ routeSegments,
      (resolveSegments [] (segment.splitOn '/')).flatMap ('/' :: ·) = '/' :: segment := by decide
  simp only [UrlRules.parse, htext, hslash, if_false, appUrl, cutAt_of_notMem hhash,
    cutAt_append (questionMark_notMem_segment hsegment), hpath segment hsegment, Option.getD_none,
    Option.getD_some, linkUrl]

end Links

section Parameters

theorem ofList_ne_empty {text : List Char} (h : 1 ≤ text.length) : String.ofList text ≠ "" := by
  intro hempty
  have hnil : text = [] := by simpa using congrArg String.toList hempty
  subst hnil
  exact absurd h (by decide)

theorem utf16Length_of_ascii {text : String} (h : ∀ c ∈ text.toList, c.toNat < 128) :
    utf16Length text = text.toList.length := by
  have hone : text.toList.map (fun c => if c.toNat < 65536 then 1 else 2) =
      text.toList.map fun _ => 1 := by
    refine List.map_congr_left fun c hc => ?_
    have hlt := h c hc
    exact if_pos (by omega)
  rw [utf16Length, hone, List.map_const', List.sum_replicate_nat, Nat.mul_one]

/-- A parameter that both writers write alike. -/
structure PlainPair (pair : FormPair) : Prop where
  name : Plain pair.1
  value : Plain pair.2
  nonempty : 1 ≤ pair.2.length
  short : pair.1.length ≤ 8 ∧ pair.2.length ≤ 128

/-- The names of parameters, and the values that are the same in every route. -/
def routeWords : List (List Char) :=
  ["overview".toList, "true".toList, "item".toList, "decision".toList, "revision".toList,
    "agentId".toList, "shortcut".toList, "running".toList, "number".toList]

theorem routeWords_plain {word : List Char} (h : word ∈ routeWords) :
    Plain word ∧ 1 ≤ word.length ∧ word.length ≤ 8 := by
  have hall : ∀ word ∈ routeWords, word.all isDecisionIdChar = true ∧ 1 ≤ word.length ∧
      word.length ≤ 8 := by decide
  obtain ⟨hplain, hlength⟩ := hall word h
  exact ⟨List.all_eq_true.mp hplain, hlength⟩

theorem plainPair_of_word {name value : List Char} (hname : name ∈ routeWords)
    (hvalue : Plain value)
    (hlength : 1 ≤ value.length ∧ value.length ≤ 128) : PlainPair (name, value) := by
  obtain ⟨hplain, -, hshort⟩ := routeWords_plain hname
  exact ⟨hplain, hvalue, hlength.1, hshort, hlength.2⟩

theorem plainPair_of_words {name value : List Char} (hname : name ∈ routeWords)
    (hvalue : value ∈ routeWords) : PlainPair (name, value) := by
  obtain ⟨hplain, hnonempty, hshort⟩ := routeWords_plain hvalue
  exact plainPair_of_word hname hplain ⟨hnonempty, by omega⟩

/-- An identifier is a safe parameter. -/
theorem TargetText.safeParameter (value : TargetText) {pattern : String → Bool}
    (hpattern : pattern (String.ofList value.val) = true) :
    safeParameter (some (String.ofList value.val)) pattern = some (String.ofList value.val) := by
  have hlength : utf16Length (String.ofList value.val) = value.val.length := by
    rw [utf16Length_of_ascii, String.toList_ofList]
    rw [String.toList_ofList]
    exact fun c hc => (isDecisionIdChar_kept (value.plain c hc)).1
  have hne := ofList_ne_empty value.length.1
  simp [Frontend.safeParameter, hlength, hne, value.length.2, hpattern]

theorem TargetText.targetText (value : TargetText) :
    targetText (String.ofList value.val) = true := by
  have hall : value.val.all isDecisionIdChar = true := List.all_eq_true.mpr value.plain
  have hne := ofList_ne_empty value.length.1
  simp [Frontend.targetText, hne, hall]

theorem TargetText.opaqueId (value : TargetText) : opaqueId (String.ofList value.val) = true := by
  rw [Frontend.opaqueId, String.toList_ofList]
  exact value.property

theorem NumeralText.plainPair {more : ℕ} (hmore : more ≤ 9) (value : NumeralText more)
    {name : List Char} (hname : name ∈ routeWords) : PlainPair (name, value.val) := by
  have hlength := value.length
  exact plainPair_of_word hname value.plain ⟨hlength.1, by omega⟩

theorem NumeralText.filter {more : ℕ} (value : NumeralText more) :
    (some (String.ofList value.val)).filter (fun text => isNumeral more text.toList) =
      some (String.ofList value.val) := by
  rw [Option.filter_some, String.toList_ofList, if_pos value.property]

theorem PlainPair.ascii {pair : FormPair} (h : PlainPair pair) : pair.Ascii :=
  ⟨fun c hc => (isDecisionIdChar_kept (h.name c hc)).1,
    fun c hc => (isDecisionIdChar_kept (h.value c hc)).1⟩

end Parameters

namespace AppRoute

variable (r : AppRoute)

/-- Both writers write the parameters of a route alike. -/
theorem params_plain : ∀ pair ∈ r.params, PlainPair pair := by
  cases r with
  | overview => exact List.forall_mem_singleton.mpr (plainPair_of_words (by decide) (by decide))
  | item itemId decision =>
    have hitem : PlainPair ("item".toList, itemId.val) :=
      plainPair_of_word (by decide) itemId.plain itemId.length
    match decision with
    | none => exact List.forall_mem_singleton.mpr hitem
    | some (decision, revision) =>
      refine List.forall_mem_cons.mpr ⟨hitem, List.forall_mem_cons.mpr ⟨?_,
        List.forall_mem_singleton.mpr ?_⟩⟩
      · exact plainPair_of_word (by decide) decision.plain decision.length
      · exact revision.plainPair (Nat.le_refl 9) (by decide)
  | agent agentId =>
    exact List.forall_mem_singleton.mpr (plainPair_of_word (by decide) agentId.plain agentId.length)
  | running => exact List.forall_mem_singleton.mpr (plainPair_of_words (by decide) (by decide))
  | pull number => exact List.forall_mem_singleton.mpr (number.plainPair (by decide) (by decide))

/-- What is written of the parameters of a route is short. -/
theorem length_formText_params_le : (formText quoteKept r.params).length ≤ 1230 := by
  have hcount : r.params.length ≤ 3 := by
    rcases r with _ | ⟨_, _ | _⟩ | _ | _ | _ <;> simp [params]
  have hlength : (formText quoteKept r.params).length ≤ r.params.length * (3 * 136 + 2) := by
    refine length_formText_le fun pair hpair => ?_
    have hplain := r.params_plain pair hpair
    have hshort := hplain.short
    exact ⟨hplain.ascii, by omega⟩
  omega

theorem path_toList : ∃ segment ∈ routeSegments, r.path.toList = '/' :: segment := by
  have hattention : "/attention".toList = '/' :: "attention".toList := by decide
  have hchat : "/chat".toList = '/' :: "chat".toList := by decide
  have hdetail : "/pr-detail".toList = '/' :: "pr-detail".toList := by decide
  cases r with
  | overview | item _ _ => exact ⟨_, by decide, hattention⟩
  | agent _ | running => exact ⟨_, by decide, hchat⟩
  | pull _ => exact ⟨_, by decide, hdetail⟩

theorem text_toList : r.text.toList = r.path.toList ++ '?' :: formText quoteKept r.params := by
  simp [text, routeOf]

/-- The server finds the path and the parameters of a route. -/
theorem urlparse_text :
    urlparse r.text.toList = ⟨false, r.path.toList, formText quoteKept r.params⟩ := by
  obtain ⟨segment, hsegment, hpath⟩ := r.path_toList
  rw [text_toList, hpath]
  exact urlparse_link hsegment fun c hc => linkChar_of_mem_formText hc

/-- The server reads the parameters of a route as it wrote them. -/
theorem parseQsl_params : parseQsl (formText quoteKept r.params) = r.params := by
  refine separates_quoteKept.parseQsl_formText fun pair hpair => ?_
  have hplain := r.params_plain pair hpair
  exact ⟨hplain.ascii, fun hnil => absurd hplain.nonempty (by simp [hnil])⟩

/-- The app reads the parameters of a route as the server wrote them. -/
theorem searchPairs_params : searchPairs (formText quoteKept r.params) = r.params :=
  separates_quoteKept.searchPairs_formText fun pair hpair => (r.params_plain pair hpair).ascii

/-- What the server names as the target of a route. -/
theorem intentTarget_text (id : String) : intentTarget r.text id = r.named id := by
  have htarget (value : TargetText) : String.ofList value.val ≠ "" := ofList_ne_empty value.length.1
  have hnumeral (value : NumeralText 8) : String.ofList value.val ≠ "" :=
    ofList_ne_empty value.length.1
  rw [intentTarget, urlparse_text, parseQsl_params]
  rcases r with _ | ⟨itemId, _ | ⟨decision, revision⟩⟩ | agentId | _ | number <;>
    simp [path, params, named, queryValue, FormPair.valuesOf, htarget, hnumeral]

/-- A route leads back to its text. -/
theorem pendingIntentPath_target (deliveryId : Option String) :
    pendingIntentPath ⟨r.target, deliveryId⟩ = r.text := by
  have hroute : r.target.route = r.path := by cases r <;> rfl
  have hparams : r.target.params.map (fun pair => (pair.1.toList, pair.2.toList)) = r.params := by
    rcases r with _ | ⟨itemId, _ | ⟨decision, revision⟩⟩ | agentId | _ | number <;>
      simp [target, params, IntentTarget.params]
  have hkept : formText searchKept r.params = formText quoteKept r.params := by
    refine formText_congr fun pair hpair c hc => ?_
    have hplain := r.params_plain pair hpair
    rcases List.mem_append.mp hc with hc | hc
    · exact (isDecisionIdChar_kept (hplain.name c hc)).2.symm
    · exact (isDecisionIdChar_kept (hplain.value c hc)).2.symm
  rw [pendingIntentPath, searchText, hroute, hparams, hkept, text, routeOf]

/-- A parameter of a route. -/
def param (name : String) : Option String :=
  (FormPair.valuesOf name.toList r.params).head?.map String.ofList

/-- The target that is read of the path and of the parameters of a route. -/
theorem routeTarget_param : routeTarget r.path r.param = some r.target := by
  rcases r with _ | ⟨itemId, _ | ⟨decision, revision⟩⟩ | agentId | _ | number
  · simp [routeTarget, path, param, params, FormPair.valuesOf, safeParameter, target]
  · have hitem := itemId.safeParameter itemId.targetText
    simp [routeTarget, path, param, params, FormPair.valuesOf, hitem, target]
  · have hitem := itemId.safeParameter itemId.targetText
    have hdecision := decision.safeParameter decision.opaqueId
    simp [routeTarget, path, param, params, FormPair.valuesOf, hitem, hdecision, revision.filter,
      target]
  · have hagent := agentId.safeParameter agentId.targetText
    simp [routeTarget, path, param, params, FormPair.valuesOf, hagent, target]
  · simp [routeTarget, path, param, params, FormPair.valuesOf, safeParameter, target]
  · simp [routeTarget, path, param, params, FormPair.valuesOf, number.filter, target]

/-- A route is read as its target. -/
theorem parsePendingIntent_text (rules : UrlRules) :
    parsePendingIntent rules r.text = some ⟨r.target, none⟩ := by
  obtain ⟨segment, hsegment, hpath⟩ := r.path_toList
  have hquery : ∀ c ∈ formText quoteKept r.params, LinkChar c := fun c hc =>
    linkChar_of_mem_formText hc
  have hlink : r.text.toList = '/' :: segment ++ '?' :: formText quoteKept r.params := by
    rw [text_toList, hpath]
  have hparse : rules.parse r.text = some (linkUrl segment (formText quoteKept r.params)) := by
    rw [← String.ofList_toList (s := r.text), hlink]
    exact parse_link rules hsegment hquery
  have htrim : r.text.toList.all isTrimmed = false := by
    rw [hlink]
    rfl
  have hlength : utf16Length r.text ≤ 2048 := by
    have hshort := r.length_formText_params_le
    have hsegments : ∀ segment ∈ routeSegments, segment.length ≤ 9 := by decide
    have hlong := hsegments segment hsegment
    rw [utf16Length_of_ascii, hlink]
    · simp only [List.length_append, List.length_cons]
      omega
    · rw [hlink]
      exact fun c hc => (visible_of_mem_link hsegment hquery hc).2.1
  have hparams : (linkUrl segment (formText quoteKept r.params)).searchParams = r.params :=
    r.searchPairs_params
  have hkeys : ∀ pair ∈ (linkUrl segment (formText quoteKept r.params)).searchParams,
      (FormPair.valuesOf pair.1
        (linkUrl segment (formText quoteKept r.params)).searchParams).length =
        1 := by
    rw [hparams]
    rcases r with _ | ⟨itemId, _ | ⟨decision, revision⟩⟩ | agentId | _ | number <;>
      simp [params, FormPair.valuesOf]
  have hurl : (linkUrl segment (formText quoteKept r.params)).path = r.path.toList := by
    rw [hpath]
    simp [WebUrl.path, linkUrl]
  have hparam : (linkUrl segment (formText quoteKept r.params)).param = r.param := by
    funext name
    rw [WebUrl.param, hparams, param]
  have hslash : r.path.toList.head? = some '/' := by
    rw [hpath]
    rfl
  simp only [parsePendingIntent, hparse, Option.bind_eq_bind, Option.bind_some, guard, if_pos hkeys]
  rw [hparam, hurl, String.ofList_toList, routeTarget_param]
  simp only [htrim, hlength, hslash]
  rfl

end AppRoute

end Magistrate.Frontend
