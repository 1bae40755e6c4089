import Relayna.Library.PathRewriting

/-!
# Which paths LiteLLM passthrough serves

`LiteLlmPassthroughSettings` of `crates/gateway-core/src/route_settings.rs` decides three questions
about a method and a path that no route of the gateway matches: whether a gateway credential may use
it (`allows`), whether the browser paths of the LiteLLM UI may pass on trusted ingress
(`trusted_ingress_ui_path_allowed`), and whether admin paths may
(`trusted_ingress_passthrough_path_allowed`). All three, and the direct mode of the canonical
routes, ask `denies_path` first.

What LiteLLM makes of a path is not known to the gateway. `admitted_path_has_no_alias` says that
this does not matter: a path that any of the three admits is served under itself, up to a trailing
slash, by every server that decodes, merges, resolves or strips in any order, and what is served is
not denied and not of another class of exposure.
-/

set_option autoImplicit false
set_option relaxedAutoImplicit false

namespace Relayna.Passthrough.PathPolicy

open Relayna.Library.PathRewriting
open Relayna.Library.Utf8 (isWhitespace)

/-! ### Texts -/

/-- `str::trim`. -/
def trim (text : List Char) : List Char :=
  (text.dropWhile isWhitespace).rdropWhile isWhitespace

/-- `str::strip_suffix('*')`. -/
def stripStar (text : List Char) : Option (List Char) :=
  if text.getLast? = some '*' then some text.dropLast else none

/-- `str::eq_ignore_ascii_case`. -/
def eqIgnoreAsciiCase (left right : List Char) : Bool :=
  left.map Char.toLower = right.map Char.toLower

/-- The path in front of a query, `path.split('?').next()`. -/
def withoutQuery (path : List Char) : List Char :=
  path.takeWhile (· ≠ '?')

def texts (literals : List String) : List (List Char) :=
  literals.map String.toList

/-! ### Settings -/

inductive LiteLlmSensitiveRouteExposure
  | disabled
  | operatorOnly
  | explicitlyExposed
  | trustedIngress
  deriving DecidableEq

inductive LiteLlmAuthenticationMode
  | gateway
  | litellmBearer
  deriving DecidableEq

/-- `LiteLlmPassthroughSettings`, without its limits on time and size. -/
structure LiteLlmPassthroughSettings where
  authenticationMode : LiteLlmAuthenticationMode
  blockedPaths : List (List Char)
  enabled : Bool
  allowedPaths : List (List Char)
  allowedMethods : List (List Char)
  uiExposure : LiteLlmSensitiveRouteExposure
  adminApiExposure : LiteLlmSensitiveRouteExposure
  deriving DecidableEq

def unambiguousLitellmPath (path : List Char) : Bool :=
  path.head? = some '/' && !(path.contains '%' || path.contains '\\' || path.contains ';') &&
    !decide (['/', '/'].IsInfix path) && !path.any isWhitespace &&
    !(path.splitOn '/').any fun segment ↦ segment = ['.'] || segment = ['.', '.']

def pathMatchesAllowedPattern (path pattern : List Char) : Bool :=
  match stripStar (trim pattern) with
  | some front => front.isPrefixOf path
  | none => path = trim pattern

def isLitellmUiPath (path : List Char) : Bool :=
  path = "/ui".toList || "/ui/".toList.isPrefixOf path

def uiSupportExact : List (List Char) :=
  texts ["/", "/get_image", "/in_product_nudges", "/litellm/.well-known/litellm-ui-config",
    "/login",
    "/logout", "/models", "/user/info", "/v1/models", "/v2/login"]

def uiSupportPrefixes : List (List Char) :=
  texts ["/get/", "/health/", "/litellm-asset-prefix/", "/model/", "/model_group/", "/public/",
    "/schedule/", "/v1/model/"]

def isLitellmUiSupportPath (path : List Char) : Bool :=
  uiSupportExact.contains path || uiSupportPrefixes.any fun front ↦ front.isPrefixOf path

def adminPrefixes : List (List Char) :=
  texts ["/api/", "/audit", "/audit/", "/key/", "/keys/", "/user/", "/team/", "/config/",
    "/config_overrides/", "/credentials", "/credentials/", "/files", "/files/", "/guardrails/",
    "/health", "/health/", "/spend/", "/global/", "/budget/", "/customer/", "/alerting/", "/cache/",
    "/callbacks/", "/cloudzero/", "/email/", "/mcp", "/mcp/", "/mcp-rest/", "/model_hub/",
    "/model_hub_table", "/model_hub_table/", "/organization/", "/policies/", "/project/",
    "/prompts/", "/provider/", "/reload/", "/router/", "/search_tools/", "/sso/", "/tag/",
    "/utils/", "/v2/", "/v1/agents", "/v1/agents/", "/v1/mcp/", "/v1/memory", "/v1/memory/",
    "/v1/tool/", "/v1/workflows/", "/v2/guardrails/", "/v2/key/", "/v2/model/", "/v2/team/",
    "/v2/user/", "/v3/"]

def isLitellmAdminPath (path : List Char) : Bool :=
  adminPrefixes.any fun front ↦ path = trimEndSlashes front || front.isPrefixOf path

namespace LiteLlmPassthroughSettings

/-- Whether a pattern of the block list covers a path, with or without slashes at their ends. -/
def blocks (path pattern : List Char) : Bool :=
  pathMatchesAllowedPattern path pattern ||
    pathMatchesAllowedPattern (trimEndSlashes path) (trimEndSlashes (trim pattern))

/-- `LiteLlmPassthroughSettings::denies_path`. -/
def deniesPath (settings : LiteLlmPassthroughSettings) (path : List Char) : Bool :=
  let path := withoutQuery path
  !unambiguousLitellmPath path || settings.blockedPaths.any (blocks path)

/-- `LiteLlmPassthroughSettings::sensitive_exposure_for_path`. -/
def sensitiveExposureForPath (settings : LiteLlmPassthroughSettings) (path : List Char) :
    Option LiteLlmSensitiveRouteExposure :=
  if isLitellmUiPath path then some settings.uiExposure
  else if isLitellmAdminPath path then some settings.adminApiExposure
  else none

def methodAllowed (settings : LiteLlmPassthroughSettings) (method : List Char) : Bool :=
  settings.allowedMethods.any fun allowed ↦ eqIgnoreAsciiCase allowed method

/-- The path is covered by one of the allowed patterns. -/
def pathAllowed (settings : LiteLlmPassthroughSettings) (path : List Char) : Bool :=
  settings.allowedPaths.any fun allowed ↦ pathMatchesAllowedPattern path allowed

/-- `LiteLlmPassthroughSettings::allows`. -/
def allows (settings : LiteLlmPassthroughSettings) (method path : List Char) : Bool :=
  let path := withoutQuery path
  if !settings.enabled || settings.deniesPath path then false
  else if !settings.methodAllowed method then false
  else if settings.sensitiveExposureForPath path = some .disabled then false
  else settings.pathAllowed path

/-- `LiteLlmPassthroughSettings::trusted_ingress_ui_path_allowed`. -/
def trustedIngressUiPathAllowed (settings : LiteLlmPassthroughSettings)
    (method path : List Char) : Bool :=
  let path := withoutQuery path
  if settings.deniesPath path then false
  else if settings.uiExposure ≠ .trustedIngress || !settings.enabled then false
  else if !settings.methodAllowed method then false
  else if !(isLitellmUiPath path || isLitellmUiSupportPath path) then false
  else settings.pathAllowed path

/-- `LiteLlmPassthroughSettings::trusted_ingress_passthrough_path_allowed`. -/
def trustedIngressPassthroughPathAllowed (settings : LiteLlmPassthroughSettings)
    (method path : List Char) : Bool :=
  let path := withoutQuery path
  if settings.deniesPath path then false
  else if settings.trustedIngressUiPathAllowed method path then true
  else if settings.uiExposure ≠ .trustedIngress ||
      settings.adminApiExposure ≠ .explicitlyExposed || !settings.enabled then false
  else if !settings.methodAllowed method then false
  else if !isLitellmAdminPath path then false
  else settings.pathAllowed path

end LiteLlmPassthroughSettings

/-! ### What is served -/

theorem plain_of_unambiguous {path : List Char} (hpath : unambiguousLitellmPath path = true) :
    path.head? = some '/' ∧ Plain path := by
  simp only [unambiguousLitellmPath, Bool.and_eq_true, Bool.not_eq_true', Bool.or_eq_false_iff,
    decide_eq_true_eq, decide_eq_false_iff_not, List.contains_eq_mem, List.any_eq_false] at hpath
  obtain ⟨⟨⟨⟨hroot, ⟨hpercent, hbackslash⟩, hsemicolon⟩, hslashes⟩, hspace⟩, hdots⟩ := hpath
  refine ⟨hroot, hpercent, hbackslash, hsemicolon, ?_, hslashes, ?_⟩
  · exact fun character hmem ↦ Bool.eq_false_iff.mpr (hspace character hmem)
  · intro segment hmem
    simpa [not_or] using hdots segment hmem

theorem unambiguous_of_plain {path : List Char} (hroot : path.head? = some '/')
    (hplain : Plain path) : unambiguousLitellmPath path = true := by
  simp only [unambiguousLitellmPath, Bool.and_eq_true, Bool.not_eq_true', Bool.or_eq_false_iff,
    decide_eq_true_eq, decide_eq_false_iff_not, List.contains_eq_mem, List.any_eq_false]
  refine ⟨⟨⟨⟨hroot, ⟨hplain.percent, hplain.backslash⟩, hplain.semicolon⟩, hplain.slashes⟩, ?_⟩, ?_⟩
  · exact fun character hmem ↦ Bool.eq_false_iff.mp (hplain.space character hmem)
  · intro segment hmem
    simpa [not_or] using hplain.dots segment hmem

theorem trim_of_plain {path : List Char} (hplain : Plain path) : trim path = path := by
  have hfront : path.dropWhile isWhitespace = path := by
    cases path with
    | nil => rfl
    | cons character rest =>
      exact List.dropWhile_cons_of_neg
        (Bool.eq_false_iff.mp (hplain.space character List.mem_cons_self))
  rw [trim, hfront]
  refine List.rdropWhile_eq_self_iff.mpr fun hne ↦ ?_
  exact Bool.eq_false_iff.mp (hplain.space _ (List.getLast_mem hne))

/-- Assumes: a plain path that ends in a slash. A pattern that covers the path without the slash
covers the path. -/
theorem blocks_of_trim {path : List Char} (hplain : Plain (trimEndSlashes path))
    (hslash : path = trimEndSlashes path ++ ['/']) {pattern : List Char}
    (hblocks : LiteLlmPassthroughSettings.blocks (trimEndSlashes path) pattern = true) :
    LiteLlmPassthroughSettings.blocks path pattern = true := by
  unfold LiteLlmPassthroughSettings.blocks at *
  rw [trimEndSlashes_idem] at hblocks
  rcases Bool.or_eq_true_iff.mp hblocks with hmatch | hmatch
  · unfold pathMatchesAllowedPattern at hmatch ⊢
    cases hstar : stripStar (trim pattern) with
    | some front =>
      rw [hstar] at hmatch
      simp only at hmatch ⊢
      have hfront : front.isPrefixOf path = true := by
        rw [List.isPrefixOf_iff_prefix] at hmatch ⊢
        rw [hslash]
        exact hmatch.trans (List.prefix_append _ _)
      rw [hfront, Bool.true_or]
    | none =>
      rw [hstar] at hmatch
      have hsame : trimEndSlashes path = trim pattern := of_decide_eq_true hmatch
      rw [← hsame, trimEndSlashes_idem, trim_of_plain hplain]
      rw [← hsame] at hstar
      simp [hstar]
  · rw [hmatch, Bool.or_true]

/-- Assumes: a path that is not denied. Nor is any form under which it is served. -/
theorem deniesPath_servedAs (settings : LiteLlmPassthroughSettings) {path served : List Char}
    (hquery : withoutQuery path = path) (hpath : settings.deniesPath path = false)
    (hserved : ServedAs path served) : settings.deniesPath served = false := by
  rcases hserved with rfl | ⟨rfl, hne⟩
  · exact hpath
  · simp only [LiteLlmPassthroughSettings.deniesPath, hquery, Bool.or_eq_false_iff,
      Bool.not_eq_false', List.any_eq_false] at hpath
    obtain ⟨hunambiguous, hblocked⟩ := hpath
    obtain ⟨hroot, hplain⟩ := plain_of_unambiguous hunambiguous
    rcases hplain.trim_cases with hsame | ⟨htrimmed, hslash⟩
    · rw [hsame]
      simp only [LiteLlmPassthroughSettings.deniesPath, hquery, Bool.or_eq_false_iff,
        Bool.not_eq_false', List.any_eq_false]
      exact ⟨hunambiguous, hblocked⟩
    · have hquery' : withoutQuery (trimEndSlashes path) = trimEndSlashes path := by
        refine List.takeWhile_eq_self_iff.mpr fun character hmem ↦ ?_
        rw [hslash] at hquery
        exact List.takeWhile_eq_self_iff.mp hquery character (List.mem_append_left _ hmem)
      have hroot' : (trimEndSlashes path).head? = some '/' := by
        rw [hslash, List.head?_append_of_ne_nil _ hne] at hroot
        exact hroot
      simp only [LiteLlmPassthroughSettings.deniesPath, hquery', Bool.or_eq_false_iff,
        Bool.not_eq_false', List.any_eq_false]
      exact ⟨unambiguous_of_plain hroot' htrimmed,
        fun pattern hmem hblocks ↦ hblocked pattern hmem (blocks_of_trim htrimmed hslash hblocks)⟩

/-! ### The exposure class of what is served -/

/-- Assumes: a path that ends in a slash, and a text that does not. They differ. -/
theorem ne_stem {path stem : List Char} (hslash : path = trimEndSlashes path ++ ['/'])
    (hstem : trimEndSlashes stem = stem) : path ≠ stem := by
  rintro rfl
  rw [hstem] at hslash
  exact absurd (congrArg List.length hslash) (by simp)

/-- Assumes: a path that ends in a slash, and a text that does not. The path begins with the text
exactly when the path without the slash does. -/
theorem prefix_trim_iff {path stem : List Char} (hslash : path = trimEndSlashes path ++ ['/'])
    (hstem : trimEndSlashes stem = stem) : stem <+: trimEndSlashes path ↔ stem <+: path := by
  constructor
  · intro hfront
    rw [hslash]
    exact hfront.trans (List.prefix_append _ _)
  · intro hfront
    rw [hslash] at hfront
    rcases List.prefix_concat_iff.mp hfront with hsame | hbehind
    · exact absurd (hslash.trans hsame.symm) (ne_stem hslash hstem)
    · exact hbehind

/-- Assumes: a path that ends in a slash, and a text that does not. The path is the text or lies
below it exactly when the path without the slash does. -/
theorem below_trim_iff {path stem : List Char} (hslash : path = trimEndSlashes path ++ ['/'])
    (hstem : trimEndSlashes stem = stem) :
    (trimEndSlashes path = stem ∨ stem ++ ['/'] <+: trimEndSlashes path) ↔
      (path = stem ∨ stem ++ ['/'] <+: path) := by
  constructor
  · rintro (hsame | hbelow)
    · rw [hsame] at hslash
      exact .inr (hslash ▸ List.prefix_rfl)
    · rw [hslash]
      exact .inr (hbelow.trans (List.prefix_append _ _))
  · rintro (hsame | hbelow)
    · exact absurd hsame (ne_stem hslash hstem)
    · rw [hslash] at hbelow
      rcases List.prefix_concat_iff.mp hbelow with hsame | hbehind
      · exact .inl (List.append_cancel_right hsame).symm
      · exact .inr hbehind

theorem adminPrefixes_shape : ∀ front ∈ adminPrefixes,
    front = trimEndSlashes front ∨ front = trimEndSlashes front ++ ['/'] := by
  decide

theorem isLitellmAdminPath_trim {path : List Char}
    (hslash : path = trimEndSlashes path ++ ['/']) :
    isLitellmAdminPath (trimEndSlashes path) = isLitellmAdminPath path := by
  unfold isLitellmAdminPath
  rw [Bool.eq_iff_iff, List.any_eq_true, List.any_eq_true]
  refine exists_congr fun front ↦ and_congr_right fun hfront ↦ ?_
  simp only [Bool.or_eq_true, decide_eq_true_eq, List.isPrefixOf_iff_prefix]
  have hstem := trimEndSlashes_idem front
  rcases adminPrefixes_shape front hfront with hshape | hshape
  · rw [← hshape] at hstem ⊢
    rw [prefix_trim_iff hslash hstem]
    refine or_congr_left' fun hnot ↦ iff_of_false ?_ (ne_stem hslash hstem)
    intro hsame
    exact hnot (hsame ▸ ⟨['/'], hslash.symm⟩)
  · have hbelow := below_trim_iff hslash hstem
    rwa [← hshape] at hbelow

theorem isLitellmUiPath_trim {path : List Char} (hslash : path = trimEndSlashes path ++ ['/']) :
    isLitellmUiPath (trimEndSlashes path) = isLitellmUiPath path := by
  unfold isLitellmUiPath
  rw [Bool.eq_iff_iff]
  simp only [Bool.or_eq_true, decide_eq_true_eq, List.isPrefixOf_iff_prefix]
  have hstem : trimEndSlashes "/ui".toList = "/ui".toList := by decide
  exact below_trim_iff hslash hstem

/-- Assumes: a path that is not denied. The forms under which it is served are of its exposure
class. -/
theorem sensitiveExposureForPath_servedAs (settings : LiteLlmPassthroughSettings)
    {path served : List Char} (hplain : Plain path) (hserved : ServedAs path served) :
    settings.sensitiveExposureForPath served = settings.sensitiveExposureForPath path := by
  rcases hserved with rfl | ⟨rfl, -⟩
  · rfl
  · rcases hplain.trim_cases with hsame | ⟨-, hslash⟩
    · rw [hsame]
    · unfold LiteLlmPassthroughSettings.sensitiveExposureForPath
      rw [isLitellmUiPath_trim hslash, isLitellmAdminPath_trim hslash]

/-! ### Admitted paths -/

/-- One of the three admissions. -/
def Admitted (settings : LiteLlmPassthroughSettings) (method path : List Char) : Prop :=
  settings.allows method path = true ∨ settings.trustedIngressUiPathAllowed method path = true ∨
    settings.trustedIngressPassthroughPathAllowed method path = true

instance (settings : LiteLlmPassthroughSettings) (method path : List Char) :
    Decidable (Admitted settings method path) :=
  inferInstanceAs (Decidable (_ ∨ _ ∨ _))

theorem withoutQuery_idem (path : List Char) :
    withoutQuery (withoutQuery path) = withoutQuery path :=
  List.takeWhile_idem

theorem allows_iff (settings : LiteLlmPassthroughSettings) (method path : List Char) :
    settings.allows method path = true ↔
      settings.enabled = true ∧ settings.deniesPath (withoutQuery path) = false ∧
        settings.methodAllowed method = true ∧
        settings.sensitiveExposureForPath (withoutQuery path) ≠ some .disabled ∧
        settings.pathAllowed (withoutQuery path) = true := by
  simp [LiteLlmPassthroughSettings.allows, and_assoc]

theorem trustedIngressUiPathAllowed_iff (settings : LiteLlmPassthroughSettings)
    (method path : List Char) :
    settings.trustedIngressUiPathAllowed method path = true ↔
      settings.deniesPath (withoutQuery path) = false ∧ settings.uiExposure = .trustedIngress ∧
        settings.enabled = true ∧ settings.methodAllowed method = true ∧
        (isLitellmUiPath (withoutQuery path) = true ∨
          isLitellmUiSupportPath (withoutQuery path) = true) ∧
        settings.pathAllowed (withoutQuery path) = true := by
  simp only [LiteLlmPassthroughSettings.trustedIngressUiPathAllowed]
  cases hui : isLitellmUiPath (withoutQuery path) <;> simp [and_assoc]

theorem trustedIngressPassthroughPathAllowed_iff (settings : LiteLlmPassthroughSettings)
    (method path : List Char) :
    settings.trustedIngressPassthroughPathAllowed method path = true ↔
      settings.trustedIngressUiPathAllowed method path = true ∨
        settings.deniesPath (withoutQuery path) = false ∧ settings.uiExposure = .trustedIngress ∧
          settings.adminApiExposure = .explicitlyExposed ∧ settings.enabled = true ∧
          settings.methodAllowed method = true ∧
          isLitellmAdminPath (withoutQuery path) = true ∧
          settings.pathAllowed (withoutQuery path) = true := by
  have hui : settings.trustedIngressUiPathAllowed method (withoutQuery path) =
      settings.trustedIngressUiPathAllowed method path := by
    simp only [LiteLlmPassthroughSettings.trustedIngressUiPathAllowed, withoutQuery_idem]
  have hdenied := (trustedIngressUiPathAllowed_iff settings method path).mp
  unfold LiteLlmPassthroughSettings.trustedIngressPassthroughPathAllowed
  simp only [hui]
  cases hpath : settings.deniesPath (withoutQuery path) with
  | true =>
    have hnot : settings.trustedIngressUiPathAllowed method path = false :=
      Bool.eq_false_iff.mpr fun hallowed ↦ by simp [(hdenied hallowed).1] at hpath
    simp [hnot]
  | false =>
    cases settings.trustedIngressUiPathAllowed method path
    · simp [and_assoc]
    · simp

/-- What every admission has checked about the path in front of the query. -/
theorem Admitted.checks {settings : LiteLlmPassthroughSettings} {method path : List Char}
    (hadmitted : Admitted settings method path) :
    settings.deniesPath (withoutQuery path) = false ∧ settings.enabled = true ∧
      settings.methodAllowed method = true ∧ settings.pathAllowed (withoutQuery path) = true := by
  rcases hadmitted with hallows | hui | hpassthrough
  · obtain ⟨henabled, hdenied, hmethod, -, hpath⟩ := (allows_iff _ _ _).mp hallows
    exact ⟨hdenied, henabled, hmethod, hpath⟩
  · obtain ⟨hdenied, -, henabled, hmethod, -, hpath⟩ :=
      (trustedIngressUiPathAllowed_iff _ _ _).mp hui
    exact ⟨hdenied, henabled, hmethod, hpath⟩
  · rcases (trustedIngressPassthroughPathAllowed_iff _ _ _).mp hpassthrough with hui | hadmin
    · obtain ⟨hdenied, -, henabled, hmethod, -, hpath⟩ :=
        (trustedIngressUiPathAllowed_iff _ _ _).mp hui
      exact ⟨hdenied, henabled, hmethod, hpath⟩
    · obtain ⟨hdenied, -, -, henabled, hmethod, -, hpath⟩ := hadmin
      exact ⟨hdenied, henabled, hmethod, hpath⟩

/-- Assumes: a path that one of the three admissions lets through. Whatever LiteLLM does to the path
before it routes, in whatever order and however often, it serves the path that was checked, up to a
trailing slash, and this is neither denied nor of another class of exposure than the path that was
checked: no escape, dot segment or doubled slash leads around a block or into the UI or the admin
API. -/
theorem admitted_path_has_no_alias (settings : LiteLlmPassthroughSettings) (method path : List Char)
    (hadmitted : Admitted settings method path) (rewritings : List Rewriting) :
    ServedAs (withoutQuery path) (rewriteAll rewritings (withoutQuery path)) ∧
      settings.deniesPath (rewriteAll rewritings (withoutQuery path)) = false ∧
      settings.sensitiveExposureForPath (rewriteAll rewritings (withoutQuery path)) =
        settings.sensitiveExposureForPath (withoutQuery path) ∧
      settings.enabled = true ∧ settings.methodAllowed method = true ∧
      settings.pathAllowed (withoutQuery path) = true := by
  obtain ⟨hdenied, hchecks⟩ := hadmitted.checks
  have hunambiguous : unambiguousLitellmPath (withoutQuery path) = true := by
    simp only [LiteLlmPassthroughSettings.deniesPath, withoutQuery_idem, Bool.or_eq_false_iff,
      Bool.not_eq_false'] at hdenied
    exact hdenied.1
  have hplain := (plain_of_unambiguous hunambiguous).2
  have hserved := (rewriteAll_of_plain rewritings hplain).2
  exact ⟨hserved, deniesPath_servedAs settings (withoutQuery_idem path) hdenied hserved,
    sensitiveExposureForPath_servedAs settings hplain hserved, hchecks⟩

/-- Passthrough of `/v1/*`, with `/v1/files` blocked. -/
def sample : LiteLlmPassthroughSettings :=
  ⟨.gateway, texts ["/v1/files"], true, texts ["/v1/*"], texts ["get"], .disabled, .disabled⟩

theorem admitted_path_has_no_alias_sample :
    ServedAs "/v1/models/".toList
      (rewriteAll [.percent, .dotSegments, .trailingSlash] "/v1/models/".toList) :=
  (admitted_path_has_no_alias sample "GET".toList "/v1/models/?limit=1".toList (by decide)
    [.percent, .dotSegments, .trailingSlash]).1

/-- A path with an escape is not admitted: decoded, it would be the blocked one. -/
example : ¬ Admitted sample "GET".toList "/v1/%66iles".toList ∧
    rewriteAll [.percent] "/v1/%66iles".toList = "/v1/files".toList := by
  decide

end Relayna.Passthrough.PathPolicy
