import MaxApi.Lib.Dict
import MaxApi.Lib.Text
import Mathlib.Data.List.Infix

/-! # Manifests of task plugins

The manifest is the host-owned part of a plugin package: which models it serves, on which routes,
and which usage it reports.  It is only data; `validateManifest` says which data are accepted. -/

namespace MaxApi.TaskPlugin

/-- What validation reads of a parsed URL. -/
structure URL where
  scheme : String
  host : String
  hostname : String
  hasUser : Bool
  path : String
  rawQuery : String
  fragment : String
  deriving DecidableEq

/-- The functions of `net/url` and `strings.ToLower`. -/
structure TextLibrary where
  parse : String → Option URL
  /-- The path of `url.ParseRequestURI`. -/
  parseRequestURI : String → Option String
  toLower : String → String

structure ProtocolClaim where
  name : String
  supports : List String
  bare : Bool
  deriving DecidableEq

structure Route where
  method : String
  path : String
  type : String
  decode : String
  render : String
  taskIDParam : String
  models : List String
  retainResult : Option Bool
  deriving DecidableEq

structure UsageField where
  type : String
  unit : String
  enum : List String
  deriving DecidableEq

structure UsageProfile where
  models : List String
  schema : Dict UsageField
  deriving DecidableEq

structure Manifest where
  apiVersion : ℤ
  key : String
  name : String
  version : String
  models : List String
  protocols : List ProtocolClaim
  routes : List Route
  baseURL : String
  allowedHosts : List String
  upstreams : List String
  usageSchema : Dict UsageField
  usageProfiles : List UsageProfile
  deriving DecidableEq

def APIVersion : ℤ := 1

/-! ### Patterns -/

def isLower (c : Char) : Bool := 'a' ≤ c && c ≤ 'z'

def isDigit (c : Char) : Bool := '0' ≤ c && c ≤ '9'

def isAlpha (c : Char) : Bool := isLower c || ('A' ≤ c && c ≤ 'Z')

/-- `^[a-z0-9][a-z0-9_-]{0,29}$`. -/
def manifestKeyPattern (s : String) : Bool :=
  match s.toList with
  | [] => false
  | c :: l => (isLower c || isDigit c) && decide (l.length ≤ 29) &&
      l.all fun c => isLower c || isDigit c || c == '_' || c == '-'

/-- What follows one or more characters of a class. -/
def afterMany (p : Char → Bool) (l : List Char) : Option (List Char) :=
  if l.takeWhile p = [] then none else some (l.dropWhile p)

/-- What follows the character `c`. -/
def afterChar (c : Char) (l : List Char) : Option (List Char) :=
  if l.head? = some c then some l.tail else none

/-- What follows an optional suffix that `c` introduces. -/
def afterSuffix (c : Char) (l : List Char) : List Char :=
  ((afterChar c l).bind (afterMany fun d => isDigit d || isAlpha d || d == '.' || d == '-')).getD l

/-- Three numbers with dots between them, an optional `-` suffix and an optional `+` suffix. -/
def semverPattern (s : String) : Bool :=
  let numbers := do
    let l ← afterMany isDigit s.toList
    let l ← afterChar '.' l
    let l ← afterMany isDigit l
    let l ← afterChar '.' l
    afterMany isDigit l
  match numbers with
  | none => false
  | some l => (afterSuffix '+' (afterSuffix '-' l)).isEmpty

/-- `^[A-Za-z_$][A-Za-z0-9_$]*$`. -/
def identifierPattern (s : String) : Bool :=
  match s.toList with
  | [] => false
  | c :: l => (isAlpha c || c == '_' || c == '$') &&
      l.all fun c => isAlpha c || isDigit c || c == '_' || c == '$'

def allowedRouteMethods : List String := ["GET", "POST", "PUT", "PATCH", "DELETE"]

def allowedRouteTypes : List String := ["submit", "query", "dynamic"]

def allowedProtocolNames : List String := ["openai_responses", "openai_video", "openai_image"]

def allowedProtocolModes : List String := ["stream", "sync", "background"]

def allowedUsageTypes : List String := ["number", "boolean", "enum"]

def allowedUsageUnits : List String := ["second", "count", "token", "credit"]

/-! ### Validation

Every function says whether its source returns no error. -/

variable (lib : TextLibrary)

def validateModels (models : List String) : Bool :=
  decide (models ≠ []) && models.all (fun model => model != "" && model == Text.trimSpace model) &&
    decide models.Nodup

def validateProtocol (protocol : ProtocolClaim) : Bool :=
  allowedProtocolNames.contains protocol.name &&
    if protocol.bare then protocol.name != "openai_responses" && protocol.supports.isEmpty
    else (protocol.name != "openai_responses" || !protocol.supports.isEmpty) &&
      protocol.supports.all (allowedProtocolModes.contains ·) && decide protocol.supports.Nodup

def validateProtocols (protocols : List ProtocolClaim) : Bool :=
  protocols.all validateProtocol && decide (protocols.map ProtocolClaim.name).Nodup

/-- `strings.HasPrefix(part, ":")`. -/
def isParameter (part : String) : Bool := Text.hasPrefix part ":"

def routeHasParameter (path parameter : String) : Bool :=
  (Text.split path '/').any fun part => isParameter part && Text.trimPrefix part ":" == parameter

/-- One part of a route's shape. -/
def partShape (part : String) : Option String :=
  if isParameter part then
    if identifierPattern (Text.trimPrefix part ":") then some ":param" else none
  else if part.toList.contains '*' then none else some part

/-- The path with its parameters made anonymous; two routes of one shape match the same requests. -/
def routeShape (rawPath : String) : Option String := do
  guard (Text.hasPrefix rawPath "/" && !rawPath.toList.any fun c => c == '?' || c == '#')
  let path ← lib.parseRequestURI rawPath
  guard (path == rawPath && !decide ("//".toList <:+: rawPath.toList))
  let parts ← (Text.split rawPath '/').mapM partShape
  pure ("/".intercalate parts)

def routeMethod (method : String) : String := Text.toUpper (Text.trimSpace method)

/-- The text by which routes conflict. -/
def routeKey (route : Route) : String :=
  routeMethod route.method ++ " " ++ (routeShape lib route.path).getD ""

def validateHooks (route : Route) : Bool :=
  if route.type = "query" then
    route.decode == "" && identifierPattern route.render &&
      (route.taskIDParam == "" || routeHasParameter route.path route.taskIDParam)
  else identifierPattern route.decode && identifierPattern route.render

def validateRoute (models : List String) (route : Route) : Bool :=
  allowedRouteMethods.contains (routeMethod route.method) &&
    allowedRouteTypes.contains route.type &&
    (routeShape lib route.path).isSome && validateHooks route &&
    route.models.all (models.contains ·) && decide route.models.Nodup

def validateRoutes (routes : List Route) (models : List String) : Bool :=
  routes.all (validateRoute lib models) && decide (routes.map (routeKey lib)).Nodup

def isASCII (s : String) : Bool := s.toList.all fun c => decide (c.val ≤ 127)

def validateHTTPBaseURL (rawURL : String) : Bool :=
  rawURL == "" ||
    match lib.parse rawURL with
    | none => false
    | some url => (url.scheme == "http" || url.scheme == "https") && url.host != "" &&
        !url.hasUser && url.rawQuery == "" && url.fragment == "" && url.path == "" &&
        isASCII url.host

/-- `unicode.IsControl`. -/
def isControl (c : Char) : Bool := decide (c.val < 0x20) || (0x7F ≤ c.val && c.val < 0xA0)

def validateAllowedHost (host : String) : Bool :=
  host != "" &&
    !(host.toList.any fun c => c == '\\' || c == '/' || isControl c || Text.isSpace c) &&
    match lib.parse ("//" ++ host) with
    | none => false
    | some url => url.host == host && url.hostname != "" && !url.hasUser && url.path == "" &&
        url.rawQuery == "" && url.fragment == ""

def validateAllowedHosts (hosts : List String) : Bool :=
  hosts.all (validateAllowedHost lib) && decide (hosts.map lib.toLower).Nodup

def validateUpstreams (upstreams : List String) : Bool :=
  upstreams.all (fun u => u == "vendor" || u == "new_api") && decide upstreams.Nodup

def validateUsageField (name : String) (field : UsageField) : Bool :=
  !Text.isBlank name && allowedUsageTypes.contains field.type &&
    if field.type = "number" then allowedUsageUnits.contains field.unit && field.enum.isEmpty
    else if field.type = "enum" then
      field.unit == "" && !field.enum.isEmpty && field.enum.all (!Text.isBlank ·) &&
        decide field.enum.Nodup
    else field.unit == "" && field.enum.isEmpty

def validateUsageSchema (schema : Dict UsageField) : Bool :=
  schema.entries.all fun e => validateUsageField e.1 e.2

def validateUsageProfiles (profiles : List UsageProfile) (models : List String) : Bool :=
  profiles.all (fun p => !p.models.isEmpty && !p.schema.entries.isEmpty &&
      validateUsageSchema p.schema && p.models.all (models.contains ·)) &&
    decide (profiles.flatMap UsageProfile.models).Nodup &&
    (profiles.isEmpty ||
      decide ((profiles.flatMap UsageProfile.models).length = models.length))

def validateManifest (m : Manifest) : Bool :=
  m.apiVersion == APIVersion && manifestKeyPattern m.key && !Text.isBlank m.name &&
    semverPattern m.version && validateModels m.models && validateProtocols m.protocols &&
    validateRoutes lib m.routes m.models && validateHTTPBaseURL lib m.baseURL &&
    validateAllowedHosts lib m.allowedHosts && validateUpstreams m.upstreams &&
    validateUsageSchema m.usageSchema && validateUsageProfiles m.usageProfiles m.models

variable {lib}

/-- The routes of an accepted manifest do not conflict with one another. -/
theorem routes_of_validateManifest {m : Manifest} (h : validateManifest lib m) :
    (m.routes.map (routeKey lib)).Nodup := by
  unfold validateManifest validateRoutes at h
  simp only [Bool.and_eq_true, decide_eq_true_iff] at h
  exact h.1.1.1.1.1.2.2

end MaxApi.TaskPlugin
