/-
This file translates the handlers of `EagServer` that create and update a route, and what they
ask of the route collection.

A handler is a function of the stored routes, the caller, the namespace header and the parsed
body. What it asks of other collections is in its surroundings: whether an application or a
bucket is there. What is stored is refused as a whole where a unique index refuses it.
-/

import Euclid.Eag.Route
import Euclid.Eqs.Server

namespace Euclid.Eag

open Collection List Except
open Bus (Json)
open Eqs (Caller)

/-! ### Surroundings and answers -/

/-- What is known of a deployed application: where it runs, and what it owned after its declaration
was last applied. -/
structure Application where
  region : String
  infrastructure : List String

/-- What a handler reads beside the routes. -/
structure Surroundings where
  region : String
  serialize : Json → String
  findApplication : String → String → String → Option Application
  bucketExists : String → Bool

def Surroundings.applicationExists (outside : Surroundings)
    (accountId nameSpace applicationId : String) : Bool :=
  (outside.findApplication accountId nameSpace applicationId).isSome

inductive Status where
  | badRequest
  | notFound
  | conflict
  | forbidden
  | internalServerError

inductive Response (Payload : Type) where
  | unauthorized
  | refused (status : Status) (msg : String)
  | success (payload : Payload)

abbrev Refusal := Status × String

def refuseIf (condition : Prop) [Decidable condition] (status : Status) (msg : String) :
    Except Refusal Unit :=
  if condition then .error (status, msg) else .ok ()

def orRefuse {Value : Type} (value : Option Value) (status : Status) (msg : String) :
    Except Refusal Value :=
  match value with
  | some value => .ok value
  | none => .error (status, msg)

/-- `createErn`, for a resource of a namespace. -/
def createErn (region service accountId nameSpace resourceId : String) : String :=
  "ern:" ++ service ++ ":" ++ region ++ ":" ++ accountId ++ ":" ++ nameSpace ++ ":" ++ resourceId

/-! ### Fields of a body -/

abbrev Fields := List (String × Json)

def stringField (fields : Fields) (key fallback : String) : String :=
  match Json.ifContains key fields with
  | some (.string text) => text
  | _ => fallback

def int64Field (fields : Fields) (key : String) (fallback : Int) : Int :=
  match Json.ifContains key fields with
  | some (.int64 value) => value
  | _ => fallback

def contains (fields : Fields) (key : String) : Bool := (Json.ifContains key fields).isSome

def stringsOf : List Json → List String
  | [] => []
  | .string text :: rest => text :: stringsOf rest
  | _ :: rest => stringsOf rest

def kDefaultPartSize : Int := 5 * 1024 * 1024

/-- `kMaxRouteTimeout`, in seconds. -/
def kMaxRouteTimeout : Int := 3600

/-- `timeoutField`: nothing when it is not named. -/
def timeoutField (fields : Fields) : Except Refusal (Option Int) :=
  let refusal : Refusal := (.badRequest, "timeout must be a whole number of seconds from 0 to " ++
    toString kMaxRouteTimeout ++ ", 0 being the gateway's default")
  match Json.ifContains "timeout" fields with
  | none => .ok none
  | some (.int64 value) =>
    if value < 0 ∨ kMaxRouteTimeout < value then .error refusal else .ok (some value)
  | some _ => .error refusal

def kModuleTargets : List String :=
  ["eam", "esm", "eqs", "ens", "emm", "emo", "ekm", "ess", "ets", "eap", "ees", "eag"]

def kKnownMethods : List String := ["GET", "HEAD", "POST", "PUT", "PATCH", "DELETE", "OPTIONS"]

/-- The loop of `readMethods`: the methods in upper case, each once. -/
def readMethodsFrom (serialize : Json → String) (methods : List String) :
    List Json → Except Refusal (List String)
  | [] => .ok methods
  | .string text :: rest =>
    let method := text.toUpper
    if method ∈ kKnownMethods then
      readMethodsFrom serialize (if method ∈ methods then methods else methods ++ [method]) rest
    else .error (.badRequest, "Not an HTTP method: " ++ method)
  | entry :: _ => .error (.badRequest, "Not an HTTP method: " ++ serialize entry)

/-- `readMethods`: anything but an array names none, which is all. -/
def readMethods (serialize : Json → String) (fields : Fields) : Except Refusal (List String) :=
  match Json.ifContains "methods" fields with
  | some (.array entries) => readMethodsFrom serialize [] entries
  | _ => .ok []

/-! ### The collection -/

section

variable (routes : List Route)

/-- Both unique indexes of the collection, for a route written under its own key. -/
def Route.isRefusedBy (route : Route) : Bool :=
  routes.any fun other => decide (other.key ≠ route.key) && decide (other.ern = route.ern)

/-- `upsertRoute`: nothing where it could not be stored. -/
def upsertRoute (route : Route) : Option Route × List Route :=
  if route.isRefusedBy routes then (none, routes)
  else if routes.any fun stored => stored.key = route.key then
    (some route, updateFirst (fun stored => stored.key = route.key) (fun _ => route) routes)
  else (some route, routes ++ [route])

def findRouteByRouteId (accountId nameSpace routeId : String) : Option Route :=
  routes.find? fun route => route.key = (accountId, nameSpace, routeId)

def routeExists (accountId nameSpace routeId : String) : Bool :=
  routes.any fun route => route.key = (accountId, nameSpace, routeId)

/-- `listAllRoutes`: those whose path starts with a text. -/
def listAllRoutes (start : String) : List Route :=
  routes.filter fun route => start.toList.isPrefixOf route.path.toList

def deleteRoute (accountId nameSpace routeId : String) : List Route :=
  routes.filter fun route => route.key ≠ (accountId, nameSpace, routeId)

end

/-- Two namespaces have a listener that carries routes of both. -/
def meets (first second : String) : Bool :=
  decide (first = "") || decide (second = "") || decide (first = second)

/-- `pathTaken`: the route that answers already for a path and one of some methods. -/
def pathTaken (routes : List Route) (path : String) (methods : List String)
    (nameSpace routeId : String) : Option String :=
  ((listAllRoutes routes path).find? fun route =>
    decide (route.path = path) && decide (route.routeId ≠ routeId) &&
      meets nameSpace route.nameSpace && overlap methods route.methods).map Route.routeId

/-! ### Creating a route -/

def newUpload (fields : Fields) (type : RouteType) (bucket : String) : Except Refusal UploadSpec :=
  match type with
  | .proxy => .ok .blank
  | .upload => do
    let spec : UploadSpec := {
      bucket := bucket
      keyPrefix := stringField fields "keyPrefix" ""
      maxBytes := int64Field fields "maxBytes" 0
      partSize := int64Field fields "partSize" kDefaultPartSize
      contentTypes := match Json.ifContains "contentTypes" fields with
        | some (.array entries) => stringsOf entries
        | _ => [] }
    refuseIf (spec.partSize ≤ 0) .badRequest "partSize must be greater than zero"
    refuseIf (spec.maxBytes < 0) .badRequest "maxBytes cannot be negative"
    pure spec

/-- What a new route names: a bucket, or an application or a module, as its type has it. -/
def checkTarget (type : RouteType) (bucket applicationId moduleTarget moduleAction : String) :
    Except Refusal Unit :=
  match type with
  | .upload => do
    refuseIf (applicationId ≠ "" ∨ moduleTarget ≠ "") .badRequest
      "An upload route names a bucket, not an application or a euclid module"
    refuseIf (bucket = "") .badRequest "bucket is required for an upload route"
  | .proxy => do
    refuseIf (applicationId = "" ↔ moduleTarget = "") .badRequest
      "Name either an application or a euclid module, not both and not neither"
    refuseIf (bucket ≠ "") .badRequest "bucket is only meaningful on an upload route"
    refuseIf (moduleTarget ≠ "" ∧ moduleTarget ∉ kModuleTargets) .badRequest
      ("Not a euclid module: " ++ moduleTarget)
    refuseIf (moduleTarget ≠ "" ∧ moduleAction = "") .badRequest
      "moduleAction is required when a module is named"

def isPath (path : String) : Bool := path.toList.head? = some '/'

/-- What `handleCreateRoute` stores, or why it does not. -/
def newRoute (outside : Surroundings) (routes : List Route) (user : Caller) (header : String)
    (fields : Fields) : Except Refusal Route := do
  let routeId := stringField fields "routeId" ""
  let path := stringField fields "path" ""
  let applicationId := stringField fields "applicationId" ""
  let moduleTarget := stringField fields "moduleTarget" ""
  let moduleAction := stringField fields "moduleAction" ""
  let bucket := stringField fields "bucket" ""
  refuseIf (routeId = "") .badRequest "routeId is required"
  let type ← orRefuse (routeTypeFromString (stringField fields "type" "PROXY")) .badRequest
    "type must be \"PROXY\" or \"UPLOAD\""
  checkTarget type bucket applicationId moduleTarget moduleAction
  refuseIf (¬isPath path) .badRequest "path is required and must start with '/'"
  let methods ← readMethods outside.serialize fields
  let nameSpace := stringField fields "namespace" header
  refuseIf (routeExists routes user.accountId nameSpace routeId) .conflict
    ("Route exists already, routeId: " ++ routeId)
  let taken := pathTaken routes path methods nameSpace routeId
  refuseIf (taken.isSome) .conflict
    ("Path and method are already routed by routeId: " ++ taken.getD "")
  refuseIf (applicationId ≠ "" ∧
      ¬outside.applicationExists user.accountId nameSpace applicationId) .notFound
    ("Application not found, applicationId: " ++ applicationId)
  refuseIf (bucket ≠ "" ∧ ¬outside.bucketExists bucket) .notFound
    ("Bucket not found, ern: " ++ bucket)
  let upload ← newUpload fields type bucket
  let authentication ← orRefuse
    (routeAuthenticationFromString (stringField fields "authentication" "NONE")) .badRequest
    "authentication must be \"NONE\" or \"EUCLID\""
  refuseIf (type = .upload ∧ authentication = .none) .badRequest
    "An upload route must set authentication to \"EUCLID\" or \"BASIC\""
  let timeout ← timeoutField fields
  pure {
    routeId := routeId
    ern := createErn outside.region "eag" user.accountId nameSpace ("route:" ++ routeId)
    accountId := user.accountId
    region := stringField fields "region" user.region
    nameSpace := nameSpace
    path := path
    type := type
    upload := upload
    applicationId := applicationId
    moduleTarget := moduleTarget
    moduleAction := moduleAction
    methods := methods
    authentication := authentication
    timeout := timeout.getD 0
    active := match Json.ifContains "active" fields with
      | some (.bool active) => active
      | _ => true }

/-- `requireAdmin`, and a body that is an object. -/
def administering (caller : Option Caller) (administrator : Bool) (body : Json)
    (handler : Caller → Fields → Response Route × List Route) (routes : List Route) :
    Response Route × List Route :=
  match caller with
  | none => (.unauthorized, routes)
  | some user =>
    if administrator then
      match body with
      | .object fields => handler user fields
      | _ => (.refused .badRequest "Expected a JSON object body", routes)
    else (.refused .forbidden "Administrator privileges required", routes)

/-- Store what a handler has come to. -/
def storing (routes : List Route) (came : Except Refusal Route) : Response Route × List Route :=
  match came with
  | .error (status, msg) => (.refused status msg, routes)
  | .ok route =>
    match upsertRoute routes route with
    | (none, after) =>
      (.refused .internalServerError
        ("Route could not be stored, routeId: " ++ route.routeId), after)
    | (some saved, after) => (.success saved, after)

def handleCreateRoute (outside : Surroundings) (caller : Option Caller) (administrator : Bool)
    (header : String) (body : Json) (routes : List Route) : Response Route × List Route :=
  administering caller administrator body
    (fun user fields => storing routes (newRoute outside routes user header fields)) routes

/-! ### Updating a route -/

/-- What is read of a field that is named, or what was there. -/
def orKeep {Value : Type} (named : Bool) (read : Except Refusal Value) (before : Value) :
    Except Refusal Value :=
  if named then read else .ok before

/-- The methods and the path a route will have, where they are named. -/
def withPath (outside : Surroundings) (fields : Fields) (route : Route) : Except Refusal Route := do
  let methods ← orKeep (contains fields "methods") (readMethods outside.serialize fields)
    route.methods
  let path := stringField fields "path" ""
  refuseIf (contains fields "path" ∧ ¬isPath path) .badRequest "path must start with '/'"
  pure { route with
    methods := methods
    path := if contains fields "path" then path else route.path }

/-- The application or the module a route will reach, where one is named. -/
def withTarget (outside : Surroundings) (fields : Fields) (route : Route) :
    Except Refusal Route := do
  let applicationId := stringField fields "applicationId" ""
  refuseIf (contains fields "applicationId" ∧
      ¬outside.applicationExists route.accountId route.nameSpace applicationId) .notFound
    ("Application not found, applicationId: " ++ applicationId)
  let route := if contains fields "applicationId" then
      { route with applicationId := applicationId, moduleTarget := "", moduleAction := "" }
    else route
  let moduleTarget := stringField fields "moduleTarget" ""
  refuseIf (contains fields "moduleTarget" ∧ moduleTarget ∉ kModuleTargets) .badRequest
    ("Not a euclid module: " ++ moduleTarget)
  let route := if contains fields "moduleTarget" then
      { route with moduleTarget := moduleTarget, applicationId := "" }
    else route
  let route := if contains fields "moduleAction" then
      { route with moduleAction := stringField fields "moduleAction" "" }
    else route
  refuseIf (route.moduleTarget ≠ "" ∧ route.moduleAction = "") .badRequest
    "moduleAction is required when a module is named"
  pure route

/-- The scope, the authentication and the type a route will have, where they are named. -/
def withKind (fields : Fields) (route : Route) : Except Refusal Route := do
  let authentication ← orKeep (contains fields "authentication")
    (orRefuse (routeAuthenticationFromString (stringField fields "authentication" "")) .badRequest
      "authentication must be \"NONE\" or \"EUCLID\"") route.authentication
  let type ← orKeep (contains fields "type")
    (orRefuse (routeTypeFromString (stringField fields "type" "")) .badRequest
      "type must be \"PROXY\" or \"UPLOAD\"") route.type
  pure { route with
    region := if contains fields "region" then stringField fields "region" "" else route.region
    nameSpace := if contains fields "namespace" then stringField fields "namespace" ""
      else route.nameSpace
    authentication := authentication
    type := type }

/-- The upload part a route will have, where any of it is named. -/
def withUpload (outside : Surroundings) (fields : Fields) (route : Route) :
    Except Refusal Route := do
  let bucket := stringField fields "bucket" ""
  refuseIf (contains fields "bucket" ∧ bucket ≠ "" ∧ ¬outside.bucketExists bucket) .notFound
    ("Bucket not found, ern: " ++ bucket)
  pure { route with
    upload := {
      bucket := if contains fields "bucket" then bucket else route.upload.bucket
      keyPrefix := if contains fields "keyPrefix" then stringField fields "keyPrefix" ""
        else route.upload.keyPrefix
      maxBytes := if contains fields "maxBytes" then int64Field fields "maxBytes" 0
        else route.upload.maxBytes
      partSize := if contains fields "partSize" then int64Field fields "partSize" kDefaultPartSize
        else route.upload.partSize
      contentTypes := match Json.ifContains "contentTypes" fields with
        | some (.array entries) => stringsOf entries
        | _ => route.upload.contentTypes } }

/-- The check at the end of an update, of the route it produces. -/
def checkCoherent (route : Route) : Except Refusal Route :=
  match route.type with
  | .upload => do
    refuseIf (route.applicationId ≠ "" ∨ route.moduleTarget ≠ "") .badRequest
      "An upload route names a bucket, not an application or a euclid module"
    refuseIf (route.upload.bucket = "") .badRequest "bucket is required for an upload route"
    refuseIf (route.authentication = .none) .badRequest
      "An upload route must set authentication to \"EUCLID\" or \"BASIC\""
    let partSize := if route.upload.partSize ≤ 0 then kDefaultPartSize else route.upload.partSize
    refuseIf (route.upload.maxBytes < 0) .badRequest "maxBytes cannot be negative"
    pure { route with upload := { route.upload with partSize := partSize } }
  | .proxy => do
    refuseIf (route.applicationId = "" ∧ route.moduleTarget = "") .badRequest
      "Name either an application or a euclid module, not both and not neither"
    pure route

/-- What `handleUpdateRoute` stores, or why it does not. -/
def updatedRoute (outside : Surroundings) (routes : List Route) (user : Caller)
    (header : String) (fields : Fields) : Except Refusal Route := do
  let routeId := stringField fields "routeId" ""
  refuseIf (routeId = "") .badRequest "routeId is required"
  let route ← orRefuse (findRouteByRouteId routes user.accountId header routeId) .notFound
    ("Route not found, routeId: " ++ routeId)
  let route ← withPath outside fields route
  let taken := pathTaken routes route.path route.methods route.nameSpace routeId
  refuseIf (taken.isSome) .conflict
    ("Path and method are already routed by routeId: " ++ taken.getD "")
  let route ← withTarget outside fields route
  let route ← withKind fields route
  let route ← withUpload outside fields route
  let route ← checkCoherent route
  let timeout ← timeoutField fields
  pure { route with
    timeout := timeout.getD route.timeout
    active := match Json.ifContains "active" fields with
      | some (.bool active) => active
      | _ => route.active }

def handleUpdateRoute (outside : Surroundings) (caller : Option Caller) (administrator : Bool)
    (header : String) (body : Json) (routes : List Route) : Response Route × List Route :=
  administering caller administrator body
    (fun user fields => storing routes (updatedRoute outside routes user header fields)) routes

/-! ### What was checked of a route that is stored -/

variable {found : Route}

section Checked

variable {Value Result : Type}

theorem bind_eq_ok {first : Except Refusal Value} {next : Value → Except Refusal Result}
    {result : Result} : (first >>= next) = .ok result ↔ ∃ value, first = .ok value ∧
      next value = .ok result := by
  cases first with
  | ok value => simp [Bind.bind, Except.bind]
  | error refusal => simp [Bind.bind, Except.bind]

variable {status : Status}

theorem refuseIf_eq_ok {condition : Prop} [Decidable condition]
    {msg : String} : refuseIf condition status msg = .ok () ↔ ¬condition := by
  unfold refuseIf
  split <;> simp_all

theorem orRefuse_eq_ok {value : Option Value} {msg : String}
    {found : Value} : orRefuse value status msg = .ok found ↔ value = some found := by
  cases value <;> simp [orRefuse]

theorem orKeep_eq_ok {named : Bool} {read : Except Refusal Value} {before after : Value} :
    orKeep named read before = .ok after ↔
      (named ∧ read = .ok after) ∨ (¬named ∧ before = after) := by
  cases named <;> simp [orKeep]

theorem exists_unit {holds : Unit → Prop} : (∃ value, holds value) ↔ holds () :=
  ⟨fun ⟨_, own⟩ => own, fun own => ⟨(), own⟩⟩

variable {outside : Surroundings} {routes : List Route} {user : Caller} {header : String}
variable {fields : Fields} {route : Route}

/-- What a create stores has been checked. -/
structure NewRoute (outside : Surroundings) (routes : List Route) (user : Caller)
    (header : String) (fields : Fields) (route : Route) : Prop where
  accountId : route.accountId = user.accountId
  routeId : route.routeId = stringField fields "routeId" ""
  nameSpace : route.nameSpace = stringField fields "namespace" header
  path : route.path = stringField fields "path" ""
  isPath : isPath route.path
  methods : readMethods outside.serialize fields = .ok route.methods
  untaken : pathTaken routes route.path route.methods route.nameSpace route.routeId = none
  applicationId : route.applicationId = stringField fields "applicationId" ""
  target : checkTarget route.type (stringField fields "bucket" "") route.applicationId
    route.moduleTarget route.moduleAction = .ok ()
  application : route.applicationId ≠ "" →
    outside.applicationExists route.accountId route.nameSpace route.applicationId
  upload : newUpload fields route.type (stringField fields "bucket" "") = .ok route.upload
  authentication : ¬(route.type = .upload ∧ route.authentication = .none)

theorem newRoute_ok (came : newRoute outside routes user header fields = .ok route) :
    NewRoute outside routes user header fields route := by
  unfold newRoute at came
  simp only [bind_eq_ok, exists_unit, refuseIf_eq_ok, orRefuse_eq_ok] at came
  obtain ⟨_, type, _, target, isPath, methods, read, _, untaken, app, _, upload, spec,
    authentication, _, protected_, timeout, _, stored⟩ := came
  obtain rfl := ok.inj stored
  exact ⟨rfl, rfl, rfl, rfl, by simpa using isPath, read, by simpa using untaken, rfl, target,
    fun named => by simpa [named] using app, spec, protected_⟩

theorem withPath_ok (came : withPath outside fields found = .ok route) :
    route = { found with methods := route.methods, path := route.path } ∧
      (readMethods outside.serialize fields = .ok route.methods ∨
        route.methods = found.methods) ∧ (isPath route.path ∨ route.path = found.path) := by
  unfold withPath at came
  simp only [bind_eq_ok, exists_unit, refuseIf_eq_ok, orKeep_eq_ok] at came
  obtain ⟨methods, read, isPath, stored⟩ := came
  obtain rfl := ok.inj stored
  refine ⟨rfl, ?_, ?_⟩
  · rcases read with ⟨_, read⟩ | ⟨_, kept⟩
    · exact .inl read
    · exact .inr kept.symm
  · dsimp only
    split
    · exact .inl (by simpa [*] using isPath)
    · exact .inr rfl

theorem withTarget_ok (came : withTarget outside fields found = .ok route) :
    route = { found with
        applicationId := route.applicationId
        moduleTarget := route.moduleTarget
        moduleAction := route.moduleAction } ∧
      (route.moduleTarget ≠ "" → route.moduleAction ≠ "") ∧
      ((route.applicationId = found.applicationId ∧ route.moduleTarget = found.moduleTarget) ∨
        (route.applicationId = stringField fields "applicationId" "" ∧ route.moduleTarget = "" ∧
          outside.applicationExists found.accountId found.nameSpace route.applicationId) ∨
        (route.applicationId = "" ∧ route.moduleTarget ∈ kModuleTargets)) := by
  unfold withTarget at came
  simp only [bind_eq_ok, exists_unit, refuseIf_eq_ok] at came
  obtain ⟨app, module, action, stored⟩ := came
  obtain rfl := ok.inj stored
  by_cases application' : contains fields "applicationId" <;>
    by_cases module' : contains fields "moduleTarget" <;>
      by_cases action' : contains fields "moduleAction" <;> simp_all

theorem withKind_ok (came : withKind fields found = .ok route) :
    route = { found with
        region := route.region
        nameSpace := route.nameSpace
        authentication := route.authentication
        type := route.type } ∧
      (routeTypeFromString (stringField fields "type" "") = some route.type ∧
          contains fields "type" ∨ route.type = found.type ∧ ¬contains fields "type") := by
  unfold withKind at came
  simp only [bind_eq_ok, orKeep_eq_ok, orRefuse_eq_ok] at came
  obtain ⟨authentication, _, type, read, stored⟩ := came
  obtain rfl := ok.inj stored
  refine ⟨rfl, ?_⟩
  rcases read with ⟨named, read⟩ | ⟨unnamed, kept⟩
  · exact .inl ⟨read, named⟩
  · exact .inr ⟨kept.symm, unnamed⟩

theorem withUpload_ok (came : withUpload outside fields found = .ok route) :
    route = { found with upload := route.upload } ∧
      route.upload.bucket = if contains fields "bucket" then stringField fields "bucket" ""
        else found.upload.bucket := by
  unfold withUpload at came
  simp only [bind_eq_ok, exists_unit, refuseIf_eq_ok] at came
  obtain ⟨_, stored⟩ := came
  obtain rfl := ok.inj stored
  exact ⟨rfl, rfl⟩

/-- An upload route that passes the last check has all it needs, and any other has a target. -/
theorem checkCoherent_ok (came : checkCoherent found = .ok route) :
    route = { found with upload := route.upload } ∧
      route.upload.bucket = found.upload.bucket ∧
      (route.type = .upload → route.applicationId = "" ∧ route.moduleTarget = "" ∧
        route.upload.bucket ≠ "" ∧ route.authentication ≠ .none ∧ 0 < route.upload.partSize ∧
        0 ≤ route.upload.maxBytes) ∧
      (route.type = .proxy → ¬(route.applicationId = "" ∧ route.moduleTarget = "")) := by
  unfold checkCoherent at came
  cases type : found.type with
  | upload =>
    simp only [type, bind_eq_ok, exists_unit, refuseIf_eq_ok] at came
    obtain ⟨targets, bucket, authentication, limit, stored⟩ := came
    obtain rfl := ok.inj stored
    refine ⟨rfl, rfl, fun _ => ⟨?_, ?_, bucket, authentication, ?_, ?_⟩, fun other => ?_⟩
    · by_contra named
      exact targets (.inl named)
    · by_contra named
      exact targets (.inr named)
    · dsimp only
      split
      · decide
      · omega
    · exact not_lt.mp limit
    · cases other
  | proxy =>
    simp only [type, bind_eq_ok, exists_unit, refuseIf_eq_ok] at came
    obtain ⟨named, stored⟩ := came
    obtain rfl := ok.inj stored
    exact ⟨by rw [← type], rfl, fun other => absurd (type.symm.trans other) nofun, fun _ => named⟩

theorem updatedRoute_ok (came : updatedRoute outside routes user header fields = .ok route) :
    ∃ found named targeted kind uploaded coherent,
      findRouteByRouteId routes user.accountId header (stringField fields "routeId" "") =
        some found ∧
      withPath outside fields found = .ok named ∧
      pathTaken routes named.path named.methods named.nameSpace (stringField fields "routeId" "") =
        none ∧
      withTarget outside fields named = .ok targeted ∧ withKind fields targeted = .ok kind ∧
      withUpload outside fields kind = .ok uploaded ∧ checkCoherent uploaded = .ok coherent ∧
      route = { coherent with timeout := route.timeout, active := route.active } := by
  unfold updatedRoute at came
  simp only [bind_eq_ok, exists_unit, refuseIf_eq_ok, orRefuse_eq_ok] at came
  obtain ⟨_, found, read, named, path, untaken, targeted, target, kind, scope, uploaded, upload,
    coherent, checked, timeout, _, stored⟩ := came
  obtain rfl := ok.inj stored
  exact ⟨found, named, targeted, kind, uploaded, coherent, read, path, by simpa using untaken,
    target, scope, upload, checked, rfl⟩

end Checked

/-! ### Deleting a route -/

def handleDeleteRoute (caller : Option Caller) (administrator : Bool) (header : String)
    (body : Json) (routes : List Route) : Response Unit × List Route :=
  match caller with
  | none => (.unauthorized, routes)
  | some user =>
    if administrator then
      match body with
      | .object fields =>
        let routeId := stringField fields "routeId" ""
        if routeId = "" then (.refused .badRequest "routeId is required", routes)
        else (.success (), deleteRoute routes user.accountId header routeId)
      | _ => (.refused .badRequest "Expected a JSON object body", routes)
    else (.refused .forbidden "Administrator privileges required", routes)

/-! ### What becomes of the routes -/

section Served

variable {routes : List Route}

theorem storing_routes {routes : List Route} {came : Except Refusal Route} :
    (storing routes came).2 = routes ∨
      ∃ route, came = .ok route ∧ (storing routes came).2 = (upsertRoute routes route).2 := by
  unfold storing
  split
  · exact .inl rfl
  · rename_i route
    refine .inr ⟨route, rfl, ?_⟩
    split
    · rename_i stored
      rw [stored]
    · rename_i stored
      rw [stored]

theorem administering_routes (caller : Option Caller) (administrator : Bool) (body : Json)
    (routes : List Route) (came : Caller → Fields → Except Refusal Route) :
    (administering caller administrator body
        (fun user fields => storing routes (came user fields)) routes).2 = routes ∨
      ∃ user fields route, caller = some user ∧ administrator ∧ body = .object fields ∧
        came user fields = .ok route ∧
        (administering caller administrator body
          (fun user fields => storing routes (came user fields)) routes).2 =
            (upsertRoute routes route).2 := by
  unfold administering
  split
  · exact .inl rfl
  · rename_i user
    split
    · rename_i privileged
      split
      · rename_i fields
        rcases storing_routes with kept | ⟨route, own, stored⟩
        · exact .inl kept
        · exact .inr ⟨user, fields, route, rfl, privileged, rfl, own, stored⟩
      · exact .inl rfl
    · exact .inl rfl

theorem upsertRoute_cases (routes : List Route) (route : Route) :
    (upsertRoute routes route).2 = routes ∨
      (∃ before found after, routes = before ++ found :: after ∧ found.key = route.key ∧
        (upsertRoute routes route).2 = before ++ route :: after) ∨
      ((∀ other ∈ routes, other.key ≠ route.key) ∧
        (upsertRoute routes route).2 = routes ++ [route]) := by
  unfold upsertRoute
  split
  · exact .inl rfl
  · split
    · rename_i stored
      refine .inr (.inl ?_)
      have isSome : (routes.find? fun stored => decide (stored.key = route.key)).isSome :=
        List.find?_isSome.mpr (any_eq_true.mp stored)
      obtain ⟨found, own⟩ := Option.isSome_iff_exists.mp isSome
      obtain ⟨before, after, split, updated⟩ := updateFirst_split (fun _ => route) own
      exact ⟨before, found, after, split, by simpa using List.find?_some own, updated⟩
    · rename_i unstored
      exact .inr (.inr ⟨by simpa using unstored, rfl⟩)

theorem isRefusedBy_of_ern {route : Route} (mem : found ∈ routes)
    (keys : found.key ≠ route.key) (ern : found.ern = route.ern) : route.isRefusedBy routes :=
  any_eq_true.mpr ⟨found, mem, by simp [keys, ern]⟩

theorem upsertRoute_forall {holds : Route → Prop} {route : Route}
    (before : ∀ other ∈ routes, holds other) (own : holds route) :
    ∀ other ∈ (upsertRoute routes route).2, holds other := by
  intro other mem
  rcases upsertRoute_cases routes route with kept | ⟨earlier, found, later, split, _, stored⟩ |
    ⟨_, stored⟩
  · exact before other (kept ▸ mem)
  · rw [stored] at mem
    rcases mem_append.mp mem with inEarlier | inRest
    · exact before other (split ▸ mem_append_left _ inEarlier)
    · rcases mem_cons.mp inRest with rfl | inLater
      · exact own
      · exact before other (split ▸ mem_append_right _ (.tail _ inLater))
  · rw [stored] at mem
    rcases mem_append.mp mem with old | new
    · exact before other old
    · exact mem_singleton.mp new ▸ own

theorem handleDeleteRoute_sublist (caller : Option Caller) (administrator : Bool) (header : String)
    (body : Json) :
      (handleDeleteRoute caller administrator header body routes).2.Sublist routes := by
  unfold handleDeleteRoute
  split
  · exact .refl _
  · split
    · split
      · dsimp only
        split
        · exact .refl _
        · exact filter_sublist
      · exact .refl _
    · exact .refl _

end Served

end Euclid.Eag
