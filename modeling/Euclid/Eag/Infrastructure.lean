/-
This file translates the part of `EapServer` that keeps the routes an application declares: what
a declaration may say of a route, what applying it does to the routes, and what it removes.

Resources of other kinds are declared beside routes. What becomes of one of them is given with
it: its name, or the error that ends the applying of the declaration. What an application is
granted is left out.
-/

import Euclid.Eag.Server

namespace Euclid.Eag

open Bus (Json)
open Eqs (Caller)

/-! ### Declarations -/

structure DeclaredRoute where
  name : String
  settings : Fields

/-- What is wrong with one setting of a route. -/
def settingProblem (serialize : Json → String) (name key : String) (value : Json) : Option String :=
  let where_ := name ++ ": \"" ++ key ++ "\""
  match key with
  | "path" =>
    match value with
    | .string text =>
      if isPath text then none else some (where_ ++ " has to be a path starting with '/'")
    | _ => some (where_ ++ " has to be a path starting with '/'")
  | "methods" =>
    match value with
    | .array entries =>
      (entries.find? fun entry =>
        match entry with
        | .string text => decide (text.toUpper ∉ kKnownMethods)
        | _ => true).map fun entry => where_ ++ ": " ++ serialize entry ++ " is not an HTTP method"
    | _ => some (where_ ++ " has to be a list of HTTP methods")
  | "authentication" =>
    match value with
    | .string text =>
      if text ∈ ["NONE", "EUCLID", "BASIC"] then none
      else some (where_ ++ " has to be one of NONE, EUCLID, BASIC")
    | _ => some (where_ ++ " has to be one of NONE, EUCLID, BASIC")
  | "timeout" =>
    match value with
    | .int64 seconds =>
      if seconds < 0 ∨ 3600 < seconds then
        some (where_ ++ " has to be a whole number from 0 to 3600")
      else none
    | _ => some (where_ ++ " has to be a whole number from 0 to 3600")
  | _ => some (name ++ ": routes have no setting \"" ++ key ++
      "\" - only path, methods, authentication, timeout")

/-- `SettingsProblem`, for a route: the first setting that is wrong, or the path that is missing. -/
def settingsProblem (serialize : Json → String) (declared : DeclaredRoute) : Option String :=
  (declared.settings.findSome? fun setting =>
    settingProblem serialize declared.name setting.1 setting.2).orElse fun _ =>
      if contains declared.settings "path" then none
      else some (declared.name ++ ": a route needs \"path\"")

/-- One entry under `creates`: a route, or something of another kind with what becomes of it. -/
inductive Declared where
  | route (declared : DeclaredRoute)
  | other (outcome : Except String String)

/-- What is wrong with a declaration as far as its routes go. -/
def declarationProblem (serialize : Json → String) (creates : List Declared) : Option String :=
  creates.findSome? fun declared =>
    match declared with
    | .route declared => settingsProblem serialize declared
    | .other _ => none

/-! ### Owners and claims -/

/-- Whose a declaration is: an application's, or a platform's. -/
structure InfrastructureOwner where
  id : String
  accountId : String
  nameSpace : String
  region : String
  recorded : List String
  isPlatform : Bool

/-- What applying a `creates` entry does to the object of that name. -/
inductive Claim where
  | create
  | mine
  | adopt
  | clash
  deriving DecidableEq

/-- `ClaimOn`, for an object with an owner tag or without one. -/
def claimOn (exists_ : Bool) (ownerTag : Option String) (applicationId : String) : Claim :=
  if ¬exists_ then .create
  else if ownerTag.getD "" = "" then .adopt
  else if ownerTag.getD "" = applicationId then .mine
  else .clash

def mayRemove (ownerTag : Option String) (applicationId : String) (recorded : Bool) : Bool :=
  if ownerTag.getD "" = "" then recorded else decide (ownerTag.getD "" = applicationId)

structure ApplyOptions where
  dryRun : Bool
  prune : Bool

/-- What applying a declaration did, or would do. -/
structure InfrastructurePlan where
  created : List String
  adopted : List String
  updated : List (String × List String)
  deleted : List String
  kept : List (String × String)
  owned : List String
  error : String

def InfrastructurePlan.blank : InfrastructurePlan := ⟨[], [], [], [], [], [], ""⟩

/-! ### One declared route -/

def Route.target (route : Route) : String :=
  match route.type with
  | .upload => "an upload into " ++ route.upload.bucket
  | .proxy =>
    if route.moduleTarget ≠ "" then "euclid module " ++ route.moduleTarget else route.applicationId

/-- The route a declaration starts from: the one that is there, or a new one for the owner. -/
def startOf (outside : Surroundings) (owner : InfrastructureOwner) (name : String)
    (found : Option Route) : Route :=
  found.getD { Route.blank with
    routeId := name
    ern := createErn outside.region "eag" owner.accountId owner.nameSpace ("route:" ++ name)
    accountId := owner.accountId
    region := owner.region
    nameSpace := owner.nameSpace
    applicationId := owner.id }

/-- The methods a declaration names: in upper case, each once, sorted. -/
def wantedMethods (entries : List Json) : List String :=
  ((stringsOf entries).map String.toUpper).dedup.insertionSort (· ≤ ·)

/-- A route a declaration changes, and one line for each change. -/
abbrev Changed := Route × List String

def setPath (settings : Fields) (changed : Changed) : Changed :=
  let path := stringField settings "path" changed.1.path
  if changed.1.path = path then changed
  else ({ changed.1 with path := path }, changed.2 ++
    ["path " ++ (if changed.1.path = "" then "none" else changed.1.path) ++ " -> " ++ path])

/-- The methods a declaration names, compared as sets. -/
def setMethods (settings : Fields) (changed : Changed) : Changed :=
  let join := fun methods : List String =>
    if methods = [] then "all" else ",".intercalate methods
  match Json.ifContains "methods" settings with
  | some (.array entries) =>
    let wanted := wantedMethods entries
    let current := changed.1.methods.insertionSort (· ≤ ·)
    if current = wanted then changed
    else ({ changed.1 with methods := wanted },
      changed.2 ++ ["methods " ++ join current ++ " -> " ++ join wanted])
  | _ => changed

def RouteAuthentication.toText : RouteAuthentication → String
  | .none => "NONE"
  | .euclid => "EUCLID"
  | .basic => "BASIC"

def setAuthentication (settings : Fields) (changed : Changed) : Changed :=
  match routeAuthenticationFromString (stringField settings "authentication" "") with
  | some wanted =>
    if wanted = changed.1.authentication then changed
    else ({ changed.1 with authentication := wanted }, changed.2 ++
      ["authentication " ++ changed.1.authentication.toText ++ " -> " ++ wanted.toText])
  | none => changed

def setTimeout (settings : Fields) (changed : Changed) : Changed :=
  let timeout := int64Field settings "timeout" changed.1.timeout
  if changed.1.timeout = timeout then changed
  else ({ changed.1 with timeout := timeout }, changed.2 ++
    ["timeout " ++ toString changed.1.timeout ++ " -> " ++ toString timeout])

def applySettings (settings : Fields) (route : Route) : Changed :=
  setTimeout settings (setAuthentication settings (setMethods settings (setPath settings
    (route, []))))

/-- The check of a declared route against the others of its account and namespace. -/
def overlapped (routes : List Route) (owner : InfrastructureOwner) (route : Route) : Option Route :=
  routes.find? fun other =>
    decide (other.accountId = owner.accountId) && decide (other.nameSpace = owner.nameSpace) &&
      decide (other.routeId ≠ route.routeId) && decide (other.path = route.path) &&
      overlap other.methods route.methods

/-- `ensureOwnedResource`, for a route: its name where it was made or kept, what has become of the
plan, and the routes. -/
def ensureOwnedRoute (outside : Surroundings) (options : ApplyOptions)
    (owner : InfrastructureOwner) (declared : DeclaredRoute) (plan : InfrastructurePlan)
    (routes : List Route) : Option String × InfrastructurePlan × List Route :=
  if owner.isPlatform then
    (none, { plan with error := "route '" ++ declared.name ++
      "': a route sends to the application that declares it, and a platform is not one" }, routes)
  else
    let found := findRouteByRouteId routes owner.accountId owner.nameSpace declared.name
    let ern := createErn outside.region "eag" owner.accountId owner.nameSpace
      ("route:" ++ declared.name)
    let (route, changes) := applySettings declared.settings
      (startOf outside owner declared.name found)
    match claimOn found.isSome (found.map Route.target) owner.id with
    | .clash =>
      (none, { plan with error := "route '" ++ declared.name ++ "' is owned by '" ++
        ((found.map Route.target).getD "") ++
        "'; an application owns an object or uses it, and this one is somebody else's" }, routes)
    | claim =>
      let plan := { plan with
        created := if claim = .create then plan.created ++ [ern] else plan.created
        adopted := if claim = .adopt then plan.adopted ++ [ern] else plan.adopted
        updated := if found.isSome ∧ changes ≠ [] then plan.updated ++ [(ern, changes)]
          else plan.updated }
      match overlapped routes owner route with
      | some other =>
        (none, { plan with error := "route '" ++ declared.name ++ "': path " ++ route.path ++
          " is already routed by '" ++ other.routeId ++ "' for the same methods" }, routes)
      | none =>
        if options.dryRun = false ∧ (claim = .create ∨ changes ≠ []) then
          (some ern, plan, (upsertRoute routes route).2)
        else (some ern, plan, routes)

/-! ### A whole declaration -/

/-- The loop of `applyInfrastructure` over what is declared: whether it came to its end. -/
def ensureOwned (outside : Surroundings) (options : ApplyOptions) (owner : InfrastructureOwner) :
    List Declared → InfrastructurePlan → List Route → Bool × InfrastructurePlan × List Route
  | [], plan, routes => (true, plan, routes)
  | .other (.error error) :: _, plan, routes => (false, { plan with error := error }, routes)
  | .other (.ok ern) :: rest, plan, routes =>
    ensureOwned outside options owner rest { plan with owned := plan.owned ++ [ern] } routes
  | .route declared :: rest, plan, routes =>
    match ensureOwnedRoute outside options owner declared plan routes with
    | (none, plan, routes) => (false, plan, routes)
    | (some ern, plan, routes) =>
      ensureOwned outside options owner rest { plan with owned := plan.owned ++ [ern] } routes

def serviceFromErn (ern : String) : String :=
  match ern.splitOn ":" with
  | _ :: service :: _ :: _ => service
  | _ => ""

/-- The part of the loop over what an owner no longer declares that concerns routes. A route holds
nothing, so it is always free to go. -/
def removeRoute (options : ApplyOptions) (owner : InfrastructureOwner) (ern : String)
    (plan : InfrastructurePlan) (routes : List Route) : InfrastructurePlan × List Route :=
  if ern ∈ plan.owned ∨ serviceFromErn ern ≠ "eag" then (plan, routes)
  else
    match routes.find? fun route => route.ern = ern with
    | none => (plan, routes)
    | some route =>
      let ownerTag := if route.type = .proxy ∧ route.moduleTarget = "" then some route.applicationId
        else none
      if ¬mayRemove ownerTag owner.id (decide (ern ∈ owner.recorded)) then (plan, routes)
      else if options.prune = false then
        ({ plan with
          kept := plan.kept ++ [(ern, "no longer declared, and pruning is off")]
          owned := plan.owned ++ [ern] }, routes)
      else
        ({ plan with deleted := plan.deleted ++ [ern] },
          if options.dryRun then routes
          else deleteRoute routes route.accountId route.nameSpace route.routeId)

def applyInfrastructure (outside : Surroundings) (options : ApplyOptions)
    (owner : InfrastructureOwner) (creates : List Declared) (routes : List Route) :
    InfrastructurePlan × List Route :=
  match ensureOwned outside options owner creates .blank routes with
  | (false, plan, routes) => (plan, routes)
  | (true, plan, routes) =>
    (owner.recorded.dedup.insertionSort (· ≤ ·)).foldl
      (fun state ern => removeRoute options owner ern state.1 state.2) (plan, routes)

/-- `handleApplyInfrastructure`, or with `dryRun` its plan: an application's declaration is read,
if there is one, and applied. -/
def handleApplyInfrastructure (outside : Surroundings) (caller : Option Caller)
    (administrator : Bool) (header applicationId : String) (options : ApplyOptions)
    (decl : Except String (Option (List Declared))) (routes : List Route) :
    Response (Option InfrastructurePlan) × List Route :=
  match caller with
  | none => (.unauthorized, routes)
  | some user =>
    if administrator = false then (.refused .forbidden "Administrator privileges required", routes)
    else if applicationId = "" then (.refused .badRequest "applicationId is required", routes)
    else
      match outside.findApplication user.accountId header applicationId with
      | none =>
        (.refused .notFound ("Application not found, applicationId: " ++ applicationId), routes)
      | some app =>
        match decl with
        | .error error => (.refused .badRequest error, routes)
        | .ok none => (.success none, routes)
        | .ok (some creates) =>
          match declarationProblem outside.serialize creates with
          | some problem => (.refused .badRequest problem, routes)
          | none =>
            let owner : InfrastructureOwner := ⟨applicationId, user.accountId, header,
              app.region, app.infrastructure, false⟩
            let (plan, routes) := applyInfrastructure outside options owner creates routes
            if plan.error = "" then (.success (some plan), routes)
            else (.refused .badRequest plan.error, routes)

/-! ### What applying a declaration does to the routes -/

variable {holds : List Route → Prop}

section Applied

variable {outside : Surroundings} {options : ApplyOptions} {owner : InfrastructureOwner}

/-- The route a declaration comes to, from the routes that are there. -/
def declaredRoute (outside : Surroundings) (owner : InfrastructureOwner)
    (declared : DeclaredRoute) (routes : List Route) : Route :=
  (applySettings declared.settings (startOf outside owner declared.name
    (findRouteByRouteId routes owner.accountId owner.nameSpace declared.name))).1

section

variable (settings : Fields) (changed : Changed)

theorem setPath_fst : (setPath settings changed).1 =
      { changed.1 with path := stringField settings "path" changed.1.path } := by
  unfold setPath
  dsimp only
  split
  · rename_i same
    rw [← same]
  · rfl

theorem setMethods_fst :
    (setMethods settings changed).1 =
        { changed.1 with methods := (setMethods settings changed).1.methods } ∧
      ((setMethods settings changed).1.methods = changed.1.methods ∨
        ∃ entries, Json.ifContains "methods" settings = some (.array entries) ∧
          (setMethods settings changed).1.methods = wantedMethods entries) := by
  unfold setMethods
  dsimp only
  split
  · rename_i entries named
    split
    · exact ⟨rfl, .inl rfl⟩
    · exact ⟨rfl, .inr ⟨entries, named, rfl⟩⟩
  · exact ⟨rfl, .inl rfl⟩

theorem setAuthentication_fst :
    (setAuthentication settings changed).1 = { changed.1 with
      authentication := (routeAuthenticationFromString
        (stringField settings "authentication" "")).getD changed.1.authentication } := by
  unfold setAuthentication
  split
  · rename_i wanted named
    split
    · rename_i same
      rw [named, same]
      rfl
    · rw [named]
      rfl
  · rename_i unnamed
    rw [unnamed]
    rfl

theorem setTimeout_fst : (setTimeout settings changed).1 =
      { changed.1 with timeout := int64Field settings "timeout" changed.1.timeout } := by
  unfold setTimeout
  dsimp only
  split
  · rename_i same
    rw [← same]
  · rfl

end

theorem applySettings_fst (settings : Fields) (route : Route) :
    (applySettings settings route).1 = { route with
      path := stringField settings "path" route.path
      methods := (applySettings settings route).1.methods
      authentication := (routeAuthenticationFromString
        (stringField settings "authentication" "")).getD route.authentication
      timeout := int64Field settings "timeout" route.timeout } := by
  unfold applySettings
  rw [setTimeout_fst, setAuthentication_fst, (setMethods_fst settings _).1, setPath_fst]

theorem applySettings_methods (settings : Fields) (route : Route) :
    (applySettings settings route).1.methods = route.methods ∨
      ∃ entries, Json.ifContains "methods" settings = some (.array entries) ∧
        (applySettings settings route).1.methods = wantedMethods entries := by
  unfold applySettings
  rw [setTimeout_fst, setAuthentication_fst]
  have methods := (setMethods_fst settings (setPath settings (route, []))).2
  rw [setPath_fst] at methods
  exact methods

variable {routes : List Route}

theorem findRouteByRouteId_key {accountId nameSpace routeId : String}
    {found : Route} (own : findRouteByRouteId routes accountId nameSpace routeId = some found) :
    found ∈ routes ∧ found.key = (accountId, nameSpace, routeId) :=
  ⟨List.mem_of_find?_eq_some own, by simpa using List.find?_some own⟩

theorem declaredRoute_key (outside : Surroundings) (owner : InfrastructureOwner)
    (declared : DeclaredRoute) (routes : List Route) :
    (declaredRoute outside owner declared routes).key =
      (owner.accountId, owner.nameSpace, declared.name) := by
  unfold declaredRoute
  rw [applySettings_fst]
  cases found : findRouteByRouteId routes owner.accountId owner.nameSpace declared.name with
  | none => rfl
  | some route => exact (findRouteByRouteId_key found).2

theorem ensureOwnedRoute_routes (outside : Surroundings) (options : ApplyOptions)
    (owner : InfrastructureOwner) (declared : DeclaredRoute) (plan : InfrastructurePlan)
    (routes : List Route) :
    (ensureOwnedRoute outside options owner declared plan routes).2.2 = routes ∨
      (∀ found ∈ findRouteByRouteId routes owner.accountId owner.nameSpace declared.name,
          found.target = "" ∨ found.target = owner.id) ∧
        overlapped routes owner (declaredRoute outside owner declared routes) = none ∧
        (ensureOwnedRoute outside options owner declared plan routes).2.2 =
          (upsertRoute routes (declaredRoute outside owner declared routes)).2 := by
  unfold ensureOwnedRoute
  split
  · exact .inl rfl
  · dsimp only
    split
    · exact .inl rfl
    · rename_i claim unclashing
      split
      · exact .inl rfl
      · rename_i apart
        split
        · refine .inr ⟨fun found own => ?_, apart, rfl⟩
          rw [Option.mem_def.mp own] at unclashing
          by_contra others
          push Not at others
          exact unclashing (by simp [claimOn, others])
        · exact .inl rfl

/-- A condition holds of every declared route that is come to, with the routes that are there
then. -/
def EachDeclared (outside : Surroundings) (options : ApplyOptions)
    (owner : InfrastructureOwner) (condition : DeclaredRoute → List Route → Prop) :
    List Declared → List Route → Prop
  | [], _ => True
  | .other (.error _) :: _, _ => True
  | .other (.ok _) :: rest, routes => EachDeclared outside options owner condition rest routes
  | .route declared :: rest, routes => condition declared routes ∧
      EachDeclared outside options owner condition rest
        (ensureOwnedRoute outside options owner declared .blank routes).2.2

theorem ensureOwnedRoute_plan {declared : DeclaredRoute} {plan other : InfrastructurePlan}
    (routes : List Route) :
    (ensureOwnedRoute outside options owner declared plan routes).2.2 =
      (ensureOwnedRoute outside options owner declared other routes).2.2 := by
  unfold ensureOwnedRoute
  split
  · rfl
  · dsimp only
    split
    · rfl
    · split
      · rfl
      · split <;> rfl

variable {condition : DeclaredRoute → List Route → Prop}

theorem ensureOwned_keeps (creates : List Declared)
    (keeps : ∀ declared, .route declared ∈ creates → ∀ plan routes, condition declared routes →
      holds routes → holds (ensureOwnedRoute outside options owner declared plan routes).2.2)
    (plan : InfrastructurePlan) (routes : List Route)
    (each : EachDeclared outside options owner condition creates routes) (before : holds routes) :
    holds (ensureOwned outside options owner creates plan routes).2.2 := by
  fun_induction ensureOwned outside options owner creates plan routes with
  | case1 => exact before
  | case2 => exact before
  | case3 ern rest plan routes ih =>
    exact ih (fun declared mem => keeps declared (.tail _ mem)) each before
  | case4 declared rest plan routes failed after failing =>
    have kept := keeps declared (.head _) plan routes each.1 before
    rw [failing] at kept
    exact kept
  | case5 declared rest plan routes ern after stored succeeding ih =>
    have kept := keeps declared (.head _) plan routes each.1 before
    have next := each.2
    rw [ensureOwnedRoute_plan] at next
    rw [succeeding] at kept next
    exact ih (fun declared mem => keeps declared (.tail _ mem)) next kept

theorem removeRoute_sublist (ern : String) (plan : InfrastructurePlan) (routes : List Route) :
    (removeRoute options owner ern plan routes).2.Sublist routes := by
  unfold removeRoute
  split
  · exact .refl _
  · split
    · exact .refl _
    · rename_i route _
      dsimp only
      generalize mayRemove (if route.type = .proxy ∧ route.moduleTarget = "" then
        some route.applicationId else none) owner.id (decide (ern ∈ owner.recorded)) = mine
      split
      · exact .refl _
      · split
        · exact .refl _
        · dsimp only
          split
          · exact .refl _
          · exact List.filter_sublist

theorem removeRoutes_sublist (erns : List String) (plan : InfrastructurePlan)
    (routes : List Route) :
    (erns.foldl (fun state ern => removeRoute options owner ern state.1 state.2)
      (plan, routes)).2.Sublist routes := by
  induction erns generalizing plan routes with
  | nil => exact .refl _
  | cons ern rest ih =>
    exact (ih _ _).trans (removeRoute_sublist ern plan routes)

theorem applyInfrastructure_keeps {creates : List Declared}
    (keeps : ∀ declared, .route declared ∈ creates → ∀ plan routes, condition declared routes →
      holds routes → holds (ensureOwnedRoute outside options owner declared plan routes).2.2)
    (fewer : ∀ some all : List Route, some.Sublist all → holds all → holds some)
    (each : EachDeclared outside options owner condition creates routes) (before : holds routes) :
    holds (applyInfrastructure outside options owner creates routes).2 := by
  have ensured := ensureOwned_keeps creates keeps .blank routes each before
  unfold applyInfrastructure
  split
  · rename_i ending
    rw [ending] at ensured
    exact ensured
  · rename_i ending
    rw [ending] at ensured
    exact fewer _ _ (removeRoutes_sublist _ _ _) ensured

end Applied

/-! ### Requests -/

inductive RouteRequest where
  | create (caller : Option Caller) (administrator : Bool) (header : String) (body : Json)
  | update (caller : Option Caller) (administrator : Bool) (header : String) (body : Json)
  | delete (caller : Option Caller) (administrator : Bool) (header : String) (body : Json)
  | apply (caller : Option Caller) (administrator : Bool) (header applicationId : String)
    (options : ApplyOptions) (decl : Except String (Option (List Declared)))

def RouteRequest.serve (outside : Surroundings) (routes : List Route) : RouteRequest → List Route
  | .create caller administrator header body =>
    (handleCreateRoute outside caller administrator header body routes).2
  | .update caller administrator header body =>
    (handleUpdateRoute outside caller administrator header body routes).2
  | .delete caller administrator header body =>
    (handleDeleteRoute caller administrator header body routes).2
  | .apply caller administrator header applicationId options decl =>
    (handleApplyInfrastructure outside caller administrator header applicationId options
      decl routes).2

/-- A request, and what is around when it is served. -/
structure RouteStep where
  surroundings : Surroundings
  request : RouteRequest

def RouteStep.serve (step : RouteStep) (routes : List Route) : List Route :=
  step.request.serve step.surroundings routes

/-- The routes after some requests, one after the other. -/
def serveAll (steps : List RouteStep) (routes : List Route) : List Route :=
  steps.foldl (fun routes step => step.serve routes) routes

/-- A condition holds of every request, with the routes that are there when it is served. -/
def EachServed (condition : RouteStep → List Route → Prop) : List RouteStep → List Route → Prop
  | [], _ => True
  | step :: rest, routes => condition step routes ∧ EachServed condition rest (step.serve routes)

theorem serveAll_keeps {condition : RouteStep → List Route → Prop} {steps : List RouteStep}
    (keeps : ∀ step ∈ steps, ∀ routes, condition step routes → holds routes →
      holds (step.serve routes)) {routes : List Route}
    (each : EachServed condition steps routes) (before : holds routes) :
    holds (serveAll steps routes) := by
  induction steps generalizing routes with
  | nil => exact before
  | cons step rest ih =>
    exact ih (fun other mem => keeps other (.tail _ mem))
      each.2 (keeps step (.head _) routes each.1 before)

/-- The owner a declaration of an application is applied for. -/
def Application.owner (app : Application) (user : Caller)
    (header applicationId : String) : InfrastructureOwner :=
  ⟨applicationId, user.accountId, header, app.region, app.infrastructure, false⟩

/-- A declaration of an application that is there is applied for its owner, and any other request
changes nothing. -/
theorem handleApplyInfrastructure_routes (outside : Surroundings) (caller : Option Caller)
    (administrator : Bool) (header applicationId : String) (options : ApplyOptions)
    (decl : Except String (Option (List Declared))) (routes : List Route) :
    (handleApplyInfrastructure outside caller administrator header applicationId options
        decl routes).2 = routes ∨
      ∃ user app creates, caller = some user ∧ administrator ∧ applicationId ≠ "" ∧
        outside.findApplication user.accountId header applicationId = some app ∧
        decl = .ok (some creates) ∧ declarationProblem outside.serialize creates = none ∧
        (handleApplyInfrastructure outside caller administrator header applicationId options
          decl routes).2 =
            (applyInfrastructure outside options
              (app.owner user header applicationId) creates routes).2 := by
  unfold handleApplyInfrastructure
  split
  · exact .inl rfl
  · rename_i user
    split
    · exact .inl rfl
    · rename_i privileged
      split
      · exact .inl rfl
      · rename_i id
        split
        · exact .inl rfl
        · rename_i app found
          split
          · exact .inl rfl
          · exact .inl rfl
          · rename_i creates
            split
            · exact .inl rfl
            · rename_i sound
              refine .inr ⟨user, app, creates, rfl, by simpa using privileged, id, found,
                rfl, sound, ?_⟩
              dsimp only
              split <;> rfl

/-- An installation where every application and every bucket is there. -/
def someSurroundings : Surroundings where
  region := "eu"
  serialize := fun _ => ""
  findApplication := fun _ _ _ => some ⟨"eu", []⟩
  bucketExists := fun _ => true

/-- An administrator of an account publishes an application's path under a name. -/
def publishing (accountId routeId path : String) : RouteStep where
  surroundings := someSurroundings
  request := .create (some ⟨"admin", accountId, "eu"⟩) true "dev" (.object [
    ("routeId", .string routeId), ("path", .string path), ("applicationId", .string "shop")])

inductive Serves (step : RouteStep) (routes : List Route) : List Route → Prop where
  | kept : Serves step routes routes
  | created {user : Caller} {header : String} {fields : Fields} {route : Route}
    (req : step.request = .create (some user) true header (.object fields))
    (came : newRoute step.surroundings routes user header fields = .ok route) :
    Serves step routes (upsertRoute routes route).2
  | updated {user : Caller} {header : String} {fields : Fields} {route : Route}
    (req : step.request = .update (some user) true header (.object fields))
    (came : updatedRoute step.surroundings routes user header fields = .ok route) :
    Serves step routes (upsertRoute routes route).2
  | fewer {rest : List Route} (fewer : rest.Sublist routes) : Serves step routes rest
  | applied {user : Caller} {header applicationId : String} {options : ApplyOptions}
    {creates : List Declared} {app : Application}
    (req : step.request = .apply (some user) true header applicationId options (.ok (some creates)))
    (id : applicationId ≠ "")
    (found : step.surroundings.findApplication user.accountId header applicationId = some app)
    (sound : declarationProblem step.surroundings.serialize creates = none) :
    Serves step routes (applyInfrastructure step.surroundings options
      (app.owner user header applicationId) creates routes).2

theorem RouteStep.serves (step : RouteStep) (routes : List Route) :
    Serves step routes (step.serve routes) := by
  unfold RouteStep.serve
  cases req : step.request with
  | create caller administrator header body =>
    change Serves step routes
      (handleCreateRoute step.surroundings caller administrator header body routes).2
    unfold handleCreateRoute
    rcases administering_routes caller administrator body routes
      (fun user fields => newRoute step.surroundings routes user header fields) with
      kept | ⟨user, fields, route, rfl, rfl, rfl, came, stored⟩
    · rw [kept]
      exact .kept
    · rw [stored]
      exact .created req came
  | update caller administrator header body =>
    change Serves step routes
      (handleUpdateRoute step.surroundings caller administrator header body routes).2
    unfold handleUpdateRoute
    rcases administering_routes caller administrator body routes
      (fun user fields => updatedRoute step.surroundings routes user header fields) with
      kept | ⟨user, fields, route, rfl, rfl, rfl, came, stored⟩
    · rw [kept]
      exact .kept
    · rw [stored]
      exact .updated req came
  | delete caller administrator header body =>
    exact .fewer (handleDeleteRoute_sublist caller administrator header body)
  | apply caller administrator header applicationId options decl =>
    change Serves step routes (handleApplyInfrastructure step.surroundings caller administrator
      header applicationId options decl routes).2
    rcases handleApplyInfrastructure_routes step.surroundings caller administrator header
      applicationId options decl routes with
      kept | ⟨user, app, creates, rfl, rfl, id, found, rfl, sound, applied⟩
    · rw [kept]
      exact .kept
    · rw [applied]
      exact .applied req id found sound

end Euclid.Eag
