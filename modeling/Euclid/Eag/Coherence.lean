/-
This file proves that stored routes are coherent: a route writes into a bucket or sends to one
target, and says all that this takes. A create checks the whole of what it stores. An update
checks the route it produces, but not that one that sends on has no bucket left; an applied
declaration checks whose a route is by a text, which an upload's may be, and sets its
authentication. Where neither happens, every stored route is coherent.
-/

import Euclid.Eag.Infrastructure

namespace Euclid.Eag

open List

open Bus (Json)
open Eqs (Caller)

/-! ### Coherence -/

def RouteRequest.Names (key : String × String × String) (applicationId : String) :
    RouteRequest → Prop
  | .create caller _ header body => ∃ user fields, caller = some user ∧ body = .object fields ∧
      (user.accountId, stringField fields "namespace" header, stringField fields "routeId" "") =
        key ∧ stringField fields "applicationId" "" = applicationId
  | .update caller _ header body => ∃ user fields, caller = some user ∧ body = .object fields ∧
      (user.accountId, header, stringField fields "routeId" "") = key ∧
      stringField fields "applicationId" "" = applicationId
  | .delete _ _ _ _ => False
  | .apply caller _ header named _ decl => ∃ user creates declared, caller = some user ∧
      decl = .ok (some creates) ∧ Declared.route declared ∈ creates ∧
      (user.accountId, header, declared.name) = key ∧ named = applicationId

/-- The application of a route was there, in the route's account and namespace, when one of some
requests named it for the route. -/
def Route.HadApplication (steps : List RouteStep) (route : Route) : Prop :=
  ∃ step ∈ steps, step.request.Names route.key route.applicationId ∧
    step.surroundings.applicationExists route.accountId route.nameSpace route.applicationId

structure Route.IsUpload (route : Route) : Prop where
  bucket : route.upload.bucket ≠ ""
  authentication : route.authentication ≠ .none
  partSize : 0 < route.upload.partSize
  maxBytes : 0 ≤ route.upload.maxBytes
  applicationId : route.applicationId = ""
  moduleTarget : route.moduleTarget = ""

/-- What a route that sends on has: no bucket, and one of an application and a module. -/
structure Route.IsProxy (steps : List RouteStep) (route : Route) : Prop where
  bucket : route.upload.bucket = ""
  target : route.applicationId ≠ "" ∧ route.moduleTarget = "" ∧ route.HadApplication steps ∨
    route.applicationId = "" ∧ route.moduleTarget ∈ kModuleTargets ∧ route.moduleAction ≠ ""

/-- A route that writes into a bucket or sends to one target, for a path and methods there are. -/
structure Route.IsCoherent (steps : List RouteStep) (route : Route) : Prop where
  path : isPath route.path
  methods : ∀ method ∈ route.methods, method ∈ kKnownMethods
  kind : match route.type with
    | .upload => route.IsUpload
    | .proxy => route.IsProxy steps

def AreCoherent (steps : List RouteStep) (routes : List Route) : Prop :=
  ∀ route ∈ routes, route.IsCoherent steps

variable {steps : List RouteStep}

theorem AreCoherent.sublist {some all : List Route}
    (coherent : AreCoherent steps all) (fewer : some.Sublist all) : AreCoherent steps some :=
  fun route mem => coherent route (fewer.subset mem)

/-! ### What is read of a body -/

variable {serialize : Json → String} {entries : List Json}

theorem readMethodsFrom_known
    {before methods : List String} (read : readMethodsFrom serialize before entries = .ok methods)
    (known : ∀ method ∈ before, method ∈ kKnownMethods) :
    ∀ method ∈ methods, method ∈ kKnownMethods := by
  fun_induction readMethodsFrom serialize before entries with
  | case1 before =>
    obtain rfl := Except.ok.inj read
    exact known
  | case2 before text rest method own ih =>
    refine ih read ?_
    intro other mem
    split at mem
    · exact known other mem
    · rcases mem_append.mp mem with old | new
      · exact known other old
      · rw [mem_singleton.mp new]
        exact own
  | case3 => cases read
  | case4 => cases read

variable {fields : Fields}

theorem readMethods_known {methods : List String}
    (read : readMethods serialize fields = .ok methods) :
    ∀ method ∈ methods, method ∈ kKnownMethods := by
  unfold readMethods at read
  split at read
  · exact readMethodsFrom_known read fun _ none => nomatch none
  · obtain rfl := Except.ok.inj read
    exact fun _ none => nomatch none

theorem mem_stringsOf {text : String} : text ∈ stringsOf entries ↔ Json.string text ∈ entries := by
  fun_induction stringsOf entries with
  | case1 => simp
  | case2 head rest ih => simp [ih]
  | case3 head rest other ih =>
    have different : Json.string text ≠ head := fun same => other text same.symm
    simp [ih, different]

/-! ### Each writer -/

section Writers

variable {steps : List RouteStep} {step : RouteStep} {routes : List Route} {route : Route}
  {administrator : Bool}

variable {header : String}

theorem newRoute_coherent (among : step ∈ steps) {user : Caller}
    (req : step.request = .create (some user) administrator header (.object fields))
    (came : newRoute step.surroundings routes user header fields = .ok route) :
    route.IsCoherent steps := by
  have checked := newRoute_ok came
  have target := checked.target
  have upload := checked.upload
  have authentication := checked.authentication
  refine ⟨checked.isPath, readMethods_known checked.methods, ?_⟩
  cases type : route.type with
  | upload =>
    simp only [type, checkTarget, newUpload, bind_eq_ok, exists_unit, refuseIf_eq_ok, not_or,
      not_not, not_le, not_lt] at target upload
    obtain ⟨⟨app, module⟩, bucket⟩ := target
    obtain ⟨partSize, maxBytes, spec⟩ := upload
    have own := Except.ok.inj spec
    exact {
      bucket := by rw [← own]; exact bucket
      authentication := fun none => authentication ⟨type, none⟩
      partSize := by rw [← own]; exact partSize
      maxBytes := by rw [← own]; exact maxBytes
      applicationId := app
      moduleTarget := module }
  | proxy =>
    simp only [type, checkTarget, newUpload, bind_eq_ok, exists_unit, refuseIf_eq_ok, not_and,
      not_not] at target upload
    obtain ⟨one, _, known, action⟩ := target
    refine ⟨by rw [← Except.ok.inj upload]; rfl, ?_⟩
    by_cases app : route.applicationId = ""
    · have module : route.moduleTarget ≠ "" := fun none => one (by simp [app, none])
      exact .inr ⟨app, known module, action module⟩
    · have module : route.moduleTarget = "" := by
        by_contra named
        exact one (by simp [app, named])
      refine .inl ⟨app, module, step, among, ?_, checked.application app⟩
      rw [req]
      refine ⟨user, fields, rfl, rfl, ?_, checked.applicationId.symm⟩
      rw [Route.key, checked.accountId, checked.nameSpace, checked.routeId]

theorem Route.HadApplication.congr {before after : Route} (had : before.HadApplication steps)
    (key : after.key = before.key) (applicationId : after.applicationId = before.applicationId) :
    after.HadApplication steps := by
  obtain ⟨step, among, names, exists_⟩ := had
  have accountId : after.accountId = before.accountId := congrArg (·.1) key
  have nameSpace : after.nameSpace = before.nameSpace := congrArg (·.2.1) key
  exact ⟨step, among, by rwa [key, applicationId], by rwa [accountId, nameSpace, applicationId]⟩

theorem Route.IsCoherent.target (coherent : route.IsCoherent steps)
    (one : ¬(route.applicationId = "" ∧ route.moduleTarget = "")) :
    route.applicationId ≠ "" ∧ route.moduleTarget = "" ∧ route.HadApplication steps ∨
      route.applicationId = "" ∧ route.moduleTarget ∈ kModuleTargets ∧ route.moduleAction ≠ "" := by
  have kind := coherent.kind
  cases type : route.type with
  | upload =>
    rw [type] at kind
    exact absurd ⟨kind.applicationId, kind.moduleTarget⟩ one
  | proxy =>
    rw [type] at kind
    exact kind.target

/-- An update that leaves no bucket with a route that sends on keeps a route coherent. -/
theorem updatedRoute_coherent (among : step ∈ steps) {user : Caller}
    (req : step.request = .update (some user) administrator header (.object fields))
    (came : updatedRoute step.surroundings routes user header fields = .ok route)
    (coherent : AreCoherent steps routes)
    (unbucketed : ∀ found, findRouteByRouteId routes user.accountId header
        (stringField fields "routeId" "") = some found →
      (if contains fields "type" then routeTypeFromString (stringField fields "type" "")
        else some found.type) = some .proxy →
      (if contains fields "bucket" then stringField fields "bucket" "" else found.upload.bucket) =
        "") :
    (∃ found ∈ routes, found.key ≠ route.key ∧ found.ern = route.ern) ∨ route.IsCoherent steps := by
  obtain ⟨found, named, targeted, kind, uploaded, checked, own, path, untaken, target, scope,
    upload, check, stored⟩ := updatedRoute_ok came
  obtain ⟨mem, key⟩ := findRouteByRouteId_key own
  have before := coherent found mem
  obtain ⟨pathFrame, methods, isPath⟩ := withPath_ok path
  obtain ⟨targetFrame, action, targets⟩ := withTarget_ok target
  obtain ⟨kindFrame, types⟩ := withKind_ok scope
  obtain ⟨uploadFrame, bucket⟩ := withUpload_ok upload
  obtain ⟨checkFrame, sameBucket, whenUpload, whenProxy⟩ := checkCoherent_ok check
  have parts : route.path = named.path ∧ route.methods = named.methods ∧ route.type = kind.type ∧
      route.type = checked.type ∧ route.upload = checked.upload ∧
      route.authentication = checked.authentication ∧
      route.applicationId = checked.applicationId ∧ route.moduleTarget = checked.moduleTarget ∧
      checked.applicationId = targeted.applicationId ∧
      checked.moduleTarget = targeted.moduleTarget ∧
      route.moduleAction = targeted.moduleAction := by
    rw [stored, checkFrame, uploadFrame, kindFrame, targetFrame]
    exact ⟨rfl, rfl, rfl, rfl, rfl, rfl, rfl, rfl, rfl, rfl, rfl⟩
  obtain ⟨samePath, sameMethods, kindType, type, sameUpload, authentication, app, module,
    application', module', action'⟩ := parts
  have keptTarget : named.applicationId = found.applicationId ∧
      named.moduleTarget = found.moduleTarget ∧ named.accountId = found.accountId ∧
      named.nameSpace = found.nameSpace := by
    rw [pathFrame]
    exact ⟨rfl, rfl, rfl, rfl⟩
  have keptType : targeted.type = found.type := by
    rw [targetFrame, pathFrame]
  have keptBucket : kind.upload.bucket = found.upload.bucket := by
    rw [kindFrame, targetFrame, pathFrame]
  by_cases moved : found.key = route.key
  · refine .inr ⟨?_, ?_, ?_⟩
    · rw [samePath]
      rcases isPath with slash | same
      · exact slash
      · exact same ▸ before.path
    · rw [sameMethods]
      rcases methods with read | same
      · exact readMethods_known read
      · exact same ▸ before.methods
    · cases is : route.type with
      | upload =>
        obtain ⟨noApplication, noModule, bucket, protected_, partSize, maxBytes⟩ :=
          whenUpload (type ▸ is)
        exact {
          bucket := by rw [sameUpload]; exact bucket
          authentication := by rw [authentication]; exact protected_
          partSize := by rw [sameUpload]; exact partSize
          maxBytes := by rw [sameUpload]; exact maxBytes
          applicationId := app.trans noApplication
          moduleTarget := module.trans noModule }
      | proxy =>
        have one := whenProxy (type ▸ is)
        have becomes : (if contains fields "type" then
            routeTypeFromString (stringField fields "type" "") else some found.type) =
              some .proxy := by
          rcases types with ⟨read, named⟩ | ⟨same, unnamed⟩
          · rw [if_pos named, read, ← kindType, is]
          · rw [if_neg unnamed, ← keptType, ← same, ← kindType, is]
        refine ⟨?_, ?_⟩
        · rw [sameUpload, sameBucket, bucket, keptBucket]
          exact unbucketed found own becomes
        · rw [← app, ← module] at one
          rw [← app] at application'
          rw [← module] at module'
          rw [← application', ← module', keptTarget.1, keptTarget.2.1, keptTarget.2.2.1,
            keptTarget.2.2.2] at targets
          rw [← module', ← action'] at action
          rcases targets with ⟨sameApplication, sameModule⟩ | ⟨read, none, exists_⟩ | ⟨none, known⟩
          · rcases before.target (sameApplication ▸ sameModule ▸ one) with
              ⟨some, none, had⟩ | ⟨none, known, _⟩
            · exact .inl ⟨sameApplication ▸ some, sameModule ▸ none,
                had.congr moved.symm sameApplication⟩
            · have own : route.moduleTarget ∈ kModuleTargets := sameModule ▸ known
              exact .inr ⟨sameApplication ▸ none, own,
                action fun empty => absurd (empty ▸ own) (by decide)⟩
          · refine .inl ⟨fun empty => one ⟨empty, none⟩, none, step, among, ?_, ?_⟩
            · rw [req]
              exact ⟨user, fields, rfl, rfl, key.symm.trans moved, read.symm⟩
            · have account : route.accountId = found.accountId := congrArg (·.1) moved.symm
              have home : route.nameSpace = found.nameSpace := congrArg (·.2.1) moved.symm
              rw [account, home]
              exact exists_
          · exact .inr ⟨none, known, action fun empty => absurd (empty ▸ known) (by decide)⟩
  · refine .inl ⟨found, mem, moved, ?_⟩
    rw [stored, checkFrame, uploadFrame, kindFrame, targetFrame, pathFrame]

/-! ### Declared routes -/

theorem mem_of_ifContains {key : String} {value : Json}
    (named : Json.ifContains key fields = some value) : (key, value) ∈ fields := by
  obtain ⟨mem, found, rfl⟩ := Option.map_eq_some_iff.mp named
  have own : mem.1 = key := by simpa using List.find?_some found
  rw [← own]
  exact mem_of_find?_eq_some found

theorem settingProblem_path {name : String} {value : Json}
    (sound : settingProblem serialize name "path" value = none) :
    ∃ text, value = .string text ∧ isPath text := by
  cases value with
  | string text =>
    refine ⟨text, rfl, ?_⟩
    by_contra other
    have problem : settingProblem serialize name "path" (.string text) =
        some (name ++ ": \"" ++ "path" ++ "\"" ++ " has to be a path starting with '/'") :=
      if_neg other
    rw [problem] at sound
    cases sound
  | _ => cases sound

theorem settingProblem_methods {name : String} {entries : List Json}
    (sound : settingProblem serialize name "methods" (.array entries) = none) :
    ∀ text, .string text ∈ entries → text.toUpper ∈ kKnownMethods := by
  intro text mem
  have none := List.find?_eq_none.mp (Option.map_eq_none_iff.mp sound) (.string text) mem
  simpa using none

variable {declared : DeclaredRoute}

/-- A declaration without a problem gives each route a path, and methods there are. -/
theorem settings_sound {creates : List Declared}
    (sound : declarationProblem serialize creates = none) (mem : .route declared ∈ creates) :
    (∀ fallback, isPath (stringField declared.settings "path" fallback)) ∧
      ∀ entries, Json.ifContains "methods" declared.settings = some (.array entries) →
        ∀ method ∈ wantedMethods entries, method ∈ kKnownMethods := by
  have whole : settingsProblem serialize declared = none :=
    List.findSome?_eq_none_iff.mp sound (.route declared) mem
  unfold settingsProblem at whole
  cases settings : declared.settings.findSome? fun setting =>
      settingProblem serialize declared.name setting.1 setting.2 with
  | some problem =>
    rw [settings] at whole
    cases whole
  | none =>
  rw [settings] at whole
  have path : (if contains declared.settings "path" then none
    else some (declared.name ++ ": a route needs \"path\"")) = none := whole
  have each := List.findSome?_eq_none_iff.mp settings
  refine ⟨fun fallback => ?_, fun entries named method own => ?_⟩
  · have named : contains declared.settings "path" := by
      by_contra unnamed
      simp [unnamed] at path
    obtain ⟨value, read⟩ := Option.isSome_iff_exists.mp named
    obtain ⟨text, rfl, slash⟩ := settingProblem_path (each _ (mem_of_ifContains read))
    rw [stringField, read]
    exact slash
  · rw [wantedMethods, mem_insertionSort, mem_dedup, mem_map] at own
    obtain ⟨text, text', rfl⟩ := own
    exact settingProblem_methods (each _ (mem_of_ifContains named)) text (mem_stringsOf.mp text')

/-- Settings without a problem keep a route coherent, unless it is an upload and is to be public. -/
theorem applySettings_coherent {settings : Fields} {start : Route}
    (slash : ∀ fallback, isPath (stringField settings "path" fallback))
    (known : ∀ entries, Json.ifContains "methods" settings = some (.array entries) →
      ∀ method ∈ wantedMethods entries, method ∈ kKnownMethods)
    (methods : ∀ method ∈ start.methods, method ∈ kKnownMethods) (kind : match start.type with
      | .upload => start.IsUpload ∧
          routeAuthenticationFromString (stringField settings "authentication" "") ≠ some .none
      | .proxy => start.IsProxy steps) :
    (applySettings settings start).1.IsCoherent steps := by
  have frame := applySettings_fst settings start
  have wanted := applySettings_methods settings start
  generalize (applySettings settings start).1 = after at frame wanted ⊢
  refine ⟨?_, ?_, ?_⟩
  · rw [frame]
    exact slash _
  · rcases wanted with same | ⟨entries, named, wanted⟩
    · rw [same]
      exact methods
    · rw [wanted]
      exact known entries named
  · have sameType : after.type = start.type := by rw [frame]
    rw [sameType]
    cases type : start.type with
    | upload =>
      rw [type] at kind
      obtain ⟨upload, guarded⟩ := kind
      have authentication : after.authentication ≠ .none := by
        rw [frame]
        cases named : routeAuthenticationFromString (stringField settings "authentication" "") with
        | none => exact upload.authentication
        | some wanted => exact fun none => guarded (named.trans (congrArg some none))
      exact {
        bucket := by rw [frame]; exact upload.bucket
        authentication := authentication
        partSize := by rw [frame]; exact upload.partSize
        maxBytes := by rw [frame]; exact upload.maxBytes
        applicationId := by rw [frame]; exact upload.applicationId
        moduleTarget := by rw [frame]; exact upload.moduleTarget }
    | proxy =>
      rw [type] at kind
      have key : after.key = start.key := by
        rw [frame]
        rfl
      refine ⟨by rw [frame]; exact kind.bucket, ?_⟩
      rcases kind.target with ⟨some, none, had⟩ | ⟨none, known, action⟩
      · exact .inl ⟨by rw [frame]; exact some, by rw [frame]; exact none,
          had.congr key (by rw [frame])⟩
      · exact .inr ⟨by rw [frame]; exact none, by rw [frame]; exact known,
          by rw [frame]; exact action⟩

variable {owner : InfrastructureOwner} (id : owner.id ≠ "")
  (own : ∀ route : Route, route.key = (owner.accountId, owner.nameSpace, declared.name) →
    route.applicationId = owner.id → route.HadApplication steps)
  (slash : ∀ fallback, isPath (stringField declared.settings "path" fallback))
  (known : ∀ entries, Json.ifContains "methods" declared.settings = some (.array entries) →
    ∀ method ∈ wantedMethods entries, method ∈ kKnownMethods)

include id own slash known

/-- A declared route is coherent, unless it is an upload that is taken for the owner's and is to be
public. -/
theorem declaredRoute_coherent (coherent : AreCoherent steps routes)
    (guarded : ∀ found, findRouteByRouteId routes owner.accountId owner.nameSpace declared.name =
      some found → found.type = .upload →
      routeAuthenticationFromString (stringField declared.settings "authentication" "") ≠
        some .none) : (declaredRoute step.surroundings owner declared routes).IsCoherent steps := by
  unfold declaredRoute
  cases found : findRouteByRouteId routes owner.accountId owner.nameSpace declared.name with
  | none =>
    refine applySettings_coherent slash known (fun _ none => nomatch none) ⟨rfl, .inl ?_⟩
    exact ⟨id, rfl, own _ rfl rfl⟩
  | some route =>
    have before := coherent route (findRouteByRouteId_key found).1
    have kind := before.kind
    refine applySettings_coherent slash known before.methods ?_
    change match route.type with
      | .upload => route.IsUpload ∧
          routeAuthenticationFromString (stringField declared.settings "authentication" "") ≠
            some .none
      | .proxy => route.IsProxy steps
    cases type : route.type with
    | upload =>
      rw [type] at kind
      exact ⟨kind, guarded route found type⟩
    | proxy =>
      rw [type] at kind
      exact kind

theorem ensureOwnedRoute_coherent {options : ApplyOptions} {plan : InfrastructurePlan}
    (guarded : ∀ found, findRouteByRouteId routes owner.accountId owner.nameSpace declared.name =
      some found → found.type = .upload → found.target = owner.id →
      routeAuthenticationFromString (stringField declared.settings "authentication" "") ≠
        some .none) (coherent : AreCoherent steps routes) :
    AreCoherent steps
      (ensureOwnedRoute step.surroundings options owner declared plan routes).2.2 := by
  rcases ensureOwnedRoute_routes step.surroundings options owner declared plan routes with
    kept | ⟨whose, _, stored⟩
  · rw [kept]
    exact coherent
  · rw [stored]
    refine upsertRoute_forall coherent (declaredRoute_coherent id own slash known coherent ?_)
    intro found named upload
    refine guarded found named upload ((whose found named).resolve_left fun empty => ?_)
    rw [Route.target, upload] at empty
    exact absurd (String.append_eq_empty_iff.mp empty).1 (by decide)

end Writers

/-! ### Every run -/

/-- An update leaves no bucket with a route that sends on, and a declaration makes no upload public
that is taken for the owner's. -/
def RouteStep.Guarded (step : RouteStep) (routes : List Route) : Prop :=
  match step.request with
  | .create _ _ _ _ => True
  | .update caller administrator header body => ∀ user fields found, caller = some user →
      administrator → body = .object fields →
      findRouteByRouteId routes user.accountId header (stringField fields "routeId" "") =
        some found →
      (if contains fields "type" then routeTypeFromString (stringField fields "type" "")
        else some found.type) = some .proxy →
      (if contains fields "bucket" then stringField fields "bucket" "" else found.upload.bucket) =
        ""
  | .delete _ _ _ _ => True
  | .apply caller administrator header applicationId options decl =>
      ∀ user app creates, caller = some user → administrator →
      step.surroundings.findApplication user.accountId header applicationId = some app →
      decl = .ok (some creates) →
      EachDeclared step.surroundings options (app.owner user header applicationId)
        (fun declared routes => ∀ found,
          findRouteByRouteId routes user.accountId header declared.name = some found →
          found.type = .upload → found.target = applicationId →
          routeAuthenticationFromString (stringField declared.settings "authentication" "") ≠
            some .none) creates routes

/-- A request that is guarded keeps stored routes coherent. -/
theorem serve_coherent {step : RouteStep} (among : step ∈ steps)
    {routes : List Route} (guarded : step.Guarded routes) (coherent : AreCoherent steps routes) :
    AreCoherent steps (step.serve routes) := by
  unfold RouteStep.Guarded at guarded
  have served := step.serves routes
  generalize step.serve routes = after at served ⊢
  cases served with
  | kept => exact coherent
  | created req came =>
    exact upsertRoute_forall coherent (newRoute_coherent among req came)
  | updated req came =>
    rw [req] at guarded
    rcases updatedRoute_coherent among req came coherent
      (fun found own => guarded _ _ found rfl rfl rfl own) with ⟨found, mem, keys, ern⟩ | own
    · rw [upsertRoute, if_pos (isRefusedBy_of_ern mem keys ern)]
      exact coherent
    · exact upsertRoute_forall coherent own
  | fewer fewer => exact coherent.sublist fewer
  | @applied user header applicationId options creates app req id found sound =>
    rw [req] at guarded
    refine applyInfrastructure_keeps (fun declared mem plan routes condition coherent => ?_)
      (fun _ _ fewer coherent => coherent.sublist fewer)
      (guarded _ _ _ rfl rfl found rfl) coherent
    obtain ⟨slash, known⟩ := settings_sound sound mem
    refine ensureOwnedRoute_coherent id (fun route key own => ?_) slash known condition coherent
    refine ⟨step, among, ?_, ?_⟩
    · rw [req]
      exact ⟨user, creates, declared, rfl, rfl, mem, key.symm, own.symm⟩
    · have account : route.accountId = user.accountId := congrArg (·.1) key
      have home : route.nameSpace = header := congrArg (·.2.1) key
      rw [account, home, own]
      exact Option.isSome_of_eq_some found

/-- In every run in which each request is guarded, every stored route is coherent. -/
theorem routes_coherent (steps : List RouteStep) (guarded : EachServed RouteStep.Guarded steps []) :
    AreCoherent steps (serveAll steps []) := by
  have none : AreCoherent steps [] := nofun
  exact serveAll_keeps (fun step among routes guarded coherent =>
    serve_coherent among guarded coherent) guarded none

/-! ### A route with a bucket and an application -/

/-- An administrator changes the route with a name. -/
def changing (fields : Fields) : RouteStep where
  surroundings := someSurroundings
  request := .update (some ⟨"admin", "a", "eu"⟩) true "dev"
    (.object (("routeId", .string "api") :: fields))

/-- A route is published, and moved to another application. -/
def moving : List RouteStep :=
  [publishing "a" "api" "/api", changing [("applicationId", .string "stock")]]

theorem moving_coherent : AreCoherent moving (serveAll moving []) := by
  refine routes_coherent moving ⟨trivial, ?_, trivial⟩
  rintro user fields found ⟨⟩ - ⟨⟩ own -
  have none : ∀ route ∈ (publishing "a" "api" "/api").serve [], route.upload.bucket = "" := by
    decide +kernel
  exact none found (findRouteByRouteId_key own).1

/-- An update names a bucket on a route that sends on, which a create refuses. -/
theorem bucket_named_on_proxy :
    ¬∀ steps : List RouteStep, AreCoherent steps (serveAll steps []) := by
  intro always
  have bucketed : (serveAll [publishing "a" "api" "/api", changing [("bucket", .string "ern:b")]]
      []).any fun route => decide (route.type = .proxy) && decide (route.upload.bucket ≠ "") := by
    decide +kernel
  obtain ⟨route, mem, both⟩ := any_eq_true.mp bucketed
  obtain ⟨type, bucket⟩ := Bool.and_eq_true_iff.mp both
  have kind := (always _ route mem).kind
  rw [of_decide_eq_true type] at kind
  exact of_decide_eq_true bucket kind.bucket

end Euclid.Eag
