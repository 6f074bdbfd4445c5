/-
This file proves that routes stay apart: a path and a method have one route among those a
listener of a namespace sees. The check of a new route passes over the routes that have its own
id, in other accounts and namespaces too, and the check of a declared route over every other
account and namespace, so routes stay apart where none of those clashes.
-/

import Euclid.Eag.Infrastructure

namespace Euclid.Eag

open List

open Bus (Json)
open Eqs (Caller)

/-! ### Routes that are apart -/

/-- Two routes have names of their own, and do not clash where one listener sees both. -/
def Route.Apart (first second : Route) : Prop :=
  first.key ≠ second.key ∧ (meets first.nameSpace second.nameSpace → ¬first.Clashes second)

open Route

theorem meets_comm {first second : String} : meets first second = meets second first := by
  unfold meets
  rw [Bool.or_comm (decide (first = "")), decide_eq_decide.mpr (@eq_comm _ first second)]

theorem Route.Apart.symm {first second : Route} (apart : first.Apart second) : second.Apart first :=
  ⟨apart.1.symm, fun together clash => apart.2 (meets_comm ▸ together) clash.symm⟩

variable {nameSpace : String}

theorem meets_of_isSeenBy (bound : nameSpace ≠ "") {first second : Route}
    (seen : first.isSeenBy nameSpace) (alsoSeen : second.isSeenBy nameSpace) :
    meets first.nameSpace second.nameSpace := by
  simp only [isSeenBy, Bool.or_eq_true, decide_eq_true_eq, bound, false_or] at seen alsoSeen
  simp only [meets, Bool.or_eq_true, decide_eq_true_eq]
  rcases seen with none | own
  · exact .inl (.inl none)
  · rcases alsoSeen with none | other
    · exact .inl (.inr none)
    · exact .inr (own.trans other.symm)

variable {routes : List Route}

theorem unambiguous_of_apart (bound : nameSpace ≠ "")
    (apart : routes.Pairwise Apart) : Unambiguous nameSpace routes :=
  apart.imp fun apart seen alsoSeen => apart.2 (meets_of_isSeenBy bound seen alsoSeen)

variable {route : Route}

theorem upsertRoute_apart (apart : routes.Pairwise Apart)
    (new : ∀ other ∈ routes, other.key ≠ route.key → meets route.nameSpace other.nameSpace →
      ¬route.Clashes other) : (upsertRoute routes route).2.Pairwise Apart := by
  have symmetric : ∀ {first second : Route}, first.Apart second → second.Apart first :=
    Apart.symm
  rcases upsertRoute_cases routes route with kept | ⟨before, found, after, split, key, stored⟩ |
    ⟨fresh, stored⟩
  · rw [kept]
    exact apart
  · rw [split, pairwise_middle symmetric, pairwise_cons] at apart
    rw [stored, pairwise_middle symmetric, pairwise_cons]
    refine ⟨fun other mem => ?_, apart.2⟩
    have among : other ∈ routes := by
      rw [split]
      exact perm_middle.mem_iff.mpr (.tail _ mem)
    have keys : route.key ≠ other.key := key ▸ (apart.1 other mem).1
    exact ⟨keys, new other among keys.symm⟩
  · rw [stored, pairwise_append]
    refine ⟨apart, pairwise_singleton _ _, fun other mem last among => ?_⟩
    obtain rfl := mem_singleton.mp among
    exact .symm ⟨(fresh other mem).symm, new other mem (fresh other mem)⟩

/-! ### What the checks pass over -/

/-- None of the routes a check passes over clashes with a path and methods in a namespace. -/
def Unopposed (passedOver : Route → Prop) (routes : List Route) (nameSpace path : String)
    (methods : List String) : Prop :=
  ∀ other ∈ routes, passedOver other → meets nameSpace other.nameSpace →
    ¬(path = other.path ∧ overlap methods other.methods)

/-- `pathTaken` passes over every route with the id, whoever's it is. -/
def Route.isNamesake (accountId nameSpace routeId : String) (other : Route) : Prop :=
  other.routeId = routeId ∧ other.key ≠ (accountId, nameSpace, routeId)

/-- `overlapped` passes over the routes of other accounts and namespaces. -/
def Route.isForeign (owner : InfrastructureOwner) (other : Route) : Prop :=
  ¬(other.accountId = owner.accountId ∧ other.nameSpace = owner.nameSpace)

theorem pathTaken_eq_none {path : String} {methods : List String}
    {routeId : String} (untaken : pathTaken routes path methods nameSpace routeId = none)
    {other : Route} (among : other ∈ routes) (different : other.routeId ≠ routeId)
    (together : meets nameSpace other.nameSpace) :
    ¬(path = other.path ∧ overlap methods other.methods) := by
  rintro ⟨rfl, shared⟩
  rw [pathTaken, Option.map_eq_none_iff, List.find?_eq_none] at untaken
  refine untaken other ?_ ?_
  · exact mem_filter.mpr ⟨among, isPrefixOf_iff_prefix.mpr (prefix_refl _)⟩
  · simp [different, together, shared]

variable {owner : InfrastructureOwner}

theorem overlapped_eq_none
    (clear : overlapped routes owner route = none) {other : Route} (among : other ∈ routes)
    (accountId : other.accountId = owner.accountId) (nameSpace : other.nameSpace = owner.nameSpace)
    (different : other.routeId ≠ route.routeId) : ¬route.Clashes other := by
  rintro ⟨path, shared⟩
  rw [overlapped, List.find?_eq_none] at clear
  rw [overlap_comm] at shared
  exact clear other among (by simp [accountId, nameSpace, different, path, shared])

/-! ### Each writer -/

section Writers

variable {outside : Surroundings} {routes : List Route} {header : String} {fields : Fields}
  {user : Caller}

theorem newRoute_apart (came : newRoute outside routes user header fields = .ok route)
    (unopposed : Unopposed (isNamesake route.accountId route.nameSpace route.routeId) routes
      route.nameSpace route.path route.methods) :
    ∀ other ∈ routes, other.key ≠ route.key → meets route.nameSpace other.nameSpace →
      ¬route.Clashes other := by
  intro other among keys together
  by_cases namesake : other.routeId = route.routeId
  · exact unopposed other among ⟨namesake, keys⟩ together
  · exact pathTaken_eq_none (newRoute_ok came).untaken among namesake together

variable (came : updatedRoute outside routes user header fields = .ok route)

include came in
theorem updatedRoute_frame :
    ∃ found named, findRouteByRouteId routes user.accountId header (stringField fields "routeId" "")
        = some found ∧ withPath outside fields found = .ok named ∧
      pathTaken routes named.path named.methods named.nameSpace
        (stringField fields "routeId" "") = none ∧
      route.ern = found.ern ∧ route.accountId = found.accountId ∧ route.routeId = found.routeId ∧
      named.nameSpace = found.nameSpace ∧ route.path = named.path ∧
      route.methods = named.methods := by
  obtain ⟨found, named, targeted, kind, uploaded, coherent, own, path, untaken, target, scope,
    upload, checked, stored⟩ := updatedRoute_ok came
  refine ⟨found, named, own, path, untaken, ?_⟩
  rw [stored, (checkCoherent_ok checked).1, (withUpload_ok upload).1, (withKind_ok scope).1,
    (withTarget_ok target).1, (withPath_ok path).1]
  exact ⟨rfl, rfl, rfl, rfl, rfl, rfl⟩

include came in
theorem updatedRoute_apart (apart : routes.Pairwise Apart)
    (unopposed : ∀ found named, findRouteByRouteId routes user.accountId header
        (stringField fields "routeId" "") = some found → withPath outside fields found = .ok named →
      Unopposed (isNamesake found.accountId found.nameSpace found.routeId) routes
        found.nameSpace named.path named.methods) :
    (upsertRoute routes route).2.Pairwise Apart := by
  obtain ⟨found, named, own, path, untaken, ern, accountId, routeId, nameSpace, samePath,
    methods⟩ := updatedRoute_frame came
  obtain ⟨among, key⟩ := findRouteByRouteId_key own
  by_cases moved : found.key = route.key
  · have home : route.nameSpace = found.nameSpace := (congrArg (·.2.1) moved).symm
    refine upsertRoute_apart apart fun other mem keys together clash => ?_
    rw [Clashes, samePath, methods] at clash
    rw [home] at together
    by_cases namesake : other.routeId = found.routeId
    · exact unopposed found named own path other mem
        ⟨namesake, fun same => keys (same.trans moved)⟩ together clash
    · have id : found.routeId = stringField fields "routeId" "" := congrArg (·.2.2) key
      exact pathTaken_eq_none untaken mem (id ▸ namesake) (nameSpace ▸ together) clash
  · rw [upsertRoute, if_pos (isRefusedBy_of_ern among moved ern.symm)]
    exact apart

theorem ensureOwnedRoute_apart {options : ApplyOptions}
    {declared : DeclaredRoute} {plan : InfrastructurePlan}
    (unopposed : Unopposed (isForeign owner) routes owner.nameSpace
      (declaredRoute outside owner declared routes).path
      (declaredRoute outside owner declared routes).methods) (apart : routes.Pairwise Apart) :
    (ensureOwnedRoute outside options owner declared plan routes).2.2.Pairwise Apart := by
  rcases ensureOwnedRoute_routes outside options owner declared plan
    routes with kept | ⟨_, clear, stored⟩
  · rw [kept]
    exact apart
  · rw [stored]
    have key := declaredRoute_key outside owner declared routes
    have nameSpace : (declaredRoute outside owner declared routes).nameSpace =
      owner.nameSpace := congrArg (·.2.1) key
    refine upsertRoute_apart apart fun other mem keys together => ?_
    by_cases foreign : other.isForeign owner
    · exact unopposed other mem foreign (nameSpace ▸ together)
    · obtain ⟨account, home⟩ := not_not.mp foreign
      have name : (declaredRoute outside owner declared routes).routeId = declared.name :=
        congrArg (·.2.2) key
      refine overlapped_eq_none clear mem account home fun id => keys ?_
      rw [Route.key, account, home, id, name, key]

end Writers

/-! ### Every run -/

/-- No route that the check of a request passes over clashes with what the request asks for. -/
def RouteStep.Unopposed (step : RouteStep) (routes : List Route) : Prop :=
  match step.request with
  | .create caller administrator header body => ∀ user fields methods, caller = some user →
      administrator → body = .object fields →
      readMethods step.surroundings.serialize fields = .ok methods →
      Eag.Unopposed (isNamesake user.accountId (stringField fields "namespace" header)
          (stringField fields "routeId" "")) routes
        (stringField fields "namespace" header) (stringField fields "path" "") methods
  | .update caller administrator header body => ∀ user fields found named, caller = some user →
      administrator → body = .object fields →
      findRouteByRouteId routes user.accountId header (stringField fields "routeId" "") =
        some found → withPath step.surroundings fields found = .ok named →
      Eag.Unopposed (isNamesake found.accountId found.nameSpace found.routeId) routes
        found.nameSpace named.path named.methods
  | .delete _ _ _ _ => True
  | .apply caller administrator header applicationId options decl =>
      ∀ user app creates, caller = some user → administrator →
      step.surroundings.findApplication user.accountId header applicationId = some app →
      decl = .ok (some creates) →
      EachDeclared step.surroundings options (app.owner user header applicationId)
        (fun declared routes =>
          Eag.Unopposed (isForeign (app.owner user header applicationId)) routes header
            (declaredRoute step.surroundings (app.owner user header applicationId) declared
              routes).path
            (declaredRoute step.surroundings (app.owner user header applicationId) declared
              routes).methods) creates routes

theorem serve_apart {step : RouteStep} {routes : List Route} (unopposed : step.Unopposed routes)
    (apart : routes.Pairwise Apart) : (step.serve routes).Pairwise Apart := by
  unfold RouteStep.Unopposed at unopposed
  have served := step.serves routes
  generalize step.serve routes = after at served ⊢
  cases served with
  | kept => exact apart
  | created req came =>
    rw [req] at unopposed
    have checked := newRoute_ok came
    refine upsertRoute_apart apart (newRoute_apart came ?_)
    rw [checked.accountId, checked.nameSpace, checked.routeId, checked.path]
    exact unopposed _ _ _ rfl rfl rfl checked.methods
  | updated req came =>
    rw [req] at unopposed
    exact updatedRoute_apart came apart fun found named own path =>
      unopposed _ _ found named rfl rfl rfl own path
  | fewer fewer => exact apart.sublist fewer
  | applied req id found sound =>
    rw [req] at unopposed
    exact applyInfrastructure_keeps
      (fun declared _ plan routes clear => ensureOwnedRoute_apart clear)
      (fun _ _ fewer apart => apart.sublist fewer) (unopposed _ _ _ rfl rfl found rfl) apart

/-- In every run in which nothing that a check passes over opposes a request, no listener of a
namespace sees two routes for one request. And whatever routes are so apart, and however those of
one length are ordered, the table answers with the longest route that answers. -/
theorem routes_unambiguous (steps : List RouteStep) : (EachServed RouteStep.Unopposed steps [] →
      ∀ nameSpace : String, nameSpace ≠ "" → Unambiguous nameSpace (serveAll steps [])) ∧
    ∀ (routes ordered : List Route) (path method nameSpace : String) (route : Route),
      IsOrdering routes ordered → Unambiguous nameSpace routes →
      ((matchIn ordered path method nameSpace).route = some route ↔
        route ∈ routes ∧ route.Answers path method nameSpace ∧
          ∀ other ∈ routes, other.Answers path method nameSpace →
            other.path.utf8ByteSize ≤ route.path.utf8ByteSize) := by
  refine ⟨fun unopposed nameSpace bound => unambiguous_of_apart bound ?_,
    fun routes ordered path method nameSpace route ordering unambiguous =>
      matchIn_longest ordering unambiguous route⟩
  exact serveAll_keeps (fun step _ routes clear apart => serve_apart clear apart)
    unopposed List.Pairwise.nil

/-! ### Two accounts, one path -/

theorem publishing_unopposed (accountId routeId path : String)
    (own : ∀ other ∈ routes, other.routeId ≠ routeId) :
    (publishing accountId routeId path).Unopposed routes := by
  rintro user fields methods ⟨⟩ - ⟨⟩ - other mem ⟨namesake, -⟩
  exact absurd namesake (own other mem)

/-- Two accounts publish two paths of one namespace, and each path is answered by its route. -/
theorem two_paths_unambiguous : Unambiguous "dev"
        (serveAll [publishing "a" "api" "/api", publishing "b" "shop" "/shop"] []) ∧
      ∀ route : Route, (matchIn (serveAll [publishing "a" "api" "/api"] []) "/api/cart" "GET"
          "dev").route = some route ↔
        route ∈ serveAll [publishing "a" "api" "/api"] [] ∧
          route.Answers "/api/cart" "GET" "dev" ∧
          ∀ other ∈ serveAll [publishing "a" "api" "/api"] [],
            other.Answers "/api/cart" "GET" "dev" →
              other.path.utf8ByteSize ≤ route.path.utf8ByteSize := by
  have first : (publishing "a" "api" "/api").Unopposed [] :=
    publishing_unopposed _ _ _ fun _ none => nomatch none
  have second : (publishing "b" "shop" "/shop").Unopposed
      ((publishing "a" "api" "/api").serve []) :=
    publishing_unopposed _ _ _ (by decide +kernel)
  have one :=
    (routes_unambiguous [publishing "a" "api" "/api"]).1 ⟨first, trivial⟩ "dev" (by decide)
  have single : (serveAll [publishing "a" "api" "/api"] []).length = 1 := by decide +kernel
  obtain ⟨route, routes⟩ := length_eq_one_iff.mp single
  refine ⟨(routes_unambiguous [publishing "a" "api" "/api", publishing "b" "shop" "/shop"]).1
    ⟨first, second, trivial⟩ "dev" (by decide), fun found =>
    (routes_unambiguous []).2 _ _ "/api/cart" "GET" "dev" found ⟨.refl _, ?_⟩ one⟩
  rw [routes]
  exact pairwise_singleton _ _

instance (nameSpace : String) (routes : List Route) : Decidable (Unambiguous nameSpace routes) :=
  inferInstanceAs (Decidable (routes.Pairwise fun first second => first.isSeenBy nameSpace →
    second.isSeenBy nameSpace → ¬(first.path = second.path ∧ overlap first.methods second.methods)))

/-- Two accounts publish one path under one name, and a listener sees two routes for it. -/
theorem same_name_ambiguous : ¬∀ (steps : List RouteStep) (nameSpace : String), nameSpace ≠ "" →
      Unambiguous nameSpace (serveAll steps []) := by
  intro always
  have kept := always [publishing "a" "api" "/api", publishing "b" "api" "/api"] "dev" (by decide)
  revert kept
  decide +kernel

end Euclid.Eag
