/-
This file is the route table of the API gateway: what a route is, and which route a request
belongs to.

A route claims a path as a prefix that ends on a segment boundary. The table is sorted by
falling length of the path, so the first route that claims a request is one of the longest.
Nothing is said about the order of routes of one length: that only one of them can claim a
request is what keeping routes apart is for.
-/

import Mathlib.Data.Finset.Basic
import Mathlib.Data.List.Pairwise

namespace Euclid.Eag

open List Bool

/-! ### Routes -/

/-- Forward the request, or write its body into a bucket. -/
inductive RouteType where
  | proxy
  | upload
  deriving DecidableEq

/-- What a caller must present before a request is forwarded. -/
inductive RouteAuthentication where
  | none
  | euclid
  | basic
  deriving DecidableEq

/-- `RouteTypeFromString`: any case. -/
def routeTypeFromString (type : String) : Option RouteType :=
  match type.toUpper with
  | "PROXY" => some .proxy
  | "UPLOAD" => some .upload
  | _ => none

/-- `RouteAuthenticationFromString`: any case. -/
def routeAuthenticationFromString (authentication : String) : Option RouteAuthentication :=
  match authentication.toUpper with
  | "NONE" => some .none
  | "EUCLID" => some .euclid
  | "BASIC" => some .basic
  | _ => none

/-- Where an upload route puts what it receives, and what it accepts. -/
structure UploadSpec where
  bucket : String
  keyPrefix : String
  maxBytes : Int
  partSize : Int
  contentTypes : List String
  deriving DecidableEq

/-- The upload part of a route that is not one. -/
def UploadSpec.blank : UploadSpec := ⟨"", "", 0, 0, []⟩

/-- One resource the gateway serves. The dates of a route are left out. -/
structure Route where
  routeId : String
  ern : String
  accountId : String
  region : String
  nameSpace : String
  path : String
  type : RouteType
  upload : UploadSpec
  applicationId : String
  moduleTarget : String
  moduleAction : String
  methods : List String
  authentication : RouteAuthentication
  timeout : Int
  active : Bool
  deriving DecidableEq

/-- A route as the entity is before anything is set. -/
def Route.blank : Route where
  routeId := ""
  ern := ""
  accountId := ""
  region := ""
  nameSpace := ""
  path := ""
  type := .proxy
  upload := .blank
  applicationId := ""
  moduleTarget := ""
  moduleAction := ""
  methods := []
  authentication := .none
  timeout := 0
  active := true

/-- What the unique index on names holds apart. -/
def Route.key (route : Route) : String × String × String :=
  (route.accountId, route.nameSpace, route.routeId)

/-! ### What a route answers for -/

/-- A listener bound to a namespace carries that namespace's routes and those that name none. One
that is bound to nothing carries everything. -/
def Route.isSeenBy (nameSpace : String) (route : Route) : Bool :=
  decide (nameSpace = "") || decide (route.nameSpace = "") || decide (route.nameSpace = nameSpace)

/-- The path of a route is a start of a request's, and ends on a segment boundary of it. -/
def claimsPath (path routePath : List Char) : Bool :=
  decide (routePath ≠ []) && routePath.isPrefixOf path &&
    match path.drop routePath.length with
    | [] => true
    | next :: _ =>
      decide (routePath.getLast? = some '/') || decide (next = '/') || decide (next = '?')

/-- A route that names no method takes every one. -/
def Route.takes (method : String) (route : Route) : Bool :=
  route.methods.isEmpty || decide (method ∈ route.methods)

/-- A listener sees the route, and the path of the request is the route's. -/
def Route.claims (path nameSpace : String) (route : Route) : Bool :=
  claimsPath path.toList route.path.toList && route.isSeenBy nameSpace

/-! ### Matching -/

/-- What matching a request found. -/
structure Match where
  route : Option Route
  allowed : Finset String

/-- The scan of `matchIn`, with what earlier routes would have taken. -/
def matchFrom (path method nameSpace : String) (allowed : Finset String) : List Route → Match
  | [] => ⟨none, allowed⟩
  | route :: rest =>
    if route.claims path nameSpace then
      if route.takes method then ⟨some route, allowed⟩
      else matchFrom path method nameSpace (allowed ∪ route.methods.toFinset) rest
    else matchFrom path method nameSpace allowed rest

def matchIn (routes : List Route) (path method nameSpace : String) : Match :=
  matchFrom path method nameSpace ∅ routes

/-- What `RouteTable::order` may leave: the routes by falling length of the path. The sort is not
stable, so routes of one length come in any order. -/
structure IsOrdering (routes ordered : List Route) : Prop where
  perm : ordered.Perm routes
  falling : ordered.Pairwise fun first second =>
    second.path.utf8ByteSize ≤ first.path.utf8ByteSize

/-! ### Keeping routes apart -/

/-- Two lists of methods have one in common. An empty one has all. -/
def overlap (first second : List String) : Bool :=
  first.isEmpty || second.isEmpty || first.any fun method => decide (method ∈ second)

/-- Two routes have the same path, and a method in common. -/
def Route.Clashes (first second : Route) : Prop :=
  first.path = second.path ∧ overlap first.methods second.methods

/-- No two of the routes a listener sees clash. -/
def Unambiguous (nameSpace : String) (routes : List Route) : Prop :=
  routes.Pairwise fun first second =>
    first.isSeenBy nameSpace → second.isSeenBy nameSpace → ¬first.Clashes second

theorem overlap_comm (first second : List String) :
    overlap first second = overlap second first := by
  have swap : (first.any fun method => decide (method ∈ second)) =
      second.any fun method => decide (method ∈ first) := by
    rw [Bool.eq_iff_iff]
    simp only [any_eq_true, decide_eq_true_eq]
    exact ⟨fun ⟨method, own, other⟩ => ⟨method, other, own⟩,
      fun ⟨method, own, other⟩ => ⟨method, other, own⟩⟩
  rw [overlap, overlap, swap, or_comm first.isEmpty]

variable {second : Route} {first : Route}

theorem Route.Clashes.symm (clash : first.Clashes second) : second.Clashes first :=
  ⟨clash.1.symm, overlap_comm first.methods second.methods ▸ clash.2⟩

theorem overlap_of_takes {method : String} (left : first.takes method)
    (right : second.takes method) : overlap first.methods second.methods := by
  simp only [Route.takes, or_eq_true, decide_eq_true_eq] at left right
  simp only [overlap, or_eq_true, any_eq_true, decide_eq_true_eq]
  rcases left with none | own
  · exact .inl (.inl none)
  · rcases right with none | other
    · exact .inl (.inr none)
    · exact .inr ⟨method, own, other⟩

/-! ### The longest route -/

/-- The route would answer a request, if no longer one did. -/
def Route.Answers (path method nameSpace : String) (route : Route) : Prop :=
  route.claims path nameSpace ∧ route.takes method

theorem matchFrom_route (path method nameSpace : String) (routes : List Route) :
    ∀ allowed, (matchFrom path method nameSpace allowed routes).route =
      routes.find? fun route => route.claims path nameSpace && route.takes method := by
  induction routes with
  | nil => exact fun _ => rfl
  | cons route rest ih =>
    intro allowed
    unfold matchFrom
    by_cases claims : route.claims path nameSpace
    · by_cases takes : route.takes method
      · rw [if_pos claims, if_pos takes, List.find?_cons_of_pos (by simp [claims, takes])]
      · rw [if_pos claims, if_neg takes, List.find?_cons_of_neg (by simp [takes])]
        exact ih _
    · rw [if_neg claims, List.find?_cons_of_neg (by simp [claims])]
      exact ih _

theorem eq_of_prefix_of_size {first second : List Char} (start : first <+: second)
    (size : (String.ofList first).utf8ByteSize = (String.ofList second).utf8ByteSize) :
    first = second := by
  obtain ⟨rest, rfl⟩ := start
  rw [String.ofList_append, String.utf8ByteSize_append, Nat.left_eq_add,
    String.utf8ByteSize_eq_zero_iff] at size
  have none : rest = [] := by simpa using congrArg String.toList size
  rw [none, append_nil]

theorem prefix_claimsPath {path routePath : List Char} (claims : claimsPath path routePath) :
    routePath <+: path := by
  simp only [claimsPath, and_eq_true] at claims
  exact isPrefixOf_iff_prefix.mp claims.1.2

theorem path_eq_of_claims {path nameSpace : String}
    (left : first.claims path nameSpace) (right : second.claims path nameSpace)
    (size : first.path.utf8ByteSize = second.path.utf8ByteSize) : first.path = second.path := by
  simp only [Route.claims, and_eq_true] at left right
  have sizes : (String.ofList first.path.toList).utf8ByteSize =
      (String.ofList second.path.toList).utf8ByteSize := by simpa using size
  have lists : first.path.toList = second.path.toList := by
    rcases prefix_or_prefix_of_prefix (prefix_claimsPath left.1)
      (prefix_claimsPath right.1) with start | start
    · exact eq_of_prefix_of_size start sizes
    · exact (eq_of_prefix_of_size start sizes.symm).symm
  exact String.toList_injective lists

theorem eq_of_answers {path method nameSpace : String} {routes : List Route}
    (unambiguous : Unambiguous nameSpace routes) (among : first ∈ routes)
    (alsoAmong : second ∈ routes) (left : first.Answers path method nameSpace)
    (right : second.Answers path method nameSpace)
    (size : first.path.utf8ByteSize = second.path.utf8ByteSize) : first = second := by
  by_contra different
  have symmetric : Std.Symm fun first second : Route => first.isSeenBy nameSpace →
      second.isSeenBy nameSpace → ¬first.Clashes second :=
    ⟨fun _ _ apart seen alsoSeen clash => apart alsoSeen seen clash.symm⟩
  have apart := unambiguous.forall among alsoAmong different
  refine apart ?_ ?_ ⟨path_eq_of_claims left.1 right.1 size, overlap_of_takes left.2 right.2⟩
  · exact (and_eq_true_iff.mp left.1).2
  · exact (and_eq_true_iff.mp right.1).2

/-- However its routes of one length are ordered, the table answers a request with the longest
route that answers it. -/
theorem matchIn_longest {path method nameSpace : String} {routes ordered : List Route}
    (ordering : IsOrdering routes ordered) (unambiguous : Unambiguous nameSpace routes)
    (route : Route) :
    (matchIn ordered path method nameSpace).route = some route ↔
      route ∈ routes ∧ route.Answers path method nameSpace ∧
        ∀ other ∈ routes, other.Answers path method nameSpace →
          other.path.utf8ByteSize ≤ route.path.utf8ByteSize := by
  rw [matchIn, matchFrom_route]
  have longest : ∀ found, ordered.find? (fun route => route.claims path nameSpace &&
      route.takes method) = some found → found ∈ routes ∧ found.Answers path method nameSpace ∧
        ∀ other ∈ routes, other.Answers path method nameSpace →
          other.path.utf8ByteSize ≤ found.path.utf8ByteSize := by
    intro found first
    obtain ⟨answers, before, after, split, earlier⟩ := List.find?_eq_some_iff_append.mp first
    refine ⟨ordering.perm.mem_iff.mp (mem_of_find?_eq_some first),
      and_eq_true_iff.mp answers, fun other among alsoAnswers => ?_⟩
    have falling := ordering.falling
    have mem := ordering.perm.mem_iff.mpr among
    rw [split] at falling mem
    rcases mem_append.mp mem with inBefore | inRest
    · have refused := earlier other inBefore
      rw [and_eq_true_iff.mpr alsoAnswers] at refused
      cases refused
    · rcases mem_cons.mp inRest with rfl | inAfter
      · exact le_rfl
      · exact (pairwise_cons.mp (pairwise_append.mp falling).2.1).1 other inAfter
  constructor
  · exact longest route
  · rintro ⟨among, answers, most⟩
    cases first : ordered.find? fun route => route.claims path nameSpace && route.takes method with
    | none =>
      have refused := List.find?_eq_none.mp first route (ordering.perm.mem_iff.mpr among)
      exact absurd (and_eq_true_iff.mpr answers) refused
    | some found =>
      obtain ⟨alsoAmong, alsoAnswers, alsoMost⟩ := longest found first
      have size := le_antisymm (most found alsoAmong alsoAnswers) (alsoMost route among answers)
      exact congrArg some (eq_of_answers unambiguous alsoAmong among alsoAnswers answers size)

end Euclid.Eag
