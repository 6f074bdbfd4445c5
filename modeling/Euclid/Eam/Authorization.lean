/-
This file translates the decision about a request from the grants of its caller, and says which
requests are allowed.

The grants are read one after the other. Each that is of the account and covers the namespace and
the resource is considered, and the first of those whose role holds what is required allows the
request.
-/

import Euclid.Eam.Permissions

namespace Euclid.Eam

open List

/-! ### Grants and requests -/

structure Grant where
  oid : String
  role : String
  principal : String
  accountId : String
  namespaces : List String
  resources : List String
  granted : Int
  grantedBy : String
  deriving DecidableEq

structure AuthorizationRequest where
  target : String
  action : String
  accountId : String
  nameSpace : String
  resourceErn : String

structure AuthorizationResult where
  allowed : Bool
  reason : String
  role : String

/-- `Authorization::RoleLookup`: the permissions of a role of an account. -/
abbrev RoleLookup : Type := String → String → Option (List String)

def AuthorizationRequest.required (req : AuthorizationRequest) : String :=
  permissionOf req.target req.action

def findGrantsByPrincipals (principals : List String) (stored : List Grant) : List Grant :=
  if principals.isEmpty then [] else stored.filter fun grant => grant.principal ∈ principals

/-! ### The decision -/

def coversNamespace (grant : Grant) (nameSpace : String) : Bool :=
  if "*" ∈ grant.namespaces then true else decide (nameSpace ∈ grant.namespaces)

def resourceMatches (pattern resourceErn : String) : Bool :=
  if pattern = "*" then true
  else if pattern = resourceErn then true
  else if pattern.toList.getLast? ≠ some '*' then false
  else pattern.toList.dropLast.isPrefixOf resourceErn.toList

def coversResource (grant : Grant) (resourceErn : String) : Bool :=
  if resourceErn = "" then true
  else grant.resources.any fun pattern => resourceMatches pattern resourceErn

/-- The answer when no grant was found to allow the request, after some were considered. -/
def refusal (req : AuthorizationRequest) (considered : ℕ) : AuthorizationResult where
  allowed := false
  reason :=
    if considered = 0 then
      "no grant applies to this caller in account '" ++ req.accountId ++ "', namespace '" ++
        req.nameSpace ++ "'" ++
        (if req.resourceErn = "" then "" else ", resource '" ++ req.resourceErn ++ "'")
    else "no role granted here holds '" ++ req.required ++ "'"
  role := ""

/-- The loop of `Authorization::Allows` over the grants that are left, after some were
considered. -/
def allowsFrom (req : AuthorizationRequest) (roles : RoleLookup) :
    ℕ → List Grant → AuthorizationResult
  | considered, [] => refusal req considered
  | considered, grant :: rest =>
    if grant.accountId ≠ req.accountId then allowsFrom req roles considered rest
    else if coversNamespace grant req.nameSpace = false then
      allowsFrom req roles considered rest
    else if coversResource grant req.resourceErn = false then
      allowsFrom req roles considered rest
    else
      match roles grant.accountId grant.role with
      | none => allowsFrom req roles (considered + 1) rest
      | some permissions =>
        if permissions.any fun granted => permissionMatches granted req.required then
          { allowed := true
            reason := "granted by role '" ++ grant.role ++ "' to " ++ grant.principal
            role := grant.role }
        else allowsFrom req roles (considered + 1) rest

def allows (req : AuthorizationRequest) (grants : List Grant) (roles : RoleLookup) :
    AuthorizationResult :=
  if permissionExists req.required = false then
    { allowed := false
      reason := "'" ++ req.required ++ "' is not a permission any role can hold"
      role := "" }
  else allowsFrom req roles 0 grants

/-! ### What a grant covers -/

/-- A pattern covers a resource that it spells out, or whose start it is but for a star. -/
def Covers (pattern resourceErn : String) : Prop :=
  pattern = resourceErn ∨
    ∃ start : String, pattern = start ++ "*" ∧ start.toList <+: resourceErn.toList

def Grant.Applies (grant : Grant) (req : AuthorizationRequest) : Prop :=
  grant.accountId = req.accountId ∧
    ("*" ∈ grant.namespaces ∨ req.nameSpace ∈ grant.namespaces) ∧
    (req.resourceErn = "" ∨ ∃ pattern ∈ grant.resources, Covers pattern req.resourceErn)

/-- A permission that is granted allows a request: its action is in the vocabulary, and the
permission is everything, that action, or every action of its module. -/
def Allows (granted : String) (req : AuthorizationRequest) : Prop :=
  req.required ∈ allPermissions ∧
    (granted = everything ∨ granted = req.required ∨ granted = req.target ++ ":*")

theorem resourceMatches_iff (pattern resourceErn : String) :
    resourceMatches pattern resourceErn ↔ Covers pattern resourceErn := by
  unfold resourceMatches Covers
  by_cases all : pattern = "*"
  · rw [if_pos all]
    exact iff_of_true rfl (.inr ⟨"", by simpa using all, by simp⟩)
  by_cases same : pattern = resourceErn
  · rw [if_neg all, if_pos same]
    exact iff_of_true rfl (.inl same)
  rw [if_neg all, if_neg same, or_iff_right same]
  constructor
  · intro found
    split at found
    · nomatch found
    rename_i last
    have ends := dropLast_append_getLast? '*' (not_not.mp last)
    refine ⟨String.ofList pattern.toList.dropLast, String.toList_inj.mp ?_, ?_⟩
    · simpa using ends.symm
    · simpa using found
  · rintro ⟨start, rfl, within⟩
    rw [if_neg (by simp)]
    simpa using within

theorem coversNamespace_iff (grant : Grant) (nameSpace : String) :
    coversNamespace grant nameSpace ↔ "*" ∈ grant.namespaces ∨ nameSpace ∈ grant.namespaces := by
  unfold coversNamespace
  split
  · rename_i all
    exact iff_of_true rfl (.inl all)
  · rename_i narrow
    rw [or_iff_right narrow, decide_eq_true_eq]

theorem coversResource_iff (grant : Grant) (resourceErn : String) :
    coversResource grant resourceErn ↔
      resourceErn = "" ∨ ∃ pattern ∈ grant.resources, Covers pattern resourceErn := by
  unfold coversResource
  split
  · rename_i unnamed
    exact iff_of_true rfl (.inl unnamed)
  · rename_i named
    simp only [any_eq_true, resourceMatches_iff, named, false_or]

/-! ### What the loop finds -/

section Loop

variable {req : AuthorizationRequest} {roles : RoleLookup} {grant : Grant}

/-- A grant lets a request through: it applies, and its role holds what is required. -/
def Grant.LetsThrough (grant : Grant) (req : AuthorizationRequest) (roles : RoleLookup) : Prop :=
  grant.Applies req ∧
    ∃ permissions, roles grant.accountId grant.role = some permissions ∧
      ∃ granted ∈ permissions, Allows granted req

theorem allowsFrom_cons_of_not_applies (apart : ¬grant.Applies req) (considered : ℕ)
    (rest : List Grant) :
    allowsFrom req roles considered (grant :: rest) = allowsFrom req roles considered rest := by
  rw [allowsFrom]
  split
  · rfl
  rename_i account
  split
  · rfl
  rename_i nameSpace
  split
  · rfl
  rename_i res
  refine absurd ⟨not_not.mp account, ?_, ?_⟩ apart
  · exact (coversNamespace_iff ..).mp (Bool.not_eq_false _ ▸ nameSpace)
  · exact (coversResource_iff ..).mp (Bool.not_eq_false _ ▸ res)

theorem allowsFrom_cons_of_applies (applies : grant.Applies req) (considered : ℕ)
    (rest : List Grant) :
    (allowsFrom req roles considered (grant :: rest)).allowed ↔
      grant.LetsThrough req roles ∨ (allowsFrom req roles (considered + 1) rest).allowed := by
  have matching : ∀ permissions : List String,
      (permissions.any fun granted => permissionMatches granted req.required) ↔
        ∃ granted ∈ permissions, Allows granted req := by
    intro permissions
    simp only [any_eq_true, AuthorizationRequest.required, permissionMatches_iff, Allows]
  obtain ⟨account, nameSpace, res⟩ := applies
  rw [allowsFrom, if_neg (not_not.mpr account),
    if_neg (by simp [(coversNamespace_iff ..).mpr nameSpace]),
    if_neg (by simp [(coversResource_iff ..).mpr res])]
  unfold Grant.LetsThrough
  simp only [show grant.Applies req from ⟨account, nameSpace, res⟩, true_and]
  split
  · rename_i missing
    simp [missing]
  · rename_i permissions found
    simp only [found, Option.some.injEq, exists_eq_left']
    split
    · rename_i holds
      exact iff_of_true rfl (.inl ((matching _).mp holds))
    · rename_i lacks
      rw [or_iff_right (mt (matching _).mpr lacks)]

theorem allowsFrom_iff {grants : List Grant} {considered : ℕ} :
    (allowsFrom req roles considered grants).allowed ↔
      ∃ grant ∈ grants, grant.LetsThrough req roles := by
  induction grants generalizing considered with
  | nil => simp [allowsFrom, refusal]
  | cons first rest ih =>
    simp only [mem_cons, exists_eq_or_imp]
    by_cases applies : first.Applies req
    · rw [allowsFrom_cons_of_applies applies, ih]
    · rw [allowsFrom_cons_of_not_applies applies, ih, or_iff_right]
      exact fun through => applies through.1

theorem allows_iff (grants : List Grant) :
    (allows req grants roles).allowed ↔ ∃ grant ∈ grants, grant.LetsThrough req roles := by
  unfold allows
  split
  · rename_i unknown
    refine iff_of_false Bool.false_ne_true ?_
    rintro ⟨grant, _, _, _, _, granted, _, known, _⟩
    exact absurd ((permissionExists_iff _).mpr known) (by simp [unknown])
  · exact allowsFrom_iff

theorem allowsFrom_filter (considered : ℕ) (grants : List Grant) :
    allowsFrom req roles considered (grants.filter (·.accountId = req.accountId)) =
      allowsFrom req roles considered grants := by
  induction grants generalizing considered with
  | nil => rfl
  | cons first rest ih =>
    by_cases account : first.accountId = req.accountId
    · rw [filter_cons_of_pos (by simpa using account), allowsFrom, allowsFrom]
      simp only [ih]
    · rw [filter_cons_of_neg (by simpa using account), ih,
        allowsFrom_cons_of_not_applies fun applies => account applies.1]

theorem allows_filter (grants : List Grant) :
    allows req (grants.filter (·.accountId = req.accountId)) roles = allows req grants roles := by
  unfold allows
  rw [allowsFrom_filter]

end Loop

/-! ### The decision over what is stored -/

/-- The answer to a request of who has these principals. -/
def decision (principals : List String) (stored : List Grant) (roles : RoleLookup)
    (req : AuthorizationRequest) : AuthorizationResult :=
  allows req (findGrantsByPrincipals principals stored) roles

/-- One role lookup gives at least what another does. -/
def RoleLookup.Within (roles wider : RoleLookup) : Prop :=
  ∀ account role permissions, roles account role = some permissions →
    ∃ more, wider account role = some more ∧ permissions ⊆ more

section Decision

variable {principals : List String} {stored : List Grant} {roles : RoleLookup}
  {req : AuthorizationRequest}

theorem mem_findGrantsByPrincipals {grant : Grant} :
    grant ∈ findGrantsByPrincipals principals stored ↔ grant ∈ stored ∧
      grant.principal ∈ principals := by
  unfold findGrantsByPrincipals
  split
  · rename_i nobody
    simp [isEmpty_iff.mp nobody]
  · simp

theorem findGrantsByPrincipals_filter (account : String) :
    (findGrantsByPrincipals principals stored).filter (·.accountId = account) =
      findGrantsByPrincipals principals (stored.filter (·.accountId = account)) := by
  unfold findGrantsByPrincipals
  split
  · rfl
  · rw [filter_filter, filter_filter]
    simp only [Bool.and_comm]

theorem decision_iff : (decision principals stored roles req).allowed ↔
      ∃ grant ∈ stored, grant.principal ∈ principals ∧ grant.LetsThrough req roles := by
  simp only [decision, allows_iff, mem_findGrantsByPrincipals, and_assoc]

theorem decision_of_same_account {altered : List Grant}
    (same : altered.filter (·.accountId = req.accountId) =
      stored.filter (·.accountId = req.accountId)) :
    decision principals altered roles req = decision principals stored roles req := by
  unfold decision
  rw [← allows_filter, findGrantsByPrincipals_filter, same, ← findGrantsByPrincipals_filter,
    allows_filter]

theorem Grant.LetsThrough.wider {grant : Grant} {wider : RoleLookup} (within : roles.Within wider)
    (through : grant.LetsThrough req roles) : grant.LetsThrough req wider := by
  obtain ⟨applies, permissions, found, granted, mem, covering⟩ := through
  obtain ⟨more, foundMore, more_of⟩ := within _ _ _ found
  exact ⟨applies, more, foundMore, granted, more_of mem, covering⟩

theorem decision_monotone {more : List Grant} {wider : RoleLookup}
    (kept : ∀ grant ∈ stored, grant.principal ∈ principals → grant ∈ more)
    (within : roles.Within wider) (allowed : (decision principals stored roles req).allowed) :
    (decision principals more wider req).allowed := by
  obtain ⟨grant, mem, own, through⟩ := decision_iff.mp allowed
  exact decision_iff.mpr ⟨grant, kept grant mem own, own, through.wider within⟩

theorem decision_internal (internal : req.target = "emd" ∨ req.target = "emm") :
    (decision principals stored roles req).allowed = false := by
  rw [Bool.eq_false_iff]
  intro allowed
  obtain ⟨_, _, _, _, _, _, _, _, known, _⟩ := decision_iff.mp allowed
  exact internal_not_mem internal known

end Decision

/-- A request is allowed exactly when a grant of the caller lets it through: one of the account,
that covers the namespace and the resource, and whose role holds what is required. The answer is the
same whatever the grants of other accounts are, more grants of the caller and more permissions of
roles take nothing away, and the modules that have no permissions are never reached. -/
theorem decides_by_own_grants (principals : List String) (stored : List Grant) (roles : RoleLookup)
    (req : AuthorizationRequest) :
    ((decision principals stored roles req).allowed ↔
        ∃ grant ∈ stored, grant.principal ∈ principals ∧ grant.LetsThrough req roles) ∧
      (∀ altered : List Grant, altered.filter (·.accountId = req.accountId) =
          stored.filter (·.accountId = req.accountId) →
        decision principals altered roles req = decision principals stored roles req) ∧
      (∀ (more : List Grant) (wider : RoleLookup),
        (∀ grant ∈ stored, grant.principal ∈ principals → grant ∈ more) → roles.Within wider →
          (decision principals stored roles req).allowed →
            (decision principals more wider req).allowed) ∧
      (req.target = "emd" ∨ req.target = "emm" →
        (decision principals stored roles req).allowed = false) :=
  ⟨decision_iff, fun _ => decision_of_same_account, fun _ _ => decision_monotone, decision_internal⟩

/-- A publisher of one topic prefix, whose grant stands beside one of another account. -/
theorem publisher_decided :
    let grant : Grant :=
      { oid := "g", role := "publisher", principal := "ern:u", accountId := "a", namespaces := ["*"]
        resources := ["order-*"], granted := 0, grantedBy := "root" }
    let roles : RoleLookup := fun _ role => if role = "publisher" then some ["ens:*"] else none
    let req : AuthorizationRequest :=
      { target := "ens", action := "publish-message", accountId := "a", nameSpace := "n"
        resourceErn := "order-events" }
    (decision ["ern:u"] [grant] roles req).allowed ∧
      decision ["ern:u"] [{ grant with accountId := "b" }, grant] roles req =
        decision ["ern:u"] [grant] roles req ∧
      (decision ["ern:u"] [grant] roles { req with target := "emd" }).allowed = false := by
  intro grant roles req
  obtain ⟨_, apart, _, _⟩ := decides_by_own_grants ["ern:u"] [grant] roles req
  obtain ⟨_, _, _, internal⟩ :=
    decides_by_own_grants ["ern:u"] [grant] roles { req with target := "emd" }
  exact ⟨by decide +kernel, apart _ (by decide), internal (.inl rfl)⟩

end Euclid.Eam
