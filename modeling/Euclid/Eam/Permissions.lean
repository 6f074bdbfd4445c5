/-
This file translates the vocabulary of permissions, and when one that is granted covers one that is
required.

A permission is the name of a module and of an action, with a colon between. The vocabulary is
sorted, and it is searched by halving; that the search finds what is there rests on the order.
-/

import Mathlib.Data.String.Basic

namespace Euclid.Eam

open List

/-! ### The vocabulary -/

/-- The vocabulary, in its order. -/
def allPermissions : List String :=
  ["ead:count-events", "ead:get-metrics", "ead:list-events", "ead:purge-events",
    "eag:create-route", "eag:delete-route", "eag:get-metrics", "eag:get-route", "eag:list-routes",
    "eag:update-route",
    "eam:change-email", "eam:change-namespace", "eam:change-password", "eam:change-userid",
    "eam:check-permission", "eam:create-access-key", "eam:create-account", "eam:create-namespace",
    "eam:create-role", "eam:create-user-group", "eam:delete-access-key", "eam:delete-account",
    "eam:delete-namespace", "eam:delete-role", "eam:delete-user", "eam:delete-user-group",
    "eam:get-account", "eam:get-metrics", "eam:get-role", "eam:get-user", "eam:get-user-group",
    "eam:grant-role", "eam:list-access-keys", "eam:list-accounts", "eam:list-grants",
    "eam:list-my-accounts", "eam:list-namespaces", "eam:list-permissions", "eam:list-roles",
    "eam:list-user-groups", "eam:list-users", "eam:login", "eam:oidc-authorize",
    "eam:oidc-callback", "eam:oidc-login", "eam:refresh-session", "eam:register",
    "eam:revoke-role", "eam:saml-acs", "eam:saml-authorize", "eam:saml-login", "eam:saml-metadata",
    "eam:update-role", "eam:user-group-add-user", "eam:user-group-remove-user",
    "eap:acquire-egress-permit", "eap:apply-infrastructure", "eap:apply-platform",
    "eap:assign-instance", "eap:copy-application", "eap:create-application",
    "eap:delete-application", "eap:delete-egress-limit", "eap:delete-egress-site",
    "eap:delete-node", "eap:drain-node", "eap:get-application", "eap:get-metrics", "eap:get-node",
    "eap:get-platform", "eap:issue-instance-credentials", "eap:list-applications",
    "eap:list-egress-sites", "eap:list-nodes", "eap:list-platforms", "eap:plan-infrastructure",
    "eap:plan-platform", "eap:rebalance-application", "eap:redeploy-application",
    "eap:register-node", "eap:release-egress-permit", "eap:renew-node",
    "eap:report-egress-throttled", "eap:report-load", "eap:report-node-instance",
    "eap:restart-application", "eap:scale-application", "eap:set-application-limits",
    "eap:set-egress-limit", "eap:set-log-level", "eap:start-application", "eap:stop-application",
    "eap:update-application",
    "ees:ack-events", "ees:get-metrics", "ees:list-subscriptions", "ees:receive-events",
    "ees:subscribe-events", "ees:unsubscribe-events",
    "ekm:add-key-tag", "ekm:create-certificate", "ekm:create-key", "ekm:decrypt",
    "ekm:delete-certificate", "ekm:delete-key", "ekm:delete-key-tag", "ekm:encrypt",
    "ekm:get-certificate", "ekm:get-key", "ekm:import-certificate", "ekm:list-certificates",
    "ekm:list-keys", "ekm:revoke-key", "ekm:set-key-description",
    "ekv:create-table", "ekv:delete-item", "ekv:delete-table", "ekv:get-item", "ekv:get-metrics",
    "ekv:get-table", "ekv:list-tables", "ekv:put-item", "ekv:query", "ekv:scan",
    "emo:average", "emo:create-alert-rule", "emo:delete-alert-rule", "emo:delete-dashboard",
    "emo:get-dashboard", "emo:list", "emo:list-alert-history", "emo:list-alert-rules",
    "emo:list-alerts", "emo:list-dashboards", "emo:list-metrics", "emo:push-metrics",
    "emo:save-dashboard", "emo:update-alert-rule",
    "ens:add-topic-tag", "ens:create-topic", "ens:delete-topic", "ens:delete-topic-tag",
    "ens:get-message", "ens:get-message-attribute", "ens:get-message-count", "ens:get-topic",
    "ens:get-topic-ern", "ens:get-topic-metadata", "ens:list-messages", "ens:list-subscriptions",
    "ens:list-topics", "ens:publish-message", "ens:purge-all-topics", "ens:purge-topic",
    "ens:resend-messages", "ens:set-message-attribute", "ens:set-topic-delete-after-delivery",
    "ens:set-topic-max-message-length", "ens:set-topic-retention", "ens:set-topic-tag",
    "ens:start-topic", "ens:stop-topic", "ens:subscribe", "ens:unsubscribe",
    "ens:update-message-body",
    "eqs:add-metadata", "eqs:add-queue-tag", "eqs:create-queue", "eqs:delete-message",
    "eqs:delete-queue", "eqs:delete-queue-tag", "eqs:get-message", "eqs:get-message-attribute",
    "eqs:get-message-count", "eqs:get-message-metadata", "eqs:get-metadata", "eqs:get-metrics",
    "eqs:get-queue", "eqs:get-queue-ern", "eqs:get-queue-metadata", "eqs:list-messages",
    "eqs:list-queues", "eqs:purge-all-queues", "eqs:purge-queue", "eqs:receive-messages",
    "eqs:redrive-dlq", "eqs:send-message", "eqs:send-message-batch", "eqs:set-message-attribute",
    "eqs:set-message-visibility", "eqs:set-queue-delay", "eqs:set-queue-max-message-length",
    "eqs:set-queue-max-retries", "eqs:set-queue-tag", "eqs:set-queue-visibility",
    "eqs:set-visibility", "eqs:start-queue", "eqs:stop-queue", "eqs:update-message-body",
    "esm:abort-upload", "esm:add-bucket-tag", "esm:add-object-attribute", "esm:archive-object",
    "esm:complete-download", "esm:complete-upload", "esm:copy-object", "esm:count-objects",
    "esm:create-bucket", "esm:create-download", "esm:create-upload", "esm:delete-bucket",
    "esm:delete-bucket-lifecycle", "esm:delete-bucket-tag", "esm:delete-object",
    "esm:delete-object-attribute", "esm:delete-objects", "esm:disable-encryption",
    "esm:download-part", "esm:enable-encryption", "esm:get-bucket", "esm:get-bucket-ern",
    "esm:get-bucket-lifecycle", "esm:get-bucket-size", "esm:get-metrics", "esm:get-object",
    "esm:get-object-count", "esm:get-object-size", "esm:list-buckets",
    "esm:list-object-attributes", "esm:list-object-versions", "esm:list-objects",
    "esm:list-subscriptions", "esm:move-object", "esm:purge-bucket", "esm:put-object",
    "esm:rename-bucket", "esm:rename-object", "esm:restore-object", "esm:set-bucket-internal",
    "esm:set-bucket-lifecycle", "esm:set-bucket-priority", "esm:set-bucket-tag",
    "esm:set-bucket-versioning", "esm:set-object-attribute", "esm:start-bucket", "esm:stop-bucket",
    "esm:subscribe", "esm:touch-object", "esm:unsubscribe", "esm:upload-part",
    "esm:verify-objects",
    "ess:add-secret-tag", "ess:create-secret", "ess:delete-secret", "ess:delete-secret-tag",
    "ess:get-metrics", "ess:get-secret", "ess:list-secrets", "ess:update-secret",
    "ets:create-directory", "ets:create-server", "ets:delete-directory", "ets:delete-file",
    "ets:delete-server", "ets:get-file", "ets:get-metrics", "ets:get-server", "ets:list-directory",
    "ets:list-servers", "ets:put-file", "ets:rename-file", "ets:start-server", "ets:stop-server",
    "ets:update-server"]

/-- The characters of a permission before its colon, or all of them. -/
def moduleText (permission : List Char) : List Char := permission.takeWhile (· ≠ ':')

def moduleOf (permission : String) : String := String.ofList (moduleText permission.toList)

def permissionOf (target action : String) : String := target ++ ":" ++ action

/-- A binary search: the first entry that is not less than the value is the value. -/
def binarySearch (value : String) (sorted : List String) : Bool :=
  match sorted.dropWhile (· < value) with
  | [] => false
  | first :: _ => decide (¬value < first)

def permissionExists (permission : String) : Bool := binarySearch permission allPermissions

def everything : String := "*:*"

def permissionMatches (granted required : String) : Bool :=
  if permissionExists required = false then false
  else if granted = everything ∨ granted = required then true
  else
    decide (granted.length = (moduleOf granted).length + 2) &&
      [':', '*'].isSuffixOf granted.toList && decide (moduleOf granted = moduleOf required)

/-! ### The order of the vocabulary -/

theorem spelled {texts : List String} {spellings : List (List Char)}
    (each : Forall₂ (fun text spelling => text = String.ofList spelling) texts spellings) :
    texts.map String.toList = spellings := by
  induction each with
  | nil => rfl
  | cons same _ ih => rw [map_cons, ih, same, String.toList_ofList]

theorem allPermissions_texts : (allPermissions.map String.toList).IsChain (· < ·) ∧
      ∀ text ∈ allPermissions.map String.toList,
        text.count ':' = 1 ∧ moduleText text ≠ "emd".toList ∧ moduleText text ≠ "emm".toList := by
  rw [spelled]
  rotate_left
  · dsimp only [allPermissions]
    repeat' first | exact rfl | exact Forall₂.nil | apply Forall₂.cons
  · decide +kernel

/-- The order is that of the texts, which `std::ranges::binary_search` needs. -/
theorem allPermissions_sorted : allPermissions.Pairwise (· < ·) := by
  have ordered := pairwise_map.mp (isChain_iff_pairwise.mp allPermissions_texts.1)
  exact ordered.imp fun least => String.lt_iff_toList_lt.mpr least

theorem binarySearch_cons_of_lt {first value : String} (under : first < value)
    (rest : List String) :
    binarySearch value (first :: rest) = binarySearch value rest := by
  simp only [binarySearch, dropWhile_cons, decide_eq_true under, if_true]

theorem binarySearch_cons_of_not_lt {first value : String} (under : ¬first < value)
    (rest : List String) : binarySearch value (first :: rest) = decide (¬value < first) := by
  simp only [binarySearch, dropWhile_cons, decide_eq_false under, Bool.false_eq_true, if_false]

/-- In an ordered list the search finds what is there. -/
theorem binarySearch_iff {sorted : List String} (ordered : sorted.Pairwise (· < ·))
    {value : String} :
    binarySearch value sorted ↔ value ∈ sorted := by
  induction sorted with
  | nil => simp [binarySearch]
  | cons first rest ih =>
    obtain ⟨least, ordered⟩ := pairwise_cons.mp ordered
    by_cases under : first < value
    · rw [binarySearch_cons_of_lt under, ih ordered, mem_cons, or_iff_right under.ne']
    · rw [binarySearch_cons_of_not_lt under, decide_eq_true_eq, mem_cons]
      refine ⟨fun past => .inl (le_antisymm (not_lt.mp under) (not_lt.mp past)), ?_⟩
      rintro (rfl | mem)
      · exact lt_irrefl _
      · exact absurd (least value mem) under

theorem permissionExists_iff (permission : String) :
    permissionExists permission ↔ permission ∈ allPermissions :=
  binarySearch_iff allPermissions_sorted

/-! ### Modules and actions -/

theorem allPermissions_shape : ∀ permission ∈ allPermissions,
    permission.toList.count ':' = 1 ∧ moduleText permission.toList ≠ "emd".toList ∧
      moduleText permission.toList ≠ "emm".toList := by
  intro permission mem
  exact allPermissions_texts.2 _ (mem_map_of_mem mem)

section Modules

variable {target action : String}

theorem permissionOf_toList :
    (permissionOf target action).toList = target.toList ++ ':' :: action.toList := by
  simp [permissionOf]

theorem module_of_mem (known : permissionOf target action ∈ allPermissions) :
    moduleText (permissionOf target action).toList = target.toList := by
  obtain ⟨one, _⟩ := allPermissions_shape _ known
  rw [permissionOf_toList, count_append, count_cons_self] at one
  have plain : ':' ∉ target.toList := count_eq_zero.mp (by omega)
  rw [permissionOf_toList, moduleText, takeWhile_append_of_pos]
  · simp
  · intro character mem
    exact decide_eq_true fun same => plain (same ▸ mem)

theorem internal_not_mem (internal : target = "emd" ∨ target = "emm") :
    permissionOf target action ∉ allPermissions := by
  intro known
  obtain ⟨_, notEmd, notEmm⟩ := allPermissions_shape _ known
  rw [module_of_mem known] at notEmd notEmm
  rcases internal with rfl | rfl
  · exact notEmd rfl
  · exact notEmm rfl

end Modules

theorem moduleText_append (text : List Char) :
    text = moduleText text ++ text.dropWhile (· ≠ ':') := takeWhile_append_dropWhile.symm

/-- What ends in a colon and a star, two characters after its module, is the module with them. -/
theorem wildcard_iff {granted : String} {module : List Char} (plain : ':' ∉ module) :
    (granted.length = (moduleOf granted).length + 2 ∧ [':', '*'] <:+ granted.toList ∧
        moduleText granted.toList = module) ↔ granted.toList = module ++ [':', '*'] := by
  constructor
  · rintro ⟨long, ends, rfl⟩
    have split := moduleText_append granted.toList
    have rest : (granted.toList.dropWhile (· ≠ ':')).length = 2 := by
      have total := congrArg List.length split
      rw [length_append] at total
      simp only [moduleOf, String.length_ofList] at long
      rw [← String.length_toList] at long
      omega
    have last : [':', '*'] <:+ granted.toList.dropWhile (· ≠ ':') := by
      rw [split] at ends
      exact suffix_of_suffix_length_le ends (suffix_append _ _) rest.symm.le
    conv_lhs => rw [split]
    rw [last.eq_of_length rest.symm]
  · intro same
    have text : moduleText granted.toList = module := by
      rw [same, moduleText, takeWhile_append_of_pos]
      · simp
      · exact fun character mem => decide_eq_true fun colon => plain (colon ▸ mem)
    refine ⟨?_, ?_, text⟩
    · rw [← String.length_toList, same, moduleOf, text]
      simp
    · rw [same]
      exact suffix_append _ _

/-- What is granted covers an action of the vocabulary if it is everything, that action, or every
action of its module. -/
theorem permissionMatches_iff (granted target action : String) :
    permissionMatches granted (permissionOf target action) ↔
      permissionOf target action ∈ allPermissions ∧
        (granted = everything ∨ granted = permissionOf target action ∨
          granted = target ++ ":*") := by
  unfold permissionMatches
  by_cases known : permissionOf target action ∈ allPermissions
  · have plain : ':' ∉ target.toList := by
      obtain ⟨one, _⟩ := allPermissions_shape _ known
      rw [permissionOf_toList, count_append, count_cons_self] at one
      exact count_eq_zero.mp (by omega)
    have wildcard : granted = target ++ ":*" ↔ granted.toList = target.toList ++ [':', '*'] := by
      rw [← String.toList_inj]
      simp
    rw [if_neg (by simp [(permissionExists_iff _).mpr known]), wildcard,
      ← wildcard_iff plain]
    split
    · rename_i either
      simp only [true_iff]
      exact ⟨known, either.elim .inl fun same => .inr (.inl same)⟩
    · rename_i neither
      obtain ⟨notAll, notSame⟩ := not_or.mp neither
      simp only [Bool.and_eq_true, decide_eq_true_eq, isSuffixOf_iff_suffix, known, true_and,
        notAll, notSame, false_or, and_assoc]
      refine and_congr_right fun _ => and_congr_right fun _ => ?_
      rw [moduleOf, moduleOf, String.ofList_inj, module_of_mem known]
  · rw [if_pos (by simpa using mt (permissionExists_iff _).mp known)]
    simp [known]

end Euclid.Eam
