/-
This file translates the handlers of ESS, and those of EKM that write a key which secrets are
encrypted under.

A request comes with whom it was resolved to, and with what is drawn at random for it. An error of a
write ends a handler. An event is published after the last write, and reads and writes neither
collection.
-/

import Euclid.Ess.Store

namespace Euclid.Ess

open Program
open Core (base64Encode base64Decode aesGcmEncrypt)
open Eag (Response Refusal createErn)
open Eam.State (isErn)
open Eam.Store (StoreError)
open Ekm (Key KeyStatus)

/-! ### Requests -/

/-- Whom a request was resolved to, and why a secret is not for it. -/
structure Caller where
  accountId : String
  region : String
  denies : String → Option String

/-- What is drawn at random for a request: an IV, the bytes of a key, and a name. -/
structure Draws where
  iv : Bytes
  iv_length : iv.length = 12
  keyBytes : ℕ → Bytes
  uuid : String

structure Sender where
  caller : Option Caller
  nameSpace : String
  draws : Draws

inductive Reply where
  | secret (stored : Secret)
  | value (secret : Secret) (plaintext : Bytes)
  | deleted (ern name : String)
  | key (saved : Key)

structure CreateSecretRequest where
  name : String
  value : Bytes
  description : String
  keyErn : String

structure UpdateSecretRequest where
  name : String
  value : Option Bytes
  description : Option String
  keyErn : String

structure CreateKeyRequest where
  algorithm : String
  length : Int
  description : String

/-! ### Keys -/

def keyStatusToString : KeyStatus → String
  | .available => "AVAILABLE"
  | .revoked => "REVOKED"
  | .pendingDeletion => "PENDING_DELETION"
  | .unknown => "UNKNOWN"

def createEkmKeyErn (env : Env) (accountId keyId : String) : String :=
  "ern:" ++ "ekm" ++ ":" ++ env.region ++ ":" ++ accountId ++ ":" ++ ("key:" ++ keyId)

def createEssSecretErn (env : Env) (accountId nameSpace name : String) : String :=
  createErn env.region "ess" accountId nameSpace ("secret:" ++ name)

def generateAesKey (draws : Draws) (keyBits : ℕ) : String :=
  String.ofList (base64Encode (draws.keyBytes (keyBits / 8)))

/-- `KeyLookup`, without an error. -/
structure KeyMaterial where
  material : Bytes
  ern : String

def materialAndErn (key : Key) : KeyMaterial :=
  ⟨materialOf key.attributes, key.attributes.ern⟩

def defaultKeyName (nameSpace : String) : String :=
  if nameSpace = "" then "ess" else "ess-" ++ nameSpace

def writeKeyByErn (keyErn : String) : Op (Except String KeyMaterial) := do
  match ← findKeyByErn keyErn with
  | none => return .error ("No such key, keyErn: " ++ keyErn)
  | some key =>
    if key.attributes.keyMaterial = "" then
      return .error ("Key has no key material, keyErn: " ++ keyErn)
    if key.attributes.status ≠ .available then
      return .error ("Key is " ++ keyStatusToString key.attributes.status ++
        " and can no longer encrypt, keyErn: " ++ keyErn)
    return .ok (materialAndErn key)

def readKeyByErn (keyErn : String) : Op (Except String KeyMaterial) := do
  match ← findKeyByErn keyErn with
  | none =>
    return .error
      ("This secret is encrypted under a key that no longer exists and cannot be read" ++
      ", keyErn: " ++ keyErn)
  | some key =>
    if key.attributes.keyMaterial = "" then
      return .error ("This secret is encrypted under a key that has no key material, keyErn: " ++
        keyErn)
    return .ok (materialAndErn key)

section

variable (env : Env) (caller : Caller) (sender : Sender)

/-- The key that `namespaceKey` creates. -/
def newNamespaceKey : Key where
  attributes :=
    { region := caller.region
      accountId := caller.accountId
      nameSpace := sender.nameSpace
      ern := createEkmKeyErn env caller.accountId (defaultKeyName sender.nameSpace)
      name := defaultKeyName sender.nameSpace
      description := "Secrets of the '" ++
        (if sender.nameSpace = "" then "default" else sender.nameSpace) ++
          "' namespace, created by ESS"
      algorithm := "AES"
      length := 256
      keyMaterial := generateAesKey sender.draws 256
      status := .available
      tags := fun _ => none }
  deletionDate := 0

def namespaceKey : Op (Except String KeyMaterial) := do
  let name := defaultKeyName sender.nameSpace
  match ← findKeyByName ⟨caller.accountId, sender.nameSpace, name⟩ with
  | some existing =>
    if existing.attributes.keyMaterial = "" then
      return .error ("The namespace's secrets key has no key material, key: " ++ name)
    if existing.attributes.status ≠ .available then
      return .error ("The namespace's secrets key is " ++
        keyStatusToString existing.attributes.status ++
          " and can no longer encrypt, key: " ++ name ++
        " - name another key with --key when storing this secret")
    return .ok (materialAndErn existing)
  | none =>
    let stored ← upsertKey (newNamespaceKey env caller sender)
    return .ok (materialAndErn stored)

/-! ### Handlers of ESS -/

/-- The secret that `handleCreateSecret` stores. -/
def newSecret (req : CreateSecretRequest) (key : KeyMaterial) (encrypted : Bytes) : Secret where
  region := caller.region
  accountId := caller.accountId
  nameSpace := sender.nameSpace
  ern := createEssSecretErn env caller.accountId sender.nameSpace req.name
  name := req.name
  description := req.description
  value := base64Encode encrypted
  encryptionKeyErn := key.ern
  version := 1
  tags := fun _ => none

end

/-- `AesGcmEncrypt`, and what is answered where it throws. -/
def encryptSecret (env : Env) (sender : Sender) (key : KeyMaterial)
    (plaintext : Bytes) : Except Refusal Bytes :=
  match aesGcmEncrypt env.gcm key.material sender.draws.iv plaintext [] with
  | .ok encrypted => .ok encrypted
  | .error msg => .error (.internalServerError, "Could not encrypt the secret: " ++ msg)

/-- The key that `handleCreateSecret` encrypts under. -/
def createKeyLookup (env : Env) (caller : Caller) (sender : Sender)
    (keyErn : String) : Op (Except String KeyMaterial) :=
  if keyErn = "" then namespaceKey env caller sender else writeKeyByErn keyErn

def handleCreateSecret (env : Env) (sender : Sender)
    (req : CreateSecretRequest) : Op (Response Reply) := do
  match sender.caller with
  | none => return .unauthorized
  | some caller =>
    if req.name = "" then return .refused .badRequest "name is required"
    if isErn req.name then
      return .refused .badRequest ("A secret is named rather than given as an ERN: " ++ req.name)
    if req.value = [] then return .refused .badRequest "value is required"
    match caller.denies
      (createEssSecretErn env caller.accountId sender.nameSpace req.name) with
    | some reason => return .refused .forbidden reason
    | none =>
      if ← secretExists ⟨caller.accountId, sender.nameSpace, req.name⟩ then
        return .refused .conflict ("Secret exists already, name: " ++ req.name)
      match ← createKeyLookup env caller sender req.keyErn with
      | .error msg => return .refused .conflict msg
      | .ok key =>
        match encryptSecret env sender key req.value with
        | .error (status, msg) => return .refused status msg
        | .ok encrypted =>
          let stored ← upsertSecret (newSecret env caller sender req key encrypted)
          return .success (.secret stored)

/-- What every handler of one secret begins with: the secret of a name, or why not. -/
def findGrantedSecret (caller : Caller) (sender : Sender) (name : String) :
    Op (Except Refusal Secret) := do
  if name = "" then return .error (.badRequest, "name is required")
  match ← findSecretByName ⟨caller.accountId, sender.nameSpace, name⟩ with
  | none => return .error (.notFound, "Secret not found, name: " ++ name)
  | some secret =>
    match caller.denies secret.ern with
    | some reason => return .error (.forbidden, reason)
    | none => return .ok secret

/-- `AesGcmDecrypt`, and what is answered where it throws. -/
def decryptSecret (env : Env) (key : KeyMaterial) (secret : Secret) : Except Refusal Bytes :=
  match decrypt env key.material secret with
  | .ok plaintext => .ok plaintext
  | .error _ =>
    .error (.internalServerError, "The stored value could not be decrypted with the key it names")

def handleGetSecret (env : Env) (sender : Sender) (name : String) : Op (Response Reply) := do
  match sender.caller with
  | none => return .unauthorized
  | some caller =>
    match ← findGrantedSecret caller sender name with
    | .error (status, msg) => return .refused status msg
    | .ok secret =>
      match ← readKeyByErn secret.encryptionKeyErn with
      | .error msg => return .refused .conflict msg
      | .ok key =>
        match decryptSecret env key secret with
        | .error (status, msg) => return .refused status msg
        | .ok plaintext => return .success (.value secret plaintext)

/-- What is encrypted again: the new value, or the one that comes out under the old key. -/
def plaintextOf (env : Env) (value : Option Bytes) (secret : Secret) :
    Op (Except Refusal Bytes) := do
  match value with
  | some value => return .ok value
  | none =>
    match ← readKeyByErn secret.encryptionKeyErn with
    | .error msg => return .error (.conflict, msg)
    | .ok oldKey => return decryptSecret env oldKey secret

def Secret.resealed (secret : Secret) (value : Option Bytes) (key : KeyMaterial)
    (encrypted : Bytes) : Secret :=
  { secret with
    value := base64Encode encrypted
    encryptionKeyErn := key.ern
    version := if value.isSome then int64 (secret.version + 1) else secret.version }

/-- The secret is moved to another key. -/
def isRekeying (keyErn : String) (secret : Secret) : Prop :=
  keyErn ≠ "" ∧ keyErn ≠ secret.encryptionKeyErn

instance (keyErn : String) (secret : Secret) : Decidable (isRekeying keyErn secret) :=
  inferInstanceAs (Decidable (_ ∧ _))

section

variable (env : Env) (sender : Sender) (req : UpdateSecretRequest) (secret : Secret)

/-- What `handleUpdateSecret` does where the stored bytes have to be written again. -/
def reseal : Op (Except Refusal Secret) := do
  match ← writeKeyByErn
      (if isRekeying req.keyErn secret then req.keyErn else secret.encryptionKeyErn) with
  | .error msg => return .error (.conflict, msg)
  | .ok key =>
    match ← plaintextOf env req.value secret with
    | .error refusal => return .error refusal
    | .ok plaintext =>
      match encryptSecret env sender key plaintext with
      | .error refusal => return .error refusal
      | .ok encrypted => return .ok (secret.resealed req.value key encrypted)

/-- What `handleUpdateSecret` makes of the secret that it has read. -/
def revised : Op (Except Refusal Secret) :=
  let described := { secret with description := req.description.getD secret.description }
  if req.value.isSome ∨ isRekeying req.keyErn described then
    reseal env sender req described
  else .done (.ok described)

end

def updateError (req : UpdateSecretRequest) : Option String :=
  if req.name = "" then some "name is required"
  else if req.value = none ∧ req.description = none ∧ req.keyErn = "" then
    some "Name a value, a description or a key to change"
  else if req.value = some [] then some "value must not be empty"
  else none

def handleUpdateSecret (env : Env) (sender : Sender)
    (req : UpdateSecretRequest) : Op (Response Reply) := do
  match sender.caller, updateError req with
  | none, _ => return .unauthorized
  | some _, some msg => return .refused .badRequest msg
  | some caller, none =>
    match ← findGrantedSecret caller sender req.name with
    | .error (status, msg) => return .refused status msg
    | .ok secret =>
      match ← revised env sender req secret with
      | .error (status, msg) => return .refused status msg
      | .ok updated =>
        let stored ← upsertSecret updated
        return .success (.secret stored)

def handleDeleteSecret (sender : Sender) (name : String) : Op (Response Reply) := do
  match sender.caller with
  | none => return .unauthorized
  | some caller =>
    match ← findGrantedSecret caller sender name with
    | .error (status, msg) => return .refused status msg
    | .ok secret =>
      deleteSecret ⟨caller.accountId, sender.nameSpace, name⟩
      return .success (.deleted secret.ern secret.name)

def Secret.withTag (secret : Secret) (key : String) (value : Option String) : Secret :=
  { secret with tags := Function.update secret.tags key value }

/-- `handleSecretTag`: a tag is set, or erased. -/
def handleSecretTag (sender : Sender) (name key : String) (value : Option String) :
    Op (Response Reply) := do
  match sender.caller with
  | none => return .unauthorized
  | some caller =>
    if name = "" ∨ key = "" then return .refused .badRequest "name and key are required"
    match ← findGrantedSecret caller sender name with
    | .error (status, msg) => return .refused status msg
    | .ok secret =>
      let stored ← upsertSecret (secret.withTag key value)
      return .success (.secret stored)

/-! ### Handlers of EKM -/

def newKey (env : Env) (caller : Caller) (sender : Sender)
    (req : CreateKeyRequest) (keyBits : ℕ) : Key where
  attributes :=
    { region := caller.region
      accountId := caller.accountId
      nameSpace := sender.nameSpace
      ern := createEkmKeyErn env caller.accountId sender.draws.uuid
      name := sender.draws.uuid
      description := req.description
      algorithm := req.algorithm
      length := req.length
      keyMaterial := generateAesKey sender.draws keyBits
      status := .available
      tags := fun _ => none }
  deletionDate := 0

/-- The length of the key that is asked for, if there are such keys. -/
def keyBitsOf (req : CreateKeyRequest) : Option ℕ :=
  if req.algorithm = "AES" ∧ req.length = 128 then some 128
  else if req.algorithm = "AES" ∧ req.length = 256 then some 256
  else none

def handleCreateKey (env : Env) (sender : Sender) (req : CreateKeyRequest) :
    Op (Response Reply) := do
  match sender.caller, keyBitsOf req with
  | none, _ => return .unauthorized
  | some _, none =>
    return .refused .badRequest
      ("Unsupported algorithm/length: " ++ req.algorithm ++ "/" ++ toString req.length)
  | some caller, some keyBits =>
    let saved ← upsertKey (newKey env caller sender req keyBits)
    return .success (.key saved)

def handleRevokeKey (sender : Sender) (ern : String) : Op (Response Reply) := do
  match sender.caller with
  | none => return .unauthorized
  | some _ =>
    if ern = "" then return .refused .badRequest "Missing ERN"
    match ← findKeyByErn ern with
    | none => return .refused .notFound ("Key not found, ern: " ++ ern)
    | some key =>
      if key.attributes.status = .pendingDeletion then
        return .refused .badRequest
          ("Ern '" ++ ern ++ "' is already scheduled for deletion; encryption is already blocked")
      let saved ← upsertKey (key.withStatus .revoked)
      return .success (.key saved)

/-- What is asked of one key, asked of the collection of all keys. Only the sweep and what sets a
deletion date read the clock, and neither is asked for here. -/
def onKey (ern : String) : (req : Ekm.Req) → Op req.Answer
  | .find => findKeyByErn ern
  | .upsert key => upsertKey key
  | .readClock => .done (0 : Int)
  | .purge _ => .done (0 : ℕ)

/-- To revoke a key is what it is where one key is all there is. -/
theorem handleRevokeKey_eq {sender : Sender} (known : sender.caller.isSome) (ern : String) :
    handleRevokeKey sender ern =
      ((Ekm.handleRevokeKey ern).interpret (onKey ern) Empty.elim).bind fun answer =>
        .done <| match answer with
          | .success (some saved) => .success (.key saved)
          | .success none => .unauthorized
          | .refused status msg => .refused status msg
          | .unauthorized => .unauthorized := by
  obtain ⟨caller, known⟩ := Option.isSome_iff_exists.mp known
  unfold handleRevokeKey Ekm.handleRevokeKey
  rw [known]
  dsimp only
  split
  · rfl
  · refine congrArg (ask (Statement.findKeyByErn ern)) (funext fun answer => ?_)
    dsimp only [bind_done, pure_eq]
    cases Eam.Store.orNone answer with
    | none => rfl
    | some key =>
      by_cases pending : key.attributes.status = .pendingDeletion
      · simp only [Program.bind, if_pos pending]
        rfl
      · simp only [Program.bind, if_neg pending]
        refine congrArg (ask (Statement.upsertKey (key.withStatus .revoked)))
          (funext fun saved => ?_)
        cases saved <;> rfl

/-! ### Calls -/

inductive Action where
  | createSecret (req : CreateSecretRequest)
  | getSecret (name : String)
  | updateSecret (req : UpdateSecretRequest)
  | deleteSecret (name : String)
  | addSecretTag (name key value : String)
  | deleteSecretTag (name key : String)
  | createKey (req : CreateKeyRequest)
  | revokeKey (ern : String)

structure Call where
  sender : Sender
  action : Action

def Call.program (env : Env) (call : Call) : Op (Response Reply) :=
  match call.action with
  | .createSecret req => handleCreateSecret env call.sender req
  | .getSecret name => handleGetSecret env call.sender name
  | .updateSecret req => handleUpdateSecret env call.sender req
  | .deleteSecret name => handleDeleteSecret call.sender name
  | .addSecretTag name key value => handleSecretTag call.sender name key (some value)
  | .deleteSecretTag name key => handleSecretTag call.sender name key none
  | .createKey req => handleCreateKey env call.sender req
  | .revokeKey ern => handleRevokeKey call.sender ern

/-- The requests of several instances, interleaved. -/
def interleave (env : Env) {Thread : Type} [DecidableEq Thread] (world : World)
    (calls : Thread → Call) (schedule : List Thread) :
    Pool Thread Statement Statement.Answer StoreError (Response Reply) World :=
  (Pool.start world fun tid => (calls tid).program env).run (machine env) schedule

def Succeeds (program : Op (Response Reply)) : Prop :=
  ∃ reply, program = .done (.success reply)

instance (program : Op (Response Reply)) : Decidable (Succeeds program) :=
  match program with
  | .done (.success reply) => .isTrue ⟨reply, rfl⟩
  | .done .unauthorized => .isFalse nofun
  | .done (.refused _ _) => .isFalse nofun
  | .raise _ => .isFalse nofun
  | .ask _ _ => .isFalse nofun

end Euclid.Ess
