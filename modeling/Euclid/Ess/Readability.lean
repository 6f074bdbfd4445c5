/-
This file proves when every stored secret stays readable.

A secret and the key that it is encrypted under are written as whole documents, each by a request
that has looked before. Where a key that is written, a secret that is created and a secret that is
written back find what their request was told, the material under an ERN never changes, and an
induction on the history carries two facts: every key that a request holds is stored with its
material, and every stored secret decrypts to the value that was given last. That decryption fails
under other material is needed for none of this. A request that gives a value is answered with
success if its write is, which makes the value that was given last the one of a request that
succeeded.
-/

import Euclid.Core.ObjectReading
import Euclid.Ess.Server

namespace Euclid.Ess

open Program Discipline List Option Except Statement Catalog Event
open Core (base64Encode base64Decode aesGcmEncrypt aesGcmDecrypt)
open Eag (Response Refusal)
open Eam.Store (Fate StoreError orNone)
open Ekm (Key Row)

variable {Thread : Type}

/-! ### What was given last -/

/-- The value that a request gives. -/
def Call.given (call : Call) : Option Bytes :=
  match call.action with
  | .createSecret req => some req.value
  | .updateSecret req => req.value
  | _ => none

def Call.creates (call : Call) : Bool :=
  match call.action with
  | .createSecret _ => true
  | _ => false

theorem given_of_creates {call : Call} (creates : call.creates) :
    ∃ value, call.given = some value := by
  unfold Call.creates at creates
  unfold Call.given
  split at creates
  · rename_i req same
    rw [same]
    exact ⟨req.value, rfl⟩
  · nomatch creates

/-- The value that an event gives a secret. -/
def gives (calls : Thread → Call) (id : ResourceId) (event : Happening Thread) : Option Bytes :=
  match event.request with
  | .upsertSecret written => if written.id = id then (calls event.thread).given else none
  | _ => none

/-- The value that was given a secret last, by the events that count. -/
def lastValue (calls : Thread → Call) (counts : Happening Thread → Prop) [DecidablePred counts]
    (start : ResourceId → Option Bytes) : Past Thread → ResourceId → Option Bytes
  | [], id => start id
  | event :: earlier, id =>
    (if counts event then gives calls id event else none).or
      (lastValue calls counts start earlier id)

/-- A request has replaced the value of a secret that was there. -/
def Replaces (event : Happening Thread) : Prop :=
  ∃ id, ∃ old ∈ event.before.secrets.find? id, ∃ new ∈ event.after.secrets.find? id,
    new.value ≠ old.value

/-! ### What a request holds -/

/-- What makes a key the one that it is: its ERN and its material. -/
def keyIdentity (attributes : Ekm.Attributes) : String × String :=
  (attributes.ern, attributes.keyMaterial)

/-- What is sealed in a secret: the encrypted value, and the key that it names. -/
def Secret.sealed (secret : Secret) : Core.Text × String := (secret.value, secret.encryptionKeyErn)

/-- A request, the secret and the keys that it has read, the latest first, and whether its write of
a secret, if there was one, was reported to be carried out. -/
structure Copies where
  call : Call
  secret : Option Secret
  keys : List Key
  written : Option Bool

open Copies

def learned : (stmt : Statement) → stmt.Answer → List Key
  | .findKeyByName _, answer => (orNone answer).toList
  | .findKeyByErn _, answer => (orNone answer).toList
  | .upsertKey _, .ok saved => [saved]
  | _, _ => []

/-- Whether a write of a secret was reported to be carried out. -/
def reported : (stmt : Statement) → stmt.Answer → Option Bool
  | .upsertSecret _, .ok _ => some true
  | .upsertSecret _, .error _ => some false
  | _, _ => none

def Copies.after (copies : Copies) (stmt : Statement) (answer : stmt.Answer) : Copies where
  call := copies.call
  secret :=
    match stmt, answer with
    | .findSecretByName _, answer => orNone answer
    | _, _ => copies.secret
  keys := learned stmt answer ++ copies.keys
  written := (reported stmt answer).or copies.written

/-- Under a key that it names, a secret decrypts to a value. -/
def KeyOpens (env : Env) (key : KeyMaterial) (secret : Secret) (value : Bytes) : Prop :=
  secret.encryptionKeyErn = key.ern ∧ decrypt env key.material secret = .ok value

/-- The request holds a key. -/
def Copies.HasKey (copies : Copies) (key : KeyMaterial) : Prop :=
  ∃ held ∈ copies.keys, materialAndErn held = key

/-- A secret is written as it was read, or with the same value under another key. -/
def Copies.Keeps (env : Env) (copies : Copies) (read written : Secret) : Prop :=
  written.id = read.id ∧ (written.sealed = read.sealed ∨ ∃ plaintext,
    (∃ key, copies.HasKey key ∧ KeyOpens env key read plaintext) ∧
      ∃ key, copies.HasKey key ∧ KeyOpens env key written plaintext)

/-- What a request may write: a key that is new or the one that it has read, a secret under a key
that it holds, and nothing after its secret. -/
def Copies.MayAsk (env : Env) (copies : Copies) (stmt : Statement) : Prop :=
  copies.written = none ∧
    match stmt with
    | .upsertKey written =>
      ∀ read ∈ copies.keys.head?, keyIdentity written.attributes = keyIdentity read.attributes
    | .upsertSecret written =>
      match copies.call.given with
      | some value => (copies.call.creates → copies.secret = none) ∧
          ∃ key, copies.HasKey key ∧ KeyOpens env key written value
      | none => ∃ read ∈ copies.secret, copies.Keeps env read written
    | _ => True

/-- The discipline of sealing. A session is the request of a thread and what it holds. -/
def sealing (env : Env) : Discipline Statement Answer Copies where
  allows := MayAsk env
  expects := fun _ stmt answer =>
    match stmt, answer with
    | .findKeyByErn ern, answer => ∀ key ∈ orNone answer, key.attributes.ern = ern
    | _, _ => True
  after := after

/-- What a request holds before it has asked for anything. -/
def Copies.start (call : Call) : Copies := ⟨call, none, [], none⟩

section Property

variable [DecidableEq Thread] (env : Env) (calls : Thread → Call)

/-- What the request of a thread holds, after what has happened. -/
def copiesOf (past : Past Thread) (tid : Thread) : Copies :=
  (sealing env).sessions (fun tid => start (calls tid)) past tid

/-- A write finds what its request was told. A key is the one that was read, or there is none of its
name. A secret that is written without a value has the same value and names the same key as when it
was read, and a secret that is created is not there. A write of a value is not carried out and said
to have failed. -/
def IsCurrent (earlier : Past Thread) (event : Happening Thread) : Prop :=
  match event.request with
  | .upsertKey written =>
    env.fate event.before.moment ≠ .failed →
      ¬event.before.keys.IsTaken (event.before.rowOf written) →
        (event.before.keys.find? (idOfKey written.attributes)).map
            (fun row => keyIdentity row.attributes) =
          (copiesOf env calls earlier event.thread).keys.head?.map
            (fun key => keyIdentity key.attributes)
  | .upsertSecret written =>
    env.fate event.before.moment ≠ .failed → ¬event.before.secrets.IsTaken written →
      ((calls event.thread).given ≠ none → env.fate event.before.moment ≠ .unanswered) ∧
        ((calls event.thread).given = none ∨ (calls event.thread).creates →
          (event.before.secrets.find? written.id).map Secret.sealed =
            (copiesOf env calls earlier event.thread).secret.map Secret.sealed)
  | _ => True

instance (earlier : Past Thread) (event : Happening Thread) :
    Decidable (IsCurrent env calls earlier event) := by
  unfold IsCurrent
  split <;> infer_instance

end Property

/-! ### Encryption -/

variable {secret : Secret} {key : KeyMaterial}

section Encryption

variable {env : Env} {plaintext : Bytes} {encrypted : Bytes}

theorem decrypt_encrypted {sender : Sender}
    (made : encryptSecret env sender key plaintext = .ok encrypted)
    (value : secret.value = base64Encode encrypted) :
    decrypt env key.material secret = .ok plaintext := by
  unfold decrypt
  rw [value, Core.base64Decode_base64Encode]
  unfold encryptSecret aesGcmEncrypt at made
  split at made
  · rename_i bytes encryption
    obtain rfl := ok.inj made
    split at encryption
    · rename_i valid
      obtain rfl := ok.inj encryption
      rw [Core.ObjectCipher.aesGcmDecrypt_append valid sender.draws.iv_length
        (env.lawful.tag_length ..), env.lawful.decipher_encipher]
    · nomatch encryption
  · nomatch made

theorem keyOpens_of_encrypted {sender : Sender}
    (made : encryptSecret env sender key plaintext = .ok encrypted)
    (value : secret.value = base64Encode encrypted) (ern : secret.encryptionKeyErn = key.ern) :
    KeyOpens env key secret plaintext :=
  ⟨ern, decrypt_encrypted made value⟩

theorem decryptSecret_ok (decrypted : decryptSecret env key secret = .ok plaintext) :
    decrypt env key.material secret = .ok plaintext := by
  unfold decryptSecret at decrypted
  split at decrypted
  · rename_i same
    rw [same, ok.inj decrypted]
  · nomatch decrypted

end Encryption

/-! ### What a request does -/

section Follows

variable {env : Env} {copies reached : Copies}

/-- A request holds what it held, and perhaps more keys, and has not written its secret. -/
structure Copies.Grows (copies reached : Copies) : Prop where
  call : reached.call = copies.call
  secret : reached.secret = copies.secret
  keys : ∀ key, copies.HasKey key → reached.HasKey key
  written : reached.written = none

theorem Copies.Grows.refl (fresh : copies.written = none) : copies.Grows copies :=
  ⟨rfl, rfl, fun _ has => has, fresh⟩

theorem Copies.Grows.trans {last : Copies} (first : copies.Grows reached)
    (second : reached.Grows last) : copies.Grows last where
  call := second.call.trans first.call
  secret := second.secret.trans first.secret
  keys key has := second.keys key (first.keys key has)
  written := second.written

/-- A program of a request has ended: in a result that leads on, or in a fault before its secret was
written. -/
def Leads {Result : Type} (leads : Result → Copies → Prop) :
    Except StoreError Result → Copies → Prop
  | .ok result, reached => leads result reached
  | .error _, reached => reached.written = none

/-- A request has ended: with success if its secret was written, and otherwise not, if it gives a
value. -/
def Agrees (outcome : Except StoreError (Response Reply)) (reached : Copies) : Prop :=
  match reached.written with
  | some true => ∃ reply, outcome = .ok (.success reply)
  | _ => reached.call.given ≠ none → ∀ reply, outcome ≠ .ok (.success reply)

theorem agrees_refused {response : Response Reply} (fresh : reached.written = none)
    (refuses : ∀ reply, response ≠ .success reply) : Agrees (.ok response) reached := by
  unfold Agrees
  rw [fresh]
  exact fun _ reply same => refuses reply (ok.inj same)

theorem agrees_fault {fault : StoreError} (fresh : reached.written = none) :
    Agrees (.error fault) reached := by
  unfold Agrees
  rw [fresh]
  exact nofun

theorem agrees_of_not_given {outcome : Except StoreError (Response Reply)}
    (fresh : reached.written = none) (givesNone : reached.call.given = none) :
    Agrees outcome reached := by
  unfold Agrees
  rw [fresh]
  exact fun gives => absurd givesNone gives

theorem follows_then {First Second : Type} {first : Op First}
    {second : First → Op Second} {leads : First → Copies → Prop}
    {ends : Except StoreError Second → Copies → Prop}
    (before : first.Follows (sealing env) copies (Leads leads))
    (failing : ∀ fault reached, reached.written = none → ends (.error fault) reached)
    (after : ∀ result reached, leads result reached →
      (second result).Follows (sealing env) reached ends) :
    (first >>= second).Follows (sealing env) copies ends := by
  refine follows_bind.mpr (before.mono fun outcome reached ended => ?_)
  cases outcome with
  | error fault => exact failing fault reached ended
  | ok result => exact after result reached ended

theorem leads_fault {Result : Type} {leads : Result → Copies → Prop} (fault : StoreError)
    (reached : Copies) (fresh : reached.written = none) : Leads leads (.error fault) reached :=
  fresh

theorem hasKey_after {found : Option Key} {key : Key} (mem : key ∈ found)
    (keys : reached.keys = found.toList ++ copies.keys) : reached.HasKey (materialAndErn key) :=
  ⟨key, keys ▸ mem_append_left _ (mem_toList.mpr mem), rfl⟩

theorem Copies.Grows.of_keys {more : List Key} (call : reached.call = copies.call)
    (secret : reached.secret = copies.secret) (keys : reached.keys = more ++ copies.keys)
    (fresh : reached.written = none) : copies.Grows reached where
  call := call
  secret := secret
  keys := fun _ ⟨held, mem, same⟩ => ⟨held, keys ▸ mem_append_right _ mem, same⟩
  written := fresh

section

variable (fresh : copies.written = none)

include fresh

theorem findKeyByErn_follows (ern : String) :
    (findKeyByErn ern).Follows (sealing env) copies (Leads fun found reached =>
      copies.Grows reached ∧ ∀ key ∈ found, key.attributes.ern = ern ∧
        reached.HasKey (materialAndErn key) ∧ reached.keys.head? = some key) := by
  refine ⟨⟨fresh, trivial⟩, fun answer expected => ?_⟩
  refine ⟨.of_keys rfl rfl rfl fresh, fun key mem => ⟨expected key mem, hasKey_after mem rfl, ?_⟩⟩
  show ((orNone answer).toList ++ copies.keys).head? = some key
  rw [show orNone answer = some key from mem]
  rfl

theorem findKeyByName_follows (id : ResourceId) :
    (findKeyByName id).Follows (sealing env) copies (Leads fun found reached =>
      copies.Grows reached ∧ (∀ key ∈ found, reached.HasKey (materialAndErn key)) ∧
        (found = none → reached.keys = copies.keys)) := by
  refine ⟨⟨fresh, trivial⟩, fun answer _ => ?_⟩
  refine ⟨.of_keys rfl rfl rfl fresh, fun key mem => hasKey_after mem rfl, fun none => ?_⟩
  show (orNone answer).toList ++ copies.keys = copies.keys
  rw [none]
  rfl

theorem findSecretByName_follows (id : ResourceId) :
    (findSecretByName id).Follows (sealing env) copies (Leads fun found reached =>
      reached = { copies with secret := found }) := by
  refine ⟨⟨fresh, trivial⟩, fun answer _ => ?_⟩
  show after copies (.findSecretByName id) answer = _
  rfl

theorem upsertKey_follows {key : Key}
    (same : ∀ read ∈ copies.keys.head?, keyIdentity key.attributes = keyIdentity read.attributes) :
    (upsertKey key).Follows (sealing env) copies (Leads fun saved reached =>
      copies.Grows reached ∧ reached.HasKey (materialAndErn saved)) := by
  refine ⟨⟨fresh, same⟩, fun answer _ => ?_⟩
  cases answer with
  | error fault => exact fresh
  | ok saved =>
    exact ⟨.of_keys rfl rfl rfl fresh, saved, .head _, rfl⟩

end

theorem upsertSecret_follows (allowed : copies.MayAsk env (.upsertSecret secret)) :
    (do return .success (.secret (← upsertSecret secret)) : Op (Response Reply)).Follows
      (sealing env) copies Agrees := by
  refine ⟨allowed, fun answer _ => ?_⟩
  cases answer with
  | error fault => exact nofun
  | ok saved => exact ⟨_, rfl⟩

/-- What a lookup of a key leads to: the key that it gives is held. -/
def LooksUp (copies : Copies) (lookup : Except String KeyMaterial) (reached : Copies) : Prop :=
  copies.Grows reached ∧ ∀ key, lookup = .ok key → reached.HasKey key

section

variable (fresh : copies.written = none)

include fresh

theorem writeKeyByErn_follows (keyErn : String) :
    (writeKeyByErn keyErn).Follows (sealing env) copies (Leads (LooksUp copies)) := by
  refine follows_then (findKeyByErn_follows fresh keyErn) leads_fault ?_
  rintro found reached ⟨grows, holds⟩
  cases found with
  | none => exact ⟨grows, nofun⟩
  | some key =>
    dsimp only
    split
    · exact ⟨grows, nofun⟩
    · split
      · exact ⟨grows, nofun⟩
      · refine ⟨grows, fun other same => ?_⟩
        rw [← ok.inj same]
        exact (holds key rfl).2.1

theorem readKeyByErn_follows (keyErn : String) :
    (readKeyByErn keyErn).Follows (sealing env) copies (Leads fun lookup reached =>
      LooksUp copies lookup reached ∧ ∀ key, lookup = .ok key → key.ern = keyErn) := by
  refine follows_then (findKeyByErn_follows fresh keyErn) leads_fault ?_
  rintro found reached ⟨grows, holds⟩
  cases found with
  | none => exact ⟨⟨grows, nofun⟩, nofun⟩
  | some key =>
    dsimp only
    split
    · exact ⟨⟨grows, nofun⟩, nofun⟩
    · refine ⟨⟨grows, fun other same => ?_⟩, fun other same => ?_⟩
      · rw [← ok.inj same]
        exact (holds key rfl).2.1
      · rw [← ok.inj same]
        exact (holds key rfl).1

variable {caller : Caller}

theorem namespaceKey_follows (noKey : copies.keys = []) {sender : Sender} :
    (namespaceKey env caller sender).Follows (sealing env) copies (Leads (LooksUp copies)) := by
  refine follows_then (findKeyByName_follows fresh _) leads_fault ?_
  rintro found reached ⟨grows, holds, nothing⟩
  cases found with
  | some key =>
    dsimp only
    split
    · exact ⟨grows, nofun⟩
    · split
      · exact ⟨grows, nofun⟩
      · refine ⟨grows, fun other same => ?_⟩
        rw [← ok.inj same]
        exact holds key rfl
  | none =>
    refine follows_then (upsertKey_follows grows.written fun read mem => ?_) leads_fault ?_
    · rw [nothing rfl, noKey] at mem
      nomatch mem
    · rintro saved last ⟨further, held⟩
      refine ⟨grows.trans further, fun key same => ?_⟩
      rw [← ok.inj same]
      exact held

theorem findGrantedSecret_follows {sender : Sender} {name : String} :
    (findGrantedSecret caller sender name).Follows (sealing env) copies
      (Leads fun granted reached => reached.written = none ∧ reached.call = copies.call ∧
        ∀ secret, granted = .ok secret → reached.secret = some secret) := by
  unfold findGrantedSecret
  split
  · exact ⟨fresh, rfl, nofun⟩
  · refine follows_then (findSecretByName_follows fresh _) leads_fault ?_
    rintro found _ rfl
    cases found with
    | none => exact ⟨fresh, rfl, nofun⟩
    | some secret =>
      dsimp only
      split
      · exact ⟨fresh, rfl, nofun⟩
      · refine ⟨fresh, rfl, fun other same => ?_⟩
        rw [← ok.inj same]

theorem plaintextOf_follows {value : Option Bytes} {secret : Secret} :
    (plaintextOf env value secret).Follows (sealing env) copies
      (Leads fun result reached => copies.Grows reached ∧ ∀ plaintext, result = .ok plaintext →
        match value with
        | some value => value = plaintext
        | none => ∃ key, reached.HasKey key ∧ KeyOpens env key secret plaintext) := by
  cases value with
  | some value => exact ⟨.refl fresh, fun plaintext same => ok.inj same⟩
  | none =>
    refine follows_then (readKeyByErn_follows fresh _) leads_fault ?_
    rintro lookup reached ⟨⟨grows, holds⟩, ern⟩
    cases lookup with
    | error msg => exact ⟨grows, nofun⟩
    | ok key =>
      refine ⟨grows, fun plaintext same => ⟨key, holds key rfl, (ern key rfl).symm, ?_⟩⟩
      exact decryptSecret_ok same

end

/-- A secret that is encrypted again has the value that is given, or the one that it had. -/
def Copies.MayBecome (env : Env) (copies : Copies) (value : Option Bytes)
    (read written : Secret) : Prop :=
  match value with
  | some value => ∃ key, copies.HasKey key ∧ KeyOpens env key written value
  | none => copies.Keeps env read written

section

variable (fresh : copies.written = none)

include fresh

variable {req : UpdateSecretRequest} {secret : Secret}

theorem reseal_follows {sender : Sender} :
    (reseal env sender req secret).Follows (sealing env) copies
      (Leads fun result reached => copies.Grows reached ∧ ∀ updated, result = .ok updated →
        reached.MayBecome env req.value secret updated) := by
  refine follows_then (writeKeyByErn_follows fresh _) leads_fault ?_
  rintro lookup reached ⟨grows, holds⟩
  cases lookup with
  | error msg => exact ⟨grows, nofun⟩
  | ok key =>
    refine follows_then (plaintextOf_follows grows.written) leads_fault ?_
    rintro result last ⟨further, opens⟩
    have both := grows.trans further
    cases result with
    | error refusal => exact ⟨both, nofun⟩
    | ok plaintext =>
      dsimp only
      split
      · exact ⟨both, nofun⟩
      · rename_i encrypted encryption
        refine ⟨both, fun updated same => ?_⟩
        obtain rfl := ok.inj same
        have held := further.keys key (holds key rfl)
        have written : KeyOpens env key (secret.resealed req.value key encrypted)
            plaintext :=
          keyOpens_of_encrypted encryption rfl rfl
        have plain := opens plaintext rfl
        unfold MayBecome
        split at plain
        · rw [plain]
          exact ⟨key, held, written⟩
        · exact ⟨rfl, .inr ⟨plaintext, plain, key, held, written⟩⟩

/-- A secret that is revised has the value that is given, or the one that it had. -/
theorem revised_follows {sender : Sender} :
    (revised env sender req secret).Follows (sealing env) copies
      (Leads fun result reached => copies.Grows reached ∧ ∀ updated, result = .ok updated →
        reached.MayBecome env req.value secret updated) := by
  unfold revised
  dsimp only
  split
  · refine (reseal_follows fresh).mono fun outcome reached ends => ?_
    cases outcome with
    | error fault => exact ends
    | ok result =>
      refine ⟨ends.1, fun updated same => ?_⟩
      have became := ends.2 updated same
      unfold MayBecome at became ⊢
      split at became
      · exact became
      · exact became
  · rename_i untouched
    refine ⟨.refl fresh, fun updated same => ?_⟩
    obtain rfl := ok.inj same
    have noValue : req.value = none := by
      cases given : req.value with
      | none => rfl
      | some value => exact absurd (.inl (by rw [given]; rfl)) untouched
    rw [noValue]
    exact ⟨rfl, .inl rfl⟩

theorem createKeyLookup_follows (noKey : copies.keys = [])
    {caller : Caller} {sender : Sender} {keyErn : String} :
    (createKeyLookup env caller sender keyErn).Follows (sealing env) copies
      (Leads (LooksUp copies)) := by
  unfold createKeyLookup
  split
  · exact namespaceKey_follows fresh noKey
  · exact writeKeyByErn_follows fresh keyErn

theorem secretExists_follows {id : ResourceId} :
    (secretExists id).Follows (sealing env) copies (Leads fun there reached =>
      ∃ found, there = found.isSome ∧ reached = { copies with secret := found }) := by
  refine follows_then (findSecretByName_follows fresh id) leads_fault ?_
  rintro found _ rfl
  exact ⟨found, rfl, rfl⟩

end

theorem handleCreateSecret_follows (sender : Sender) (req : CreateSecretRequest) :
    (handleCreateSecret env sender req).Follows (sealing env)
      (.start ⟨sender, .createSecret req⟩) Agrees := by
  unfold handleCreateSecret
  split
  · exact agrees_refused rfl (by simp)
  · split
    · exact agrees_refused rfl (by simp)
    · split
      · exact agrees_refused rfl (by simp)
      · split
        · exact agrees_refused rfl (by simp)
        · split
          · exact agrees_refused rfl (by simp)
          · refine follows_then (secretExists_follows rfl) (fun _ _ => agrees_fault) ?_
            rintro _ _ ⟨found, rfl, rfl⟩
            cases found with
            | some secret => exact agrees_refused rfl (by simp)
            | none =>
              refine follows_then (createKeyLookup_follows rfl rfl)
                (fun _ _ => agrees_fault) ?_
              rintro lookup reached ⟨grows, holds⟩
              cases lookup with
              | error msg => exact agrees_refused grows.written (by simp)
              | ok key =>
                dsimp only
                split
                · exact agrees_refused grows.written (by simp)
                · rename_i encrypted encryption
                  refine upsertSecret_follows ⟨grows.written, ?_⟩
                  rw [grows.call, grows.secret]
                  exact ⟨fun _ => rfl, key, holds key rfl, keyOpens_of_encrypted encryption rfl rfl⟩

variable {sender : Sender} {name : String}

theorem handleGetSecret_follows :
    (handleGetSecret env sender name).Follows (sealing env)
      (.start ⟨sender, .getSecret name⟩) Agrees := by
  unfold handleGetSecret
  split
  · exact agrees_refused rfl (by simp)
  · refine follows_then (findGrantedSecret_follows rfl) (fun _ _ => agrees_fault) ?_
    rintro granted reached ⟨fresh, call, _⟩
    cases granted with
    | error refusal => exact agrees_refused fresh (by simp)
    | ok secret =>
      refine follows_then (readKeyByErn_follows fresh _) (fun _ _ => agrees_fault) ?_
      rintro lookup last ⟨⟨grows, _⟩, _⟩
      have givesNone : last.call.given = none := by
        rw [grows.call, call]
        rfl
      cases lookup with
      | error msg => exact agrees_of_not_given grows.written givesNone
      | ok key =>
        dsimp only
        split
        · exact agrees_of_not_given grows.written givesNone
        · exact agrees_of_not_given grows.written givesNone

theorem handleUpdateSecret_follows {req : UpdateSecretRequest} :
    (handleUpdateSecret env sender req).Follows (sealing env)
      (.start ⟨sender, .updateSecret req⟩) Agrees := by
  unfold handleUpdateSecret
  split
  · exact agrees_refused rfl (by simp)
  · exact agrees_refused rfl (by simp)
  · refine follows_then (findGrantedSecret_follows rfl)
      (fun _ _ => agrees_fault) ?_
    rintro granted reached ⟨fresh, call, found⟩
    cases granted with
    | error refusal => exact agrees_refused fresh (by simp)
    | ok secret =>
      refine follows_then (revised_follows fresh) (fun _ _ => agrees_fault) ?_
      rintro result last ⟨grows, becomes⟩
      cases result with
      | error refusal => exact agrees_refused grows.written (by simp)
      | ok updated =>
        have became := becomes updated rfl
        refine upsertSecret_follows ⟨grows.written, ?_⟩
        rw [grows.call, grows.secret, call, found secret rfl]
        show match req.value with
          | some value => _
          | none => _
        unfold MayBecome at became
        split at became
        · exact ⟨fun creates => absurd creates (by simp [start, Call.creates]), became⟩
        · exact ⟨secret, rfl, became⟩

theorem handleDeleteSecret_follows :
    (handleDeleteSecret sender name).Follows (sealing env)
      (.start ⟨sender, .deleteSecret name⟩) Agrees := by
  unfold handleDeleteSecret
  split
  · exact agrees_refused rfl (by simp)
  · refine follows_then (findGrantedSecret_follows rfl) (fun _ _ => agrees_fault) ?_
    rintro granted reached ⟨fresh, call, _⟩
    cases granted with
    | error refusal => exact agrees_refused fresh (by simp)
    | ok secret =>
      refine ⟨⟨fresh, trivial⟩, fun answer _ => agrees_of_not_given fresh ?_⟩
      show reached.call.given = none
      rw [call]
      rfl

theorem handleSecretTag_follows {call : Call} (givesNone : call.given = none)
    {key : String} {value : Option String} :
    (handleSecretTag sender name key value).Follows (sealing env) (.start call) Agrees := by
  unfold handleSecretTag
  split
  · exact agrees_refused rfl (by simp)
  · split
    · exact agrees_refused rfl (by simp)
    · refine follows_then (findGrantedSecret_follows rfl) (fun _ _ => agrees_fault) ?_
      rintro granted reached ⟨fresh, same, found⟩
      cases granted with
      | error refusal => exact agrees_refused fresh (by simp)
      | ok secret =>
        refine upsertSecret_follows ⟨fresh, ?_⟩
        rw [same, show (start call).call.given = none from givesNone]
        exact ⟨secret, found secret rfl, rfl, .inl rfl⟩

theorem handleCreateKey_follows {req : CreateKeyRequest} :
    (handleCreateKey env sender req).Follows (sealing env)
      (.start ⟨sender, .createKey req⟩) Agrees := by
  unfold handleCreateKey
  split
  · exact agrees_refused rfl (by simp)
  · exact agrees_refused rfl (by simp)
  · refine follows_then (upsertKey_follows rfl fun read mem => absurd mem (by
      simp [start])) (fun _ _ => agrees_fault) ?_
    rintro saved reached ⟨grows, _⟩
    exact agrees_of_not_given grows.written (by rw [grows.call]; rfl)

theorem handleRevokeKey_follows {ern : String} :
    (handleRevokeKey sender ern).Follows (sealing env)
      (.start ⟨sender, .revokeKey ern⟩) Agrees := by
  unfold handleRevokeKey
  split
  · exact agrees_refused rfl (by simp)
  · split
    · exact agrees_refused rfl (by simp)
    · refine follows_then (findKeyByErn_follows rfl ern) (fun _ _ => agrees_fault) ?_
      rintro found reached ⟨grows, holds⟩
      cases found with
      | none => exact agrees_refused grows.written (by simp)
      | some key =>
        dsimp only
        split
        · exact agrees_refused grows.written (by simp)
        · refine follows_then (upsertKey_follows grows.written fun read mem => ?_)
            (fun _ _ => agrees_fault) ?_
          · rw [(holds key rfl).2.2] at mem
            obtain rfl := some.inj mem
            rfl
          · rintro saved last ⟨further, _⟩
            exact agrees_of_not_given further.written (by rw [further.call, grows.call]; rfl)

theorem call_follows (env : Env) (call : Call) :
    (call.program env).Follows (sealing env) (.start call) Agrees := by
  obtain ⟨sender, action⟩ := call
  cases action with
  | createSecret req => exact handleCreateSecret_follows sender req
  | getSecret name => exact handleGetSecret_follows
  | updateSecret req => exact handleUpdateSecret_follows
  | deleteSecret name => exact handleDeleteSecret_follows
  | addSecretTag name key value => exact handleSecretTag_follows rfl
  | deleteSecretTag name key => exact handleSecretTag_follows rfl
  | createKey req => exact handleCreateKey_follows
  | revokeKey ern => exact handleRevokeKey_follows

end Follows

/-! ### What a statement leaves -/

variable {stmt : Statement} {tid : Thread} {value : Bytes}

section Machine

variable {env : Env} {world after : World}

/-- A key is stored, with its ERN and its material. -/
def World.Holds (world : World) (attributes : Ekm.Attributes) : Prop :=
  ∃ row ∈ world.keys, keyIdentity row.attributes = keyIdentity attributes

/-- Every key that was stored still is, with its ERN and its material. -/
def World.KeepsKeys (world after : World) : Prop :=
  ∀ row ∈ world.keys, after.Holds row.attributes

theorem holds_of_mem {row : Row} (mem : row ∈ world.keys) : world.Holds row.attributes :=
  ⟨row, mem, rfl⟩

theorem World.KeepsKeys.of_eq (same : after.keys = world.keys) : world.KeepsKeys after :=
  fun row mem => ⟨row, same ▸ mem, rfl⟩

theorem World.KeepsKeys.holds (keeps : world.KeepsKeys after) {attributes : Ekm.Attributes}
    (holds : world.Holds attributes) : after.Holds attributes := by
  obtain ⟨row, mem, same⟩ := holds
  obtain ⟨other, stored, kept⟩ := keeps row mem
  exact ⟨other, stored, kept.trans same⟩

theorem World.Holds.opens (key : Key) (holds : world.Holds key.attributes)
    (opens : KeyOpens env (materialAndErn key) secret value) : world.Opens env secret value := by
  obtain ⟨row, mem, same⟩ := holds
  obtain ⟨ern, decrypts⟩ := opens
  have sameErn : row.attributes.ern = key.attributes.ern := congrArg Prod.fst same
  have sameMaterial : row.attributes.keyMaterial = key.attributes.keyMaterial :=
    congrArg Prod.snd same
  refine ⟨row, findLabel?_eq_some.mpr ⟨mem, sameErn.trans ern.symm⟩, ?_⟩
  rw [materialOf, sameMaterial]
  exact decrypts

theorem World.Opens.of_sealed {first second : Secret}
    (opens : world.Opens env first value) (same : second.sealed = first.sealed) :
    world.Opens env second value := by
  obtain ⟨row, found, decrypts⟩ := opens
  have sameValue : second.value = first.value := congrArg Prod.fst same
  have sameErn : second.encryptionKeyErn = first.encryptionKeyErn := congrArg Prod.snd same
  refine ⟨row, sameErn ▸ found, ?_⟩
  unfold decrypt at decrypts ⊢
  rw [sameValue]
  exact decrypts

theorem World.Opens.mono (opens : world.Opens env secret value) (keeps : world.KeepsKeys after) :
    after.Opens env secret value := by
  obtain ⟨row, found, decrypts⟩ := opens
  obtain ⟨mem, ern⟩ := findLabel?_eq_some.mp found
  exact World.Holds.opens row.toKey (keeps row mem) ⟨ern.symm, decrypts⟩

theorem World.Opens.unique {first second : Bytes}
    (left : world.Opens env secret first) (right : world.Opens env secret second) :
    first = second := by
  obtain ⟨row, found, decrypts⟩ := left
  obtain ⟨other, foundToo, decryptsToo⟩ := right
  obtain rfl := some.inj (found.symm.trans foundToo)
  exact ok.inj (decrypts.symm.trans decryptsToo)

theorem machine_of_failed (failed : env.fate world.moment = .failed) :
    machine env tid stmt world = (stmt.failure, world.next) := by
  unfold machine
  rw [failed]

theorem machine_of_works (works : env.fate world.moment ≠ .failed) :
    (machine env tid stmt world).2 = (stmt.perform world).2.next ∧
      ((machine env tid stmt world).1 = stmt.failure ∨
        (machine env tid stmt world).1 = (stmt.perform world).1) := by
  unfold machine
  cases fate : env.fate world.moment with
  | carriedOut => exact ⟨rfl, .inr rfl⟩
  | failed => exact absurd fate works
  | unanswered => exact ⟨rfl, .inl rfl⟩

theorem machine_of_carriedOut (carriedOut : env.fate world.moment = .carriedOut) :
    machine env tid stmt world = ((stmt.perform world).1, (stmt.perform world).2.next) := by
  unfold machine
  rw [carriedOut]

theorem learned_failure (stmt : Statement) : learned stmt stmt.failure = [] := by
  cases stmt <;> rfl

variable {stmt : Statement}

theorem holds_learned_perform {world : World} :
    ∀ key ∈ learned stmt (stmt.perform world).1, (stmt.perform world).2.Holds key.attributes := by
  intro key mem
  cases stmt with
  | findKeyByName id =>
    obtain ⟨row, found, rfl⟩ := map_eq_some_iff.mp (mem_toList.mp mem)
    exact holds_of_mem (find?_eq_some.mp found).1
  | findKeyByErn ern =>
    obtain ⟨row, found, rfl⟩ := map_eq_some_iff.mp (mem_toList.mp mem)
    exact holds_of_mem (findLabel?_eq_some.mp found).1
  | upsertKey written =>
    dsimp only [perform] at mem ⊢
    split at mem
    · rename_i free
      obtain rfl := mem_singleton.mp mem
      rw [dif_pos free]
      exact ⟨world.rowOf written, mem_put_self free, rfl⟩
    · nomatch mem
  | findSecretByName id => nomatch mem
  | upsertSecret written => nomatch mem
  | deleteSecret id => nomatch mem

theorem holds_learned {tid : Thread} {world : World} :
    ∀ key ∈ learned stmt (machine env tid stmt world).1,
      (machine env tid stmt world).2.Holds key.attributes := by
  intro key mem
  by_cases failed : env.fate world.moment = .failed
  · rw [machine_of_failed failed, learned_failure] at mem
    nomatch mem
  · obtain ⟨after, unanswered | answered⟩ := machine_of_works failed
    · rw [unanswered, learned_failure] at mem
      nomatch mem
    · rw [answered] at mem
      rw [after]
      exact holds_learned_perform key mem

theorem keepsKeys_put {written : Key} (free : ¬world.keys.IsTaken (world.rowOf written))
    (same : ∀ row ∈ world.keys.find? (idOfKey written.attributes),
      keyIdentity written.attributes = keyIdentity row.attributes) :
    world.KeepsKeys { world with keys := world.keys.put (world.rowOf written) free } := by
  intro row mem
  by_cases own : idOfKey row.attributes = idOfKey written.attributes
  · have found := find?_eq_some.mpr ⟨mem, own⟩
    exact ⟨world.rowOf written, mem_put_self free, same row found⟩
  · exact ⟨row, (mem_put free).mpr (.inr ⟨mem, own⟩), rfl⟩

theorem secrets_of_not_write (isNoWrite : ¬∃ written, stmt = .upsertSecret written) :
    ∀ secret ∈ (machine env tid stmt world).2.secrets, secret ∈ world.secrets := by
  intro secret mem
  by_cases works : env.fate world.moment = .failed
  · rw [machine_of_failed works] at mem
    exact mem
  · rw [(machine_of_works works).1] at mem
    cases stmt with
    | upsertSecret written => exact absurd ⟨written, rfl⟩ isNoWrite
    | deleteSecret id => exact (mem_remove.mp mem).1
    | upsertKey written =>
      dsimp only [perform] at mem
      split at mem
      · exact mem
      · exact mem
    | _ => exact mem

theorem perform_upsertSecret {secret : Secret} :
    ((Statement.upsertSecret secret).perform world).2 = world ∧ world.secrets.IsTaken secret ∧
        ((Statement.upsertSecret secret).perform world).1 = .error .duplicateKey ∨
      ∃ free : ¬world.secrets.IsTaken secret,
        (Statement.upsertSecret secret).perform world =
          (.ok secret, { world with secrets := world.secrets.put secret free }) := by
  dsimp only [Statement.perform]
  split
  · rename_i free
    exact .inr ⟨free, rfl⟩
  · rename_i taken
    exact .inl ⟨rfl, not_not.mp taken, rfl⟩

end Machine

/-! ### Runs -/

section Runs

variable [DecidableEq Thread] {env : Env} {calls : Thread → Call}
variable {start : ResourceId → Option Bytes} {past : Past Thread} {world : World}

/-- The value that was given a secret last by a write that was reported to be carried out. -/
def lastReported (calls : Thread → Call) (start : ResourceId → Option Bytes) :
    Past Thread → ResourceId → Option Bytes :=
  lastValue calls (fun event => reported event.request event.answer = some true) start

/-- Every stored secret opens to the value that was given last, and every key that is held is
stored. -/
structure Sound (env : Env) (calls : Thread → Call)
    (start : ResourceId → Option Bytes) (past : Past Thread) (world : World) : Prop where
  readable : ∀ secret ∈ world.secrets,
    ∃ value ∈ lastReported calls start past secret.id, world.Opens env secret value
  held : ∀ tid, ∀ key ∈ (copiesOf env calls past tid).keys, world.Holds key.attributes

theorem copiesOf_call (past : Past Thread) (tid : Thread) :
    (copiesOf env calls past tid).call = calls tid := by
  induction past with
  | nil => rfl
  | cons event earlier ih =>
    unfold copiesOf at ih ⊢
    rw [sessions_cons]
    split
    · exact ih
    · exact ih

theorem keepsKeys_machine (allowed : (copiesOf env calls past tid).MayAsk env stmt)
    (current : IsCurrent env calls past (made (machine env) tid stmt world)) :
    world.KeepsKeys (machine env tid stmt world).2 := by
  by_cases works : env.fate world.moment = .failed
  · rw [machine_of_failed works]
    exact .of_eq rfl
  · rw [(machine_of_works works).1]
    cases stmt with
    | upsertKey written =>
      dsimp only [Statement.perform]
      split
      · rename_i free
        have same := current works free
        refine keepsKeys_put free fun row found => ?_
        rw [show world.keys.find? (idOfKey written.attributes) = some row from found] at same
        obtain ⟨read, first, equal⟩ := map_eq_some_iff.mp same.symm
        exact (allowed.2 read first).trans equal
      · exact .of_eq rfl
    | upsertSecret written =>
      rcases perform_upsertSecret with ⟨same, _⟩ | ⟨free, same⟩
      · rw [same]
        exact .of_eq rfl
      · rw [same]
        exact .of_eq rfl
    | _ => exact .of_eq rfl

theorem Sound.held_step (sound : Sound env calls start past world)
    (keeps : world.KeepsKeys (machine env tid stmt world).2) (other : Thread) :
    ∀ key ∈ (copiesOf env calls (made (machine env) tid stmt world :: past) other).keys,
      (machine env tid stmt world).2.Holds key.attributes := by
  intro key mem
  unfold copiesOf at mem
  rw [sessions_cons] at mem
  split at mem
  · rcases mem_append.mp mem with new | old
    · exact holds_learned key new
    · exact keeps.holds (sound.held other key old)
  · exact keeps.holds (sound.held other key mem)

theorem Sound.opens (sound : Sound env calls start past world)
    (has : (copiesOf env calls past tid).HasKey key) (opens : KeyOpens env key secret value) :
    world.Opens env secret value := by
  obtain ⟨held, mem, rfl⟩ := has
  exact World.Holds.opens held (sound.held tid held mem) opens

variable {event : Happening Thread} {id : ResourceId}

omit [DecidableEq Thread] in
theorem lastReported_of_not
    (nothing : reported event.request event.answer ≠ some true ∨ gives calls id event = none) :
    lastReported calls start (event :: past) id = lastReported calls start past id := by
  show (if reported event.request event.answer = some true then gives calls id event
    else none).or _ = _
  rcases nothing with silent | none
  · rw [if_neg silent]
    rfl
  · rw [none, ite_self]
    rfl

omit [DecidableEq Thread] in
theorem lastReported_of_gives (counts : reported event.request event.answer = some true)
    (given : gives calls id event = some value) :
    lastReported calls start (event :: past) id = some value := by
  show (if reported event.request event.answer = some true then gives calls id event
    else none).or _ = _
  rw [if_pos counts, given]
  rfl

section

variable (sound : Sound env calls start past world)

include sound

theorem Sound.readable_kept
    {after : World} (keeps : world.KeepsKeys after) (mem : secret ∈ world.secrets)
    (nothing : reported event.request event.answer ≠ some true ∨
      gives calls secret.id event = none) :
    ∃ value ∈ lastReported calls start (event :: past) secret.id, after.Opens env secret value := by
  obtain ⟨value, last, opens⟩ := sound.readable secret mem
  rw [lastReported_of_not nothing]
  exact ⟨value, last, opens.mono keeps⟩

theorem Sound.opens_kept {read written : Secret}
    (kept : (copiesOf env calls past tid).Keeps env read written)
    {stored : Secret} (mem : stored ∈ world.secrets) (own : stored.id = written.id)
    (same : stored.sealed = read.sealed) :
    ∃ value ∈ lastReported calls start past written.id, world.Opens env written value := by
  obtain ⟨value, last, opens⟩ := sound.readable stored mem
  rw [own] at last
  refine ⟨value, last, ?_⟩
  obtain ⟨_, untouched | ⟨plaintext, ⟨old, hasOld, opensRead⟩, new, hasNew, opensWritten⟩⟩ := kept
  · exact opens.of_sealed (untouched.trans same.symm)
  · -- what came out under the old key is the value that was given last
    have asRead := opens.of_sealed same.symm
    rw [asRead.unique (sound.opens hasOld opensRead)]
    exact sound.opens hasNew opensWritten

/-- After a write of a secret, every stored secret opens to the value that was given last. -/
theorem Sound.readable_upsertSecret {written : Secret}
    (allowed : (copiesOf env calls past tid).MayAsk env (.upsertSecret written))
    (current : IsCurrent env calls past (made (machine env) tid (.upsertSecret written) world))
    (keeps : world.KeepsKeys (machine env tid (.upsertSecret written) world).2) :
    ∀ secret ∈ (machine env tid (.upsertSecret written) world).2.secrets,
      ∃ value ∈ lastReported calls start
          (made (machine env) tid (.upsertSecret written) world :: past) secret.id,
        (machine env tid (.upsertSecret written) world).2.Opens env secret value := by
  intro secret mem
  by_cases works : env.fate world.moment = .failed
  · rw [machine_of_failed works] at mem
    refine sound.readable_kept keeps mem (.inl ?_)
    show reported _ (machine env tid (.upsertSecret written) world).1 ≠ some true
    rw [machine_of_failed works]
    simp [reported, Statement.failure]
  obtain ⟨after, answer⟩ := machine_of_works works
  rw [after] at mem
  rcases perform_upsertSecret with ⟨same, _, refused⟩ | ⟨free, same⟩
  · -- the unique index refuses the write
    rw [same] at mem
    refine sound.readable_kept keeps mem (.inl ?_)
    show reported _ (machine env tid (.upsertSecret written) world).1 ≠ some true
    rcases answer with answered | answered
    · rw [answered]
      simp [reported, Statement.failure]
    · rw [answered, refused]
      simp [reported]
  · rw [same] at mem
    obtain ⟨answers, current⟩ := current works free
    rcases (mem_put free).mp mem with rfl | ⟨old, other⟩
    · cases given : (calls tid).given with
      | none =>
        have kept := allowed.2
        rw [copiesOf_call, given] at kept
        obtain ⟨read, found, kept⟩ := kept
        have equal := current (.inl given)
        rw [show (copiesOf env calls past tid).secret = some read from found] at equal
        obtain ⟨stored, there, sealed⟩ := map_eq_some_iff.mp equal
        obtain ⟨inSecrets, own⟩ := find?_eq_some.mp there
        obtain ⟨value, last, opens⟩ := sound.opens_kept kept inSecrets own sealed
        rw [lastReported_of_not (.inr _)]
        · exact ⟨value, last, opens.mono keeps⟩
        · show (if secret.id = secret.id then (calls tid).given else none) = none
          rw [given, ite_self]
      | some value =>
        have seals := allowed.2
        rw [copiesOf_call, given] at seals
        obtain ⟨_, key, has, opens⟩ := seals
        have carriedOut : env.fate world.moment = .carriedOut := by
          cases fate : env.fate world.moment with
          | carriedOut => rfl
          | failed => exact absurd fate works
          | unanswered => exact absurd fate (answers (by rw [given]; simp))
        refine ⟨value, lastReported_of_gives ?_ ?_, (sound.opens has opens).mono keeps⟩
        · show reported _ (machine env tid (.upsertSecret secret) world).1 = some true
          rw [machine_of_carriedOut carriedOut, same]
          rfl
        · show (if secret.id = secret.id then (calls tid).given else none) = some value
          rw [if_pos rfl, given]
    · refine sound.readable_kept keeps old (.inr ?_)
      exact if_neg fun own => other own.symm

variable (allowed : (copiesOf env calls past tid).MayAsk env stmt)
  (current : IsCurrent env calls past (made (machine env) tid stmt world))

include current allowed

theorem Sound.readable_step (keeps : world.KeepsKeys (machine env tid stmt world).2) :
    ∀ secret ∈ (machine env tid stmt world).2.secrets, ∃ value ∈ lastReported calls start
          (made (machine env) tid stmt world :: past) secret.id,
        (machine env tid stmt world).2.Opens env secret value := by
  intro secret mem
  by_cases isWrite : ∃ written, stmt = .upsertSecret written
  · obtain ⟨written, rfl⟩ := isWrite
    exact sound.readable_upsertSecret allowed current keeps secret mem
  · have old : secret ∈ world.secrets := secrets_of_not_write isWrite secret mem
    refine sound.readable_kept keeps old (.inr ?_)
    cases stmt with
    | upsertSecret written => exact absurd ⟨written, rfl⟩ isWrite
    | _ => rfl

theorem Sound.next :
    Sound env calls start (made (machine env) tid stmt world :: past)
      (machine env tid stmt world).2 :=
  have keeps := keepsKeys_machine allowed current
  ⟨sound.readable_step allowed current keeps, sound.held_step keeps⟩

end

theorem sound_of_governed {origin : World} (readable : ∀ secret ∈ origin.secrets,
      ∃ value ∈ start secret.id, origin.Opens env secret value)
    (governed : (sealing env).Governs (machine env)
      (fun tid => Copies.start (calls tid)) origin past world)
    (current : History.Meets (IsCurrent env calls) past) : Sound env calls start past world := by
  induction governed with
  | start => exact ⟨readable, nofun⟩
  | step governed tid stmt allowed ih =>
    exact (ih current.2).next allowed current.1

theorem not_replaces (creates : (calls tid).creates)
    (allowed : (copiesOf env calls past tid).MayAsk env stmt) (current : IsCurrent env calls past
      (made (machine env) tid stmt world)) : ¬Replaces (made (machine env) tid stmt world) := by
  rintro ⟨id, old, there, new, found, different⟩
  obtain ⟨before, ownOld⟩ := find?_eq_some.mp there
  obtain ⟨after, ownNew⟩ := find?_eq_some.mp found
  -- a secret that was there under the name is the old one
  have unchanged : new ∉ world.secrets := fun mem =>
    different (congrArg Secret.value (key_inj mem before (ownNew.trans ownOld.symm)))
  by_cases isWrite : ∃ written, stmt = .upsertSecret written
  · obtain ⟨written, rfl⟩ := isWrite
    by_cases works : env.fate world.moment = .failed
    · dsimp only at after
      rw [machine_of_failed works] at after
      exact unchanged after
    · dsimp only at after
      rw [(machine_of_works works).1] at after
      rcases perform_upsertSecret with ⟨same, _⟩ | ⟨free, same⟩
      · rw [same] at after
        exact unchanged after
      · rw [same] at after
        rcases (mem_put free).mp after with rfl | ⟨mem, _⟩
        · have missing := (current works free).2 (.inr creates)
          have seals := allowed.2
          obtain ⟨value, given⟩ := given_of_creates creates
          rw [copiesOf_call, given] at seals
          rw [seals.1 creates, ownNew, show world.secrets.find? id = some old from there] at missing
          nomatch missing
        · exact unchanged mem
  · exact unchanged (secrets_of_not_write isWrite new after)

omit [DecidableEq Thread] in
theorem lastValue_congr {counts countsToo : Happening Thread → Prop} [DecidablePred counts]
    [DecidablePred countsToo]
    (same : ∀ event ∈ past, ∀ id, gives calls id event ≠ none → (counts event ↔ countsToo event)) :
    lastValue calls counts start past = lastValue calls countsToo start past := by
  induction past with
  | nil => rfl
  | cons event earlier ih =>
    have rest := ih fun other mem => same other (.tail _ mem)
    funext id
    show (if counts event then gives calls id event else none).or _ =
      (if countsToo event then gives calls id event else none).or _
    rw [rest]
    congr 1
    by_cases nothing : gives calls id event = none
    · rw [nothing, ite_self, ite_self]
    · exact if_congr (same event (.head _) id nothing) rfl rfl

variable {isReported : Bool}

theorem written_settled {origin : World} {later earlier : Past Thread}
    (governed : (sealing env).Governs (machine env)
      (fun tid => Copies.start (calls tid)) origin (later ++ event :: earlier) world)
    (settled : reported event.request event.answer = some isReported) :
    (copiesOf env calls (later ++ event :: earlier) event.thread).written = some isReported := by
  refine governed.sessions_since (·.written = some isReported) ?_ ?_
  · rw [sessions_self]
    show (reported event.request event.answer).or _ = some isReported
    rw [settled]
    rfl
  · intro session stmt answer written allowed
    exact absurd (allowed.1.symm.trans written) (by simp)

/-- A request that has written its secret has ended: with success, if its write was said to be
carried out, and otherwise not, if it gives a value. -/
theorem succeeds_iff {program : Op (Response Reply)} {copies : Copies}
    (follows : program.Follows (sealing env) copies Agrees)
    (written : copies.written = some isReported) (givesSome : copies.call.given ≠ none) :
    Succeeds program ↔ isReported = true := by
  have agrees : ∃ outcome, Agrees outcome copies ∧
      (Succeeds program ↔ ∃ reply, outcome = .ok (.success reply)) := by
    cases program with
    | done result =>
      refine ⟨.ok result, follows, ?_⟩
      constructor
      · rintro ⟨reply, same⟩
        exact ⟨reply, congrArg Except.ok (Program.done.inj same)⟩
      · rintro ⟨reply, same⟩
        exact ⟨reply, congrArg Program.done (ok.inj same)⟩
    | raise fault =>
      refine ⟨.error fault, follows, ?_⟩
      constructor
      · rintro ⟨reply, same⟩
        nomatch same
      · rintro ⟨reply, same⟩
        nomatch same
    | ask stmt next => exact absurd (follows.1.1.symm.trans written) (by simp)
  obtain ⟨outcome, agrees, ended⟩ := agrees
  rw [ended]
  unfold Agrees at agrees
  rw [written] at agrees
  cases isReported with
  | true => exact ⟨fun _ => rfl, fun _ => agrees⟩
  | false =>
    constructor
    · rintro ⟨reply, same⟩
      exact absurd same (agrees givesSome reply)
    · exact nofun

omit [DecidableEq Thread] in
theorem reported_of_gives (gives : gives calls id event ≠ none) :
    (∃ isReported, reported event.request event.answer = some isReported) ∧
      (calls event.thread).given ≠ none := by
  obtain ⟨tid, stmt, answer, before, after⟩ := event
  cases stmt with
  | upsertSecret written =>
    constructor
    · cases answer with
      | ok saved => exact ⟨true, rfl⟩
      | error fault => exact ⟨false, rfl⟩
    · intro none
      refine gives ?_
      show (if written.id = id then (calls tid).given else Option.none) = Option.none
      rw [show (calls tid).given = Option.none from none, ite_self]
  | _ => exact absurd rfl gives

omit [DecidableEq Thread] in
theorem machine_expects (session : Copies) (tid : Thread) (stmt : Statement) (world : World) :
    (sealing env).expects session stmt (machine env tid stmt world).1 := by
  cases stmt with
  | findKeyByErn ern =>
    intro key mem
    by_cases failed : env.fate world.moment = .failed
    · rw [machine_of_failed failed] at mem
      exact absurd mem (by simp [Statement.failure, orNone])
    · rcases (machine_of_works failed).2 with
        answered | answered
      · rw [answered] at mem
        exact absurd mem (by simp [Statement.failure, orNone])
      · rw [answered] at mem
        obtain ⟨row, found, rfl⟩ := map_eq_some_iff.mp mem
        exact (findLabel?_eq_some.mp found).2
  | _ => exact trivial

/-- The value that was given a secret last by a request that was answered with success. -/
def lastAnswered (calls : Thread → Call) (start : ResourceId → Option Bytes)
    (pool : Pool Thread Statement Answer StoreError (Response Reply) World) :
    ResourceId → Option Bytes :=
  lastValue calls (fun event => Succeeds (pool.programs event.thread)) start pool.history

/-- Every stored secret decrypts, under the material of the key that it names, to the value that was
given last by a request that was answered with success, and no request that creates a secret has
replaced one. -/
structure StaysReadable (env : Env) (calls : Thread → Call)
    (start : ResourceId → Option Bytes)
    (pool : Pool Thread Statement Answer StoreError (Response Reply) World) : Prop where
  readable : ∀ secret ∈ pool.world.secrets,
    ∃ value ∈ lastAnswered calls start pool secret.id, pool.world.Opens env secret value
  created : ∀ event ∈ pool.history, (calls event.thread).creates → ¬Replaces event

theorem interleave_governed (env : Env) (world : World) (calls : Thread → Call)
    (schedule : List Thread) :
    (sealing env).Governs (machine env) (fun tid => Copies.start (calls tid))
        world (interleave env world calls schedule).history
        (interleave env world calls schedule).world ∧
      ∀ tid, ((interleave env world calls schedule).programs tid).Follows (sealing env)
        (copiesOf env calls (interleave env world calls schedule).history tid) Agrees :=
  governs_run (sealing env) (machine env)
    (fun tid => start (calls tid)) (fun _ => Agrees) world _
    (fun tid => call_follows env (calls tid))
    (fun _ _ _ _ _ _ => machine_expects _ _ _ _) schedule

/-- However requests are interleaved, and whatever statements fail: if every write that takes effect
finds what its request was told, then every stored secret stays readable. -/
theorem secrets_stay_readable (env : Env) (world : World)
    (start : ResourceId → Option Bytes) (calls : Thread → Call) (schedule : List Thread)
    (readable : ∀ secret ∈ world.secrets, ∃ value ∈ start secret.id, world.Opens env secret value)
    (current : History.Meets (IsCurrent env calls) (interleave env world calls schedule).history) :
    StaysReadable env calls start (interleave env world calls schedule) := by
  obtain ⟨governed, follows⟩ := interleave_governed env world calls schedule
  have sound := sound_of_governed readable governed current
  constructor
  · intro secret mem
    obtain ⟨value, last, opens⟩ := sound.readable secret mem
    refine ⟨value, ?_, opens⟩
    refine (congrFun (lastValue_congr fun event inHistory id gives => ?_) secret.id).symm.trans last
    obtain ⟨⟨isReported, settled⟩, givesSome⟩ := reported_of_gives gives
    obtain ⟨later, earlier, same⟩ := append_of_mem inHistory
    have left := follows event.thread
    rw [same] at governed left
    have written := written_settled governed settled
    rw [succeeds_iff left written, settled]
    · exact some_inj
    · rw [copiesOf_call]
      exact givesSome
  · intro event mem creates
    obtain ⟨later, earlier, same⟩ := append_of_mem mem
    rw [same] at governed current
    obtain ⟨allowed, made⟩ := governed.made
    have found := ((History.meets_iff_split _ _).mp current) later event earlier rfl
    rw [made] at found ⊢
    exact not_replaces creates allowed found

end Runs

/-! ### Two first secrets -/

/-- AES-GCM on two values, each under two keys. -/
def twoValues : Core.Gcm := .recorded
  [{ key := List.replicate 32 1
     iv := List.replicate 12 1
     aad := []
     plaintext := [112, 119]
     ciphertext := [194, 14]
     tag := [136, 14, 182, 33, 131, 69, 127, 21, 117, 34, 74, 167, 126, 18, 157, 240]
     tag_length := rfl },
   { key := List.replicate 32 1
     iv := List.replicate 12 2
     aad := []
     plaintext := [116, 107]
     ciphertext := [115, 189]
     tag := [124, 128, 45, 82, 249, 167, 23, 185, 149, 64, 76, 31, 32, 4, 53, 21]
     tag_length := rfl },
   { key := List.replicate 32 2
     iv := List.replicate 12 1
     aad := []
     plaintext := [112, 119]
     ciphertext := [214, 167]
     tag := [98, 135, 250, 56, 165, 136, 212, 85, 240, 229, 43, 239, 165, 100, 205, 10]
     tag_length := rfl },
   { key := List.replicate 32 2
     iv := List.replicate 12 2
     aad := []
     plaintext := [116, 107]
     ciphertext := [28, 175]
     tag := [249, 157, 26, 238, 64, 198, 136, 16, 196, 74, 117, 61, 19, 247, 211, 73]
     tag_length := rfl }]

/-- An installation where no statement fails. -/
def Env.plain : Env := ⟨"eu", twoValues, Core.Gcm.recorded_lawful _, fun _ => .carriedOut⟩

/-- Someone who draws one byte over and over. -/
def senderOf (byte : UInt8) : Sender where
  caller := some ⟨"acme", "eu", fun _ => none⟩
  nameSpace := "prod"
  draws := ⟨List.replicate 12 byte, length_replicate, fun count => List.replicate count byte, ""⟩

/-- Two secrets, neither with a key of its own. -/
def firstSecrets : Bool → Call
  | false => ⟨senderOf 1, .createSecret ⟨"password", [112, 119], "", ""⟩⟩
  | true => ⟨senderOf 2, .createSecret ⟨"token", [116, 107], "", ""⟩⟩

def emptyWorld : World := ⟨.empty, .empty, 0⟩

/-- One after the other, they share the key that the first one has made. -/
theorem one_after_another : StaysReadable Env.plain firstSecrets (fun _ => none)
      (interleave Env.plain emptyWorld firstSecrets
        [false, false, false, false, true, true, true]) :=
  secrets_stay_readable Env.plain emptyWorld (fun _ => none) firstSecrets
    [false, false, false, false, true, true, true]
    (fun secret mem => absurd mem (not_mem_empty secret)) (by decide)

/-- Both find that the namespace has no key. The second makes one and stores its secret, and then
the first makes another in its place. Both are answered with success, and the secret of the second
is lost. -/
theorem second_secret_lost : (∀ tid, Succeeds ((interleave Env.plain emptyWorld firstSecrets
      [false, false, true, true, true, true, false, false]).programs tid)) ∧
    ¬StaysReadable Env.plain firstSecrets (fun _ => none)
      (interleave Env.plain emptyWorld firstSecrets
        [false, false, true, true, true, true, false, false]) := by
  refine ⟨by decide, fun stays => ?_⟩
  have opens : ∀ secret ∈ (interleave Env.plain emptyWorld firstSecrets
      [false, false, true, true, true, true, false, false]).world.secrets.documents,
      ∃ value ∈ lastAnswered firstSecrets (fun _ => none)
        (interleave Env.plain emptyWorld firstSecrets
          [false, false, true, true, true, true, false, false]) secret.id,
        (interleave Env.plain emptyWorld firstSecrets
          [false, false, true, true, true, true, false, false]).world.Opens Env.plain
            secret value := stays.readable
  exact absurd opens (by decide)

end Euclid.Ess
