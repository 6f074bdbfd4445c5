/-
This file translates the permits that applications ask for before they call an outside site: the
decisions, and the documents that keep the state of a site between two of them.

Points in time are nanoseconds on the clock of the system, and whole milliseconds in a document.
Rates and tokens are exact. The name of the collection's documents is the application's and the
site's.
-/

import Mathlib.Algebra.Order.Ring.Unbundled.Rat

namespace Euclid.Eap.Egress

/-! ### The state of a site -/

structure Limits where
  requestsPerSecond : ℚ
  burst : ℚ
  concurrent : Int
  deriving DecidableEq

structure Permit where
  id : String
  expiresAt : Int
  deriving DecidableEq

structure SiteState where
  tokens : ℚ
  refilledAt : Int
  blockedUntil : Int
  permits : List Permit

/-- The state of a site nobody has asked for. -/
def SiteState.fresh : SiteState := ⟨0, 0, 0, []⟩

inductive Refusal where
  | none
  | blocked
  | concurrency
  | rate

/-- `Decision`. Waits are in milliseconds. -/
structure Decision where
  granted : Bool
  refusal : Refusal
  retryAfter : Int
  permit : Option Permit

def Decision.refuse (refusal : Refusal) (retryAfter : Int) : Decision :=
  ⟨false, refusal, retryAfter, none⟩

def Decision.grant (permit : Permit) : Decision := ⟨true, .none, 0, some permit⟩

/-- Seconds as the clock counts. -/
def nanoseconds (seconds : Int) : Int := seconds * 1000000000

/-- `ceil<milliseconds>` of a span of the clock. -/
def ceilMilliseconds (span : Int) : Int := ((span : ℚ) / 1000000).ceil

def concurrencyRetry : Int := 1000

/-! ### The decisions -/

/-- What a bucket holds at most. -/
def Limits.capacity (limits : Limits) : ℚ := max 1 limits.burst

/-- The tokens that `Refresh` leaves. -/
def refilled (state : SiteState) (limits : Limits) (now : Int) : ℚ :=
  let tokens :=
    if state.refilledAt = 0 then limits.capacity
    else if now > state.refilledAt ∧ limits.requestsPerSecond > 0 then
      min limits.capacity
        (state.tokens +
          ((now - state.refilledAt : Int) : ℚ) / 1000000000 * limits.requestsPerSecond)
    else state.tokens
  min tokens limits.capacity

def refresh (state : SiteState) (limits : Limits) (now : Int) : SiteState where
  tokens := refilled state limits now
  refilledAt := max state.refilledAt now
  blockedUntil := state.blockedUntil
  permits := state.permits.filter fun permit => ¬permit.expiresAt ≤ now

/-- How long a caller waits for a slot. -/
def slotWait (permits : List Permit) (now : Int) : Int :=
  permits.foldl (fun wait permit => min wait (ceilMilliseconds (permit.expiresAt - now)))
    concurrencyRetry

def acquire (state : SiteState) (limits : Limits) (now : Int) (permitId : String) (lease : Int) :
    Decision × SiteState :=
  let state := refresh state limits now
  if now < state.blockedUntil then
    (.refuse .blocked (ceilMilliseconds (state.blockedUntil - now)), state)
  else if limits.concurrent > 0 ∧ (state.permits.length : Int) ≥ limits.concurrent then
    (.refuse .concurrency (max 1 (slotWait state.permits now)), state)
  else if limits.requestsPerSecond > 0 ∧ state.tokens < 1 then
    (.refuse .rate (max 1 ((1 - state.tokens) / limits.requestsPerSecond * 1000).ceil), state)
  else
    let permit : Permit := ⟨permitId, now + nanoseconds lease⟩
    let tokens := if limits.requestsPerSecond > 0 then state.tokens - 1 else state.tokens
    (.grant permit, { state with tokens := tokens, permits := state.permits ++ [permit] })

def release (state : SiteState) (permitId : String) : Bool × SiteState :=
  let kept := state.permits.filter fun permit => permit.id ≠ permitId
  (decide (kept.length < state.permits.length), { state with permits := kept })

/-- `kMaxBlock`, in seconds. -/
def maxBlock : Int := 3600

/-- `Block`: the time the site is now blocked until, and the state. -/
def block (state : SiteState) (now retryAfter : Int) : Int × SiteState :=
  let ends := now + nanoseconds (min (max retryAfter 1) maxBlock)
  let blocked := max state.blockedUntil ends
  (blocked, { state with blockedUntil := blocked })

/-! ### The documents -/

/-- `StoredSite`. No document yet is the version before the first. -/
structure StoredSite where
  application : String
  applicationId : String
  site : String
  version : Int
  state : SiteState
  limits : Option Limits
  modified : Int

structure SiteDocument where
  application : String
  applicationId : String
  site : String
  version : Int
  tokens : ℚ
  refilledAt : Int
  blockedUntil : Int
  permits : List Permit
  modified : Int
  limits : Option Limits
  deriving DecidableEq

def toMillis (time : Int) : Int := time.tdiv 1000000

def fromMillis (millis : Int) : Int := millis * 1000000

/-- `parseSite`, of a document that `siteDocument` wrote. -/
def parseSite (doc : SiteDocument) : StoredSite where
  application := doc.application
  applicationId := doc.applicationId
  site := doc.site
  version := doc.version
  state :=
    { tokens := doc.tokens
      refilledAt := fromMillis doc.refilledAt
      blockedUntil := fromMillis doc.blockedUntil
      permits := doc.permits.map fun permit => ⟨permit.id, fromMillis permit.expiresAt⟩ }
  limits := doc.limits
  modified := fromMillis doc.modified

def siteDocument (stored : StoredSite) (version now : Int) : SiteDocument where
  application := stored.application
  applicationId := stored.applicationId
  site := stored.site
  version := version
  tokens := stored.state.tokens
  refilledAt := toMillis stored.state.refilledAt
  blockedUntil := toMillis stored.state.blockedUntil
  permits := stored.state.permits.map fun permit => ⟨permit.id, toMillis permit.expiresAt⟩
  modified := toMillis now
  limits := stored.limits

def allSites : String := "*"

/-- Whose state of which site. -/
structure Place where
  application : String
  applicationId : String
  site : String

/-- What an update starts from where there is no document. -/
def Place.fresh (place : Place) : StoredSite :=
  ⟨place.application, place.applicationId, place.site, -1, .fresh, none, 0⟩

def Place.read (place : Place) (doc : Option SiteDocument) : StoredSite :=
  (doc.map parseSite).getD place.fresh

/-! ### The changes -/

/-- What is asked of a site. A limit is set field by field. -/
inductive Change where
  | acquire (permitId : String) (leaseSeconds : Int)
  | release (permitId : String)
  | throttled (retryAfterSeconds : Int)
  | setLimit (requestsPerSecond burst : Option ℚ) (concurrent : Option Int)
  | deleteLimit

inductive Outcome where
  | decided (decision : Decision) (limits : Limits)
  | released (released : Bool)
  | blocked (blockedUntil : Int)
  | limited (limits : Limits)
  | unlimited (existed : Bool) (now : Limits)

def maxLeaseSeconds : Int := 6 * 3600

/-- The function that a handler gives to `updateSite`: whether to write, what comes of it, and the
site afterwards. `inherited` is what the site is held to without a limit of its own. -/
def Change.apply (change : Change) (inherited : Limits) (stored : StoredSite) (now : Int) :
    Bool × Outcome × StoredSite :=
  match change with
  | .acquire permitId leaseSeconds =>
    let limits := stored.limits.getD inherited
    let decided := Egress.acquire stored.state limits now permitId
      (min (max leaseSeconds 1) maxLeaseSeconds)
    (true, .decided decided.1 limits, { stored with state := decided.2 })
  | .release permitId =>
    if stored.version < 0 then (false, .released false, stored)
    else
      let released := Egress.release stored.state permitId
      (released.1, .released released.1, { stored with state := released.2 })
  | .throttled retryAfterSeconds =>
    let blocked := Egress.block stored.state now (max 1 retryAfterSeconds)
    (true, .blocked blocked.1, { stored with state := blocked.2 })
  | .setLimit requestsPerSecond burst concurrent =>
    let before := stored.limits.getD inherited
    let limits : Limits :=
      { requestsPerSecond := requestsPerSecond.getD before.requestsPerSecond
        burst := (burst.map (max 1 ·)).getD before.burst
        concurrent := concurrent.getD before.concurrent }
    (true, .limited limits, { stored with limits := some limits })
  | .deleteLimit =>
    (stored.limits.isSome, .unlimited stored.limits.isSome inherited,
      { stored with limits := none })

/-- The version that a write gives a document. -/
def StoredSite.nextVersion (stored : StoredSite) : Int :=
  if stored.version < 0 then 0 else stored.version + 1

/-- What a change writes over a document, if anything. -/
def Change.written (change : Change) (inherited : Limits) (place : Place)
    (doc : Option SiteDocument) (now : Int) : Option SiteDocument :=
  let read := place.read doc
  let applied := change.apply inherited read now
  if applied.1 then some (siteDocument applied.2.2 read.nextVersion now) else none

end Euclid.Eap.Egress
