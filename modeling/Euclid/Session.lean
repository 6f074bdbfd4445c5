/-
This file follows a server through a session: a client sends one request after the other, and the
server handles each with a program, from the state in which it was left.

What the programs ask is answered by an environment that knows everything asked so far, so that it
can be anything. A rule says what may be asked, and may look at what was answered before. The rule
of a program is found along the program, for all answers, and a state it is left in comes with it.
From the rule of one turn follows that of a session, by induction on the requests.
-/

import Euclid.Program

namespace Euclid

namespace Program

open List

variable {Req : Type} {Answer : Req → Type} {Fault Result Result' : Type}

/-! ### What was asked -/

abbrev History (Req : Type) (Answer : Req → Type) := List (Σ req : Req, Answer req)

/-- What answers, knowing what was asked before. -/
abbrev Surroundings (Req : Type) (Answer : Req → Type) :=
  (req : Req) → History Req Answer → Answer req

/-- Every request is answered and recorded. -/
def recording (outside : Surroundings Req Answer) : Machine Req Answer (History Req Answer) :=
  fun req hist =>
    (outside req hist, hist ++ [⟨req, outside req hist⟩])

/-- Everything asked after a history obeys a rule. -/
def Obeys (rule : History Req Answer → Req → Prop) : History Req Answer → History Req Answer → Prop
  | _, [] => True
  | hist, entry :: rest => rule hist entry.1 ∧ Obeys rule (hist ++ [entry]) rest

/-- Whatever it is answered, a program asks by a rule and ends in a result that is accepted. -/
def Guarantees (rule : History Req Answer → Req → Prop)
    (post : History Req Answer → Result → Prop) :
    Program Req Answer Fault Result → History Req Answer → Prop
  | .done result, hist => post hist result
  | .raise _, _ => True
  | .ask req next, hist => rule hist req ∧
      ∀ answer, (next answer).Guarantees rule post (hist ++ [⟨req, answer⟩])

section Guarantees

variable {rule : History Req Answer → Req → Prop}
variable {post : History Req Answer → Result → Prop} {hist : History Req Answer}
variable {program : Program Req Answer Fault Result}

theorem Guarantees.bind {continuation : Result → Program Req Answer Fault Result'}
    {final : History Req Answer → Result' → Prop} (first : program.Guarantees rule post hist)
    (second : ∀ after result, post after result →
      (continuation result).Guarantees rule final after) :
    (program >>= continuation).Guarantees rule final hist := by
  induction program generalizing hist with
  | done result => exact second _ _ first
  | raise fault => trivial
  | ask req next ih =>
    exact ⟨first.1, fun answer => ih answer (first.2 answer)⟩

variable {kind : Req → Prop}

theorem Asks.guarantees_kept
    (asks : program.Asks kind) (kept : History Req Answer → Prop) (start : kept hist)
    (allowed : ∀ hist req, kind req → kept hist → rule hist req)
    (keeps : ∀ hist req answer, kind req → kept hist → kept (hist ++ [⟨req, answer⟩])) :
    program.Guarantees rule (fun after _ => kept after) hist := by
  induction program generalizing hist with
  | done result => exact start
  | raise fault => trivial
  | ask req next ih =>
    exact ⟨allowed _ _ asks.1 start, fun answer =>
      ih answer (asks.2 answer) (keeps _ _ answer asks.1 start)⟩

theorem Asks.guarantees
    (asks : program.Asks kind) (allowed : ∀ hist req, kind req → rule hist req) :
    program.Guarantees rule (fun _ _ => True) hist :=
  asks.guarantees_kept (fun _ => True) trivial (fun hist req asked _ => allowed hist req asked)
    fun _ _ _ _ _ => trivial

theorem Guarantees.asks (guarantees : program.Guarantees (fun _ req => kind req) post hist) :
    program.Asks kind := by
  induction program generalizing hist with
  | done result => trivial
  | raise fault => trivial
  | ask req next ih =>
    exact ⟨guarantees.1, fun answer => ih answer (guarantees.2 answer)⟩

theorem Asks.lift {Request' : Type} {Answer' : Request' → Type} {kind' : Request' → Prop}
    {inject : Req → Request'} {back : ∀ req, Answer' (inject req) → Answer req}
    (asks : program.Asks kind) (injected : ∀ req, kind req → kind' (inject req)) :
    (program.lift inject back : Program Request' Answer' Fault Result).Asks kind' := by
  induction program with
  | done result => trivial
  | raise fault => trivial
  | ask req next ih =>
    exact ⟨injected _ asks.1, fun answer => ih _ (asks.2 _)⟩

theorem Guarantees.run (guarantees : program.Guarantees rule post hist)
    (outside : Surroundings Req Answer) :
    ∃ asked, (program.run (recording outside) hist).2 = hist ++ asked ∧ Obeys rule hist asked ∧
      ∀ result, (program.run (recording outside) hist).1 = .ok result →
        post (hist ++ asked) result := by
  induction program generalizing hist with
  | done result =>
    refine ⟨[], (append_nil _).symm, trivial, fun other same => ?_⟩
    rw [append_nil, ← Except.ok.inj same]
    exact guarantees
  | raise fault => exact ⟨[], (append_nil _).symm, trivial, fun _ same => nomatch same⟩
  | ask req next ih =>
    obtain ⟨asked, same, obeys, ends⟩ := ih _ (guarantees.2 (outside req hist))
    refine ⟨⟨req, outside req hist⟩ :: asked, ?_, ⟨guarantees.1, obeys⟩, ?_⟩
    · rw [run_ask]
      exact same.trans (append_assoc _ _ _)
    · intro result ended
      rw [run_ask] at ended
      have accepted := ends result ended
      rw [append_assoc] at accepted
      exact accepted

end Guarantees

end Program

/-! ### A session -/

open Program

/-- A request that was handled: the state before, what was asked before, and what was asked. -/
structure Turn (Input State Req : Type) (Answer : Req → Type) where
  input : Input
  state : State
  history : Program.History Req Answer
  asked : Program.History Req Answer

section Session

variable {Input State Req Fault Output : Type} {Answer : Req → Type}
variable (outside : Surroundings Req Answer)
variable (handle : Input → State → Program Req Answer Fault (Output × State))

/-- The requests of a client, each of them handled in the state in which the one before has left the
server. -/
def turns : List Input → State → Program.History Req Answer → List (Turn Input State Req Answer)
  | [], _, _ => []
  | input :: rest, state, hist =>
    ⟨input, state, hist, ((handle input state).run (recording outside) hist).2.drop hist.length⟩ ::
      match ((handle input state).run (recording outside) hist).1 with
      | .ok (_, next) => turns rest next ((handle input state).run (recording outside) hist).2
      | .error _ => []

variable {outside handle}

theorem turns_obey {sound : State → Prop} {disciplined : State → Input → Prop}
    {rule : State → Input → Program.History Req Answer → Req → Prop}
    (step : ∀ input state hist, sound state → disciplined state input →
      (handle input state).Guarantees (rule state input) (fun _ result => sound result.2) hist)
    (inputs : List Input) {state : State} {hist : Program.History Req Answer} (start : sound state)
    (follows : ∀ turn ∈ turns outside handle inputs state hist, disciplined turn.state turn.input) :
    ∀ turn ∈ turns outside handle inputs state hist,
      Obeys (rule turn.state turn.input) turn.history turn.asked := by
  induction inputs generalizing state hist with
  | nil => exact nofun
  | cons input rest ih =>
    unfold turns at follows ⊢
    obtain ⟨asked, same, obeys, ends⟩ :=
      (step input state hist start (follows _ (.head _))).run outside
    intro turn mem
    obtain rfl | later := List.mem_cons.mp mem
    · rw [same, List.drop_left]
      exact obeys
    · cases ended : ((handle input state).run (recording outside) hist).1 with
      | error fault =>
        rw [ended] at later
        nomatch later
      | ok result =>
        rw [ended] at later follows
        exact ih (ends result ended)
          (fun turn mem => follows turn (.tail _ mem)) turn later

end Session

end Euclid
