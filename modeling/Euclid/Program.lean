/-
This file builds programs over a shared store: trees of requests, each continued by
whatever the store answers.

A handler of a server is a sequence of store statements with local computation between
them. What another party can observe, and where it can get in between, is exactly the
statements. A `Program` keeps those and nothing else: it is finished, it has raised a
fault, or it asks one request and continues with the answer. A request that can fail has
failure among its answers, so that a failing statement is one more branch and the
program's own exception handling is part of the tree.

The same program has two readings. `run` executes it alone, against a machine that says
what one request does to the world. The interleaved reading is built on this file in
`Euclid/Interleaving.lean`.
-/

import Mathlib.Data.List.Forall2

namespace Euclid

/-- A program over a store. `ask` issues one request; the answer selects the rest of the
program. -/
inductive Program (Req : Type) (Answer : Req → Type) (Fault Result : Type) where
  | done (result : Result)
  | raise (fault : Fault)
  | ask (req : Req) (next : Answer req → Program Req Answer Fault Result)

open Program

/-- What one request does to the world: the answer, and the world afterwards. -/
abbrev Machine (Req : Type) (Answer : Req → Type) (World : Type) :=
  (req : Req) → World → Answer req × World

theorem bind_ok {Fault First Second : Type} {first : Except Fault First}
    {second : First → Except Fault Second} {result : Second}
    (carriedOut : first >>= second = .ok result) :
    ∃ returned, first = .ok returned ∧ second returned = .ok result := by
  cases first with
  | error fault => cases carriedOut
  | ok returned => exact ⟨returned, rfl, carriedOut⟩

namespace Program

variable {Req : Type} {Answer : Req → Type} {Fault Fault' Result Result' World : Type}

/-! ### Composition -/

/-- Continue a program with the result it finishes with. A fault skips the continuation. -/
def bind (program : Program Req Answer Fault Result)
    (continuation : Result → Program Req Answer Fault Result') : Program Req Answer Fault Result' :=
  match program with
  | .done result => continuation result
  | .raise fault => .raise fault
  | .ask req next => .ask req fun answer => (next answer).bind continuation

/-- Continue a program with the fault it raises: the `catch` of a `try`. -/
def catching (program : Program Req Answer Fault Result)
    (handler : Fault → Program Req Answer Fault' Result) : Program Req Answer Fault' Result :=
  match program with
  | .done result => .done result
  | .raise fault => handler fault
  | .ask req next => .ask req fun answer => (next answer).catching handler

instance instMonad : Monad (Program Req Answer Fault) where
  pure := .done
  bind := bind

@[simp] theorem pure_eq (result : Result) :
    (pure result : Program Req Answer Fault Result) = .done result := rfl

@[simp] theorem done_bind (result : Result)
    (continuation : Result → Program Req Answer Fault Result') :
    (done result >>= continuation) = continuation result := rfl

theorem bind_done (result : Result) (continuation : Result → Program Req Answer Fault Result') :
    (done result).bind continuation = continuation result := rfl

def issue (req : Req) : Program Req Answer Fault (Answer req) :=
  .ask req .done

/-- Continue with what went well, raise what did not. -/
def ofExcept : Except Fault Result → Program Req Answer Fault Result
  | .ok result => .done result
  | .error fault => .raise fault

@[simp] theorem ofExcept_ok (result : Result) :
    (ofExcept (.ok result) : Program Req Answer Fault Result) = .done result := rfl

/-- The program has ended, with a result that passes a check. -/
def returns (check : Result → Bool) : Program Req Answer Fault Result → Bool
  | .done result => check result
  | .raise _ => false
  | .ask _ _ => false

variable {program : Program Req Answer Fault Result}

theorem returns_iff {check : Result → Bool} :
    program.returns check ↔ ∃ result, program = .done result ∧ check result := by
  constructor
  · intro ended
    cases program with
    | done result => exact ⟨result, rfl, ended⟩
    | raise fault => cases ended
    | ask req next => cases ended
  · rintro ⟨result, rfl, passes⟩
    exact passes

/-- Do something where a condition holds. -/
def onlyIf (condition : Prop) [Decidable condition]
    (program : Program Req Answer Fault Unit) : Program Req Answer Fault Unit :=
  if condition then program else .done ()

/-- Do something for every entry of a list, in order. -/
def forEach {Entry : Type} (entries : List Entry) (body : Entry → Program Req Answer Fault Unit) :
    Program Req Answer Fault Unit :=
  match entries with
  | [] => .done ()
  | entry :: rest => do
    body entry
    forEach rest body

/-- Do something for every entry of a list, in order, for the list of the results. -/
def mapEach {Entry : Type} (entries : List Entry) (body : Entry → Program Req Answer Fault Result) :
    Program Req Answer Fault (List Result) :=
  match entries with
  | [] => .done []
  | entry :: rest => do
    let result ← body entry
    let results ← mapEach rest body
    return result :: results

/-! ### What a program asks -/

/-- Every request the program can ever make is of a kind, whatever it is answered. -/
def Asks (kind : Req → Prop) (program : Program Req Answer Fault Result) : Prop :=
  match program with
  | .done _ => True
  | .raise _ => True
  | .ask req next => kind req ∧ ∀ answer, (next answer).Asks kind

variable {kind : Req → Prop}

theorem asks_issue {req : Req} (asked : kind req) :
    (issue req : Program Req Answer Fault (Answer req)).Asks kind :=
  ⟨asked, fun _ => trivial⟩

theorem asks_ofExcept (outcome : Except Fault Result) :
    (ofExcept outcome : Program Req Answer Fault Result).Asks kind := by
  cases outcome <;> trivial

variable {continuation : Result → Program Req Answer Fault Result'}

theorem Asks.bind (first : program.Asks kind) (second : ∀ result, (continuation result).Asks kind) :
    (program >>= continuation).Asks kind := by
  induction program with
  | done result => exact second result
  | raise fault => trivial
  | ask req next ih =>
    exact ⟨first.1, fun answer => ih answer (first.2 answer)⟩

variable {handler : Fault → Program Req Answer Fault' Result}

theorem Asks.catching (first : program.Asks kind)
    (second : ∀ fault, (handler fault).Asks kind) : (program.catching handler).Asks kind := by
  induction program with
  | done result => trivial
  | raise fault => exact second fault
  | ask req next ih =>
    exact ⟨first.1, fun answer => ih answer (first.2 answer)⟩

theorem Asks.forEach {Entry : Type} {entries : List Entry}
    {body : Entry → Program Req Answer Fault Unit}
    (turn : ∀ entry ∈ entries, (body entry).Asks kind) : (forEach entries body).Asks kind := by
  induction entries with
  | nil => trivial
  | cons entry rest ih =>
    exact (turn entry (.head _)).bind fun _ =>
      ih fun other mem => turn other (.tail _ mem)

theorem Asks.onlyIf {condition : Prop} [Decidable condition]
    {program : Program Req Answer Fault Unit} (asks : condition → program.Asks kind) :
    (onlyIf condition program).Asks kind := by
  unfold Program.onlyIf
  split
  · exact asks ‹_›
  · trivial

theorem Asks.mono {weaker : Req → Prop}
    (asks : program.Asks kind) (implied : ∀ req, kind req → weaker req) : program.Asks weaker := by
  induction program with
  | done result => trivial
  | raise fault => trivial
  | ask req next ih =>
    exact ⟨implied req asks.1, fun answer => ih answer (asks.2 answer)⟩

/-! ### A program over a larger store -/

section Lift

variable {Request' : Type} {Answer' : Request' → Type} {World' : Type}

/-- Make every request of a program as a request of a larger store. -/
def lift (inject : Req → Request') (back : ∀ req, Answer' (inject req) → Answer req) :
    Program Req Answer Fault Result → Program Request' Answer' Fault Result
  | .done result => .done result
  | .raise fault => .raise fault
  | .ask req next => .ask (inject req) fun answer => (next (back req answer)).lift inject back

theorem asks_lift {kind : Request' → Prop} {inject : Req → Request'}
    {back : ∀ req, Answer' (inject req) → Answer req}
    (injected : ∀ req, kind (inject req)) (program : Program Req Answer Fault Result) :
    (program.lift inject back : Program Request' Answer' Fault Result).Asks kind := by
  induction program with
  | done result => trivial
  | raise fault => trivial
  | ask req next ih =>
    exact ⟨injected req, fun answer => ih _⟩

/-- Make every request of a program by a program over another store. -/
def interpret (meaning : (req : Req) → Program Request' Answer' Fault' (Answer req))
    (raised : Fault → Fault') :
    Program Req Answer Fault Result → Program Request' Answer' Fault' Result
  | .done result => .done result
  | .raise fault => .raise (raised fault)
  | .ask req next => (meaning req).bind fun answer => (next answer).interpret meaning raised

end Lift

theorem bind_of_done (program : Program Req Answer Fault Result) : program.bind done = program := by
  induction program with
  | done result => rfl
  | raise fault => rfl
  | ask req next ih => exact congrArg (ask req) (funext ih)

theorem bind_bind {Result'' : Type} (program : Program Req Answer Fault Result)
    (first : Result → Program Req Answer Fault Result')
    (second : Result' → Program Req Answer Fault Result'') :
    (program.bind first).bind second = program.bind fun result => (first result).bind second := by
  induction program with
  | done result => rfl
  | raise fault => rfl
  | ask req next ih => exact congrArg (ask req) (funext ih)

/-! ### Running a program alone -/

/-- Execute a program against a machine, with nothing in between its requests. -/
def run (machine : Machine Req Answer World)
    (program : Program Req Answer Fault Result) (world : World) : Except Fault Result × World :=
  match program with
  | .done result => (.ok result, world)
  | .raise fault => (.error fault, world)
  | .ask req next =>
    (next (machine req world).1).run machine (machine req world).2

@[simp] theorem run_done (machine : Machine Req Answer World) (result : Result) (world : World) :
    (done result : Program Req Answer Fault Result).run machine world = (.ok result, world) := rfl

theorem run_ask (machine : Machine Req Answer World) (req : Req)
    (next : Answer req → Program Req Answer Fault Result) (world : World) :
    (ask req next).run machine world =
      (next (machine req world).1).run machine (machine req world).2 := rfl

/-! ### What a program run alone meets -/

/-- Run alone from `world`, the program makes every request in a world that meets a condition. -/
def Meets (machine : Machine Req Answer World) (condition : Req → World → Prop)
    (program : Program Req Answer Fault Result) (world : World) : Prop :=
  match program with
  | .done _ => True
  | .raise _ => True
  | .ask req next => condition req world ∧
      (next (machine req world).1).Meets machine condition (machine req world).2

/-! ### What a program run alone ensures -/

/-- Run alone from `world`, the program ends in a result or fault and a world that `post`
accepts, if every request is made in a world as `assumed`. -/
def Ensures (machine : Machine Req Answer World) (assumed : Req → World → Prop)
    (program : Program Req Answer Fault Result) (world : World)
    (post : Except Fault Result → World → Prop) : Prop :=
  match program with
  | .done result => post (.ok result) world
  | .raise fault => post (.error fault) world
  | .ask req next => assumed req world →
      (next (machine req world).1).Ensures machine assumed (machine req world).2 post

section Ensures

variable {machine : Machine Req Answer World} {assumed : Req → World → Prop} {world : World}

theorem Asks.ensures (asks : program.Asks kind) (holds : World → Prop) (start : holds world)
    (kept : ∀ req world, kind req → holds world → holds (machine req world).2) :
    program.Ensures machine assumed world fun _ after => holds after := by
  induction program generalizing world with
  | done result => exact start
  | raise fault => exact start
  | ask req next ih =>
    exact fun _ => ih _ (asks.2 _) (kept req world asks.1 start)

theorem ensures_bind {post : Except Fault Result' → World → Prop} :
    (program >>= continuation).Ensures machine assumed world post ↔
      program.Ensures machine assumed world fun outcome after =>
        match outcome with
        | .ok result => (continuation result).Ensures machine assumed after post
        | .error fault => post (.error fault) after := by
  induction program generalizing world with
  | done result => exact Iff.rfl
  | raise fault => exact Iff.rfl
  | ask req next ih => exact imp_congr Iff.rfl (ih _)

theorem ensures_catching {post : Except Fault' Result → World → Prop} :
    (program.catching handler).Ensures machine assumed world post ↔
      program.Ensures machine assumed world fun outcome after =>
        match outcome with
        | .ok result => post (.ok result) after
        | .error fault => (handler fault).Ensures machine assumed after post := by
  induction program generalizing world with
  | done result => exact Iff.rfl
  | raise fault => exact Iff.rfl
  | ask req next ih => exact imp_congr Iff.rfl (ih _)

variable {post : Except Fault Result → World → Prop}

theorem Ensures.mono {weaker : Except Fault Result → World → Prop}
    (ensures : program.Ensures machine assumed world post)
    (implied : ∀ outcome after, post outcome after → weaker outcome after) :
    program.Ensures machine assumed world weaker := by
  induction program generalizing world with
  | done result => exact implied _ _ ensures
  | raise fault => exact implied _ _ ensures
  | ask req next ih =>
    exact fun holds => ih _ (ensures holds)

theorem ensures_of_forall (always : ∀ outcome after, post outcome after) :
    program.Ensures machine assumed world post := by
  induction program generalizing world with
  | done result => exact always _ _
  | raise fault => exact always _ _
  | ask req next ih => exact fun _ => ih _

theorem ensures_issue {req : Req} {post : Except Fault (Answer req) → World → Prop} :
    (issue req).Ensures machine assumed world post ↔
      (assumed req world → post (.ok (machine req world).1) (machine req world).2) :=
  Iff.rfl

theorem ensures_ofExcept {outcome : Except Fault Result} :
    (ofExcept outcome : Program Req Answer Fault Result).Ensures machine assumed world post ↔
      post outcome world := by
  cases outcome <;> exact Iff.rfl

theorem Ensures.run_of_true (ensures : program.Ensures machine (fun _ _ => True) world post) :
    post (program.run machine world).1 (program.run machine world).2 := by
  induction program generalizing world with
  | done result => exact ensures
  | raise fault => exact ensures
  | ask req next ih => exact ih _ (ensures trivial)

theorem ensures_forEach {Entry : Type} {entries : List Entry}
    {body : Entry → Program Req Answer Fault Unit} (holds : List Entry → World → Prop)
    (start : holds entries world) (turn : ∀ entry rest before, holds (entry :: rest) before →
      (body entry).Ensures machine assumed before fun outcome after =>
        outcome = .ok () ∧ holds rest after) :
    (forEach entries body).Ensures machine assumed world fun outcome after =>
      outcome = .ok () ∧ holds [] after := by
  induction entries generalizing world with
  | nil => exact ⟨rfl, start⟩
  | cons entry rest ih =>
    unfold forEach
    rw [ensures_bind]
    refine (turn entry rest world start).mono fun outcome after kept => ?_
    obtain ⟨rfl, remains⟩ := kept
    exact ih remains

theorem ensures_mapEach {Entry : Type} {entries : List Entry}
    {body : Entry → Program Req Answer Fault Result} (holds : World → Prop)
    (good : Entry → Result → Prop) (start : holds world) (turn : ∀ entry before, holds before →
      (body entry).Ensures machine assumed before fun outcome after =>
        ∃ result, outcome = .ok result ∧ good entry result ∧ holds after) :
    (mapEach entries body).Ensures machine assumed world fun outcome after =>
      ∃ results, outcome = .ok results ∧ List.Forall₂ good entries results ∧ holds after := by
  induction entries generalizing world with
  | nil => exact ⟨[], rfl, .nil, start⟩
  | cons entry rest ih =>
    unfold mapEach
    rw [ensures_bind]
    refine (turn entry world start).mono fun outcome after kept => ?_
    obtain ⟨result, rfl, isGood, remains⟩ := kept
    dsimp only
    rw [ensures_bind]
    refine (ih remains).mono fun outcome after kept => ?_
    obtain ⟨results, rfl, areGood, remains⟩ := kept
    exact ⟨result :: results, rfl, .cons isGood areGood, remains⟩

end Ensures

/-! ### What a program run alone comes to -/

/-- Run alone from `world`, the program ends in a result or fault and a world that `post`
accepts together with whether it met a condition at every request. -/
def Traces (machine : Machine Req Answer World) (condition : Req → World → Prop)
    (program : Program Req Answer Fault Result) (world : World)
    (post : Prop → Except Fault Result → World → Prop) : Prop :=
  post (program.Meets machine condition world) (program.run machine world).1
    (program.run machine world).2

section Traces

variable {machine : Machine Req Answer World} {condition : Req → World → Prop}
variable {world : World} {post : Prop → Except Fault Result → World → Prop}

section

variable (traces : program.Traces machine condition world post)

include traces

theorem Traces.mono {weaker : Prop → Except Fault Result → World → Prop}
    (implied : ∀ met outcome after, post met outcome after → weaker met outcome after) :
    program.Traces machine condition world weaker :=
  implied _ _ _ traces

variable {always : Except Fault Result → World → Prop}

theorem Traces.and_ensures (ensures : program.Ensures machine (fun _ _ => True) world always) :
    program.Traces machine condition world fun met outcome after =>
      post met outcome after ∧ always outcome after :=
  ⟨traces, ensures.run_of_true⟩

theorem Traces.and_traces {other : Req → World → Prop}
    (also : program.Traces machine other world fun _ outcome after => always outcome after) :
    program.Traces machine condition world fun met outcome after =>
      post met outcome after ∧ always outcome after :=
  ⟨traces, also⟩

end

theorem traces_done {result : Result} :
    (done result : Program Req Answer Fault Result).Traces machine condition world post ↔
      post True (.ok result) world := Iff.rfl

theorem traces_issue {req : Req} {post : Prop → Except Fault (Answer req) → World → Prop} :
    (issue req).Traces machine condition world post ↔
      post (condition req world) (.ok (machine req world).1) (machine req world).2 := by
  have met : ((issue req : Program Req Answer Fault (Answer req)).Meets machine
      condition world) = condition req world := propext (and_iff_left trivial)
  rw [Traces, met]
  rfl

theorem traces_ofExcept {outcome : Except Fault Result} :
    (ofExcept outcome : Program Req Answer Fault Result).Traces machine condition world post ↔
      post True outcome world := by
  cases outcome <;> exact Iff.rfl

variable {post : Prop → Except Fault Result' → World → Prop}

theorem traces_bind :
    (program >>= continuation).Traces machine condition world post ↔
      program.Traces machine condition world fun met outcome after =>
        match outcome with
        | .ok result => (continuation result).Traces machine condition after fun also =>
          post (met ∧ also)
        | .error fault => post met (.error fault) after := by
  induction program generalizing world post with
  | done result =>
    show post _ _ _ ↔ post _ _ _
    rw [Meets, true_and]
    rfl
  | raise fault => exact Iff.rfl
  | ask req next ih =>
    have later : (next (machine req world).1 >>= continuation).Traces machine condition
        (machine req world).2 (fun met => post (condition req world ∧ met)) ↔ _ :=
      ih _
    refine later.trans (iff_of_eq ?_)
    simp only [Traces, Meets, run]
    cases ((next (machine req world).1).run machine (machine req world).2).1 with
    | ok result => exact congrArg (post · _ _) (propext and_assoc.symm)
    | error fault => rfl

theorem traces_map {make : Result → Result'} :
    (program >>= fun result => pure (make result)).Traces machine condition world post ↔
      program.Traces machine condition world fun met outcome after =>
        post met (outcome.map make) after := by
  rw [traces_bind]
  refine iff_of_eq (congrArg _ ?_)
  funext met outcome after
  cases outcome with
  | ok result => exact congrArg (post · _ _) (and_true _)
  | error fault => rfl

theorem traces_catching {post : Prop → Except Fault' Result → World → Prop} :
    (program.catching handler).Traces machine condition world post ↔
      program.Traces machine condition world fun met outcome after =>
        match outcome with
        | .ok result => post met (.ok result) after
        | .error fault => (handler fault).Traces machine condition after fun also =>
          post (met ∧ also) := by
  induction program generalizing world post with
  | done result => exact Iff.rfl
  | raise fault =>
    show post _ _ _ ↔ post _ _ _
    rw [Meets, true_and]
    rfl
  | ask req next ih =>
    have later : ((next (machine req world).1).catching handler).Traces machine condition
        (machine req world).2 (fun met => post (condition req world ∧ met)) ↔ _ :=
      ih _
    refine later.trans (iff_of_eq ?_)
    simp only [Traces, Meets, run]
    cases ((next (machine req world).1).run machine (machine req world).2).1 with
    | ok result => rfl
    | error fault => exact congrArg (post · _ _) (propext and_assoc.symm)

theorem Asks.traces (asks : program.Asks kind) (holds : World → Prop) (start : holds world)
    (step : ∀ req world, kind req → holds world →
      condition req world ∧ holds (machine req world).2) :
    program.Traces machine condition world fun met _ after => met ∧ holds after := by
  induction program generalizing world with
  | done result => exact ⟨trivial, start⟩
  | raise fault => exact ⟨trivial, start⟩
  | ask req next ih =>
    obtain ⟨met, kept⟩ := step req world asks.1 start
    obtain ⟨also, after⟩ := ih _ (asks.2 _) kept
    exact ⟨⟨met, also⟩, after⟩

end Traces

end Program

end Euclid
