/-
This file follows one topic through an interleaving of handlers. Each event makes something
of the topic: a count of it, or one setting other than it was. While every write finds what
its handler has read, the topic is the one it was at first with that done to it, event after
event.
-/

import Euclid.Ens.Settings

namespace Euclid.Ens

open Program Collection List Topic

variable {Thread : Type}

/-! ### What an event makes of a topic -/

abbrev TopicEvent (Thread : Type) := Event Thread Req Req.Answer World

/-- The statement of an event reached the store. -/
def CarriedOut (env : Env) (event : TopicEvent Thread) : Prop :=
  env.outage event.before.moment ≠ some .refused

instance (env : Env) (event : TopicEvent Thread) :
    Decidable (CarriedOut env event) :=
  inferInstanceAs (Decidable (_ ≠ _))

/-- The value a write gives a setting of the topic with an ERN. -/
def givenBy (env : Env) (calls : Thread → TopicCall) (ern : String)
    (setting : Setting) (event : TopicEvent Thread) : Option SettingValue :=
  match event.request with
  | .topic (.upsert topic) =>
    if topic.ern = ern ∧ CarriedOut env event then
      (calls event.thread).edit.bind fun edit => edit.gives setting
    else none
  | _ => none

/-- What an event makes of the counters of the topic with an ERN. The writes of whole topics count
nothing. -/
def countedBy (env : Env) (ern : String) (event : TopicEvent Thread)
    (counters : Counters) : Counters :=
  match event.request with
  | .topic stmt =>
    if CarriedOut env event then stmt.counting ern counters else counters
  | _ => counters

/-- What an event makes of the topic with an ERN. -/
def editedBy (env : Env) (calls : Thread → TopicCall) (ern : String)
    (event : TopicEvent Thread) (topic : Topic) : Topic :=
  match event.request with
  | .topic (.upsert written) =>
    if written.ern = ern ∧ CarriedOut env event then
      (calls event.thread).edit.elim topic fun edit => edit.change topic
    else topic
  | _ => topic.withCounters (countedBy env ern event topic.counters)

section EditedBy

variable (env : Env) (calls : Thread → TopicCall) (ern : String)
  (event : TopicEvent Thread) (topic : Topic)

theorem editedBy_setting {setting : Setting} :
    (editedBy env calls ern event topic).setting setting =
      (givenBy env calls ern setting event).getD (topic.setting setting) := by
  unfold editedBy givenBy
  split
  · split
    · cases (calls event.thread).edit with
      | none => rfl
      | some edit => exact edit.setting_change setting topic
    · rfl
  · exact withCounters_setting _ topic setting

theorem editedBy_counters : (editedBy env calls ern event topic).counters =
      countedBy env ern event topic.counters := by
  unfold editedBy
  split
  · rename_i written upserts
    have uncounted : countedBy env ern event topic.counters = topic.counters := by
      unfold countedBy
      rw [upserts]
      exact ite_self _
    rw [uncounted]
    split
    · cases (calls event.thread).edit with
      | none => rfl
      | some edit => exact edit.change_counters topic
    · rfl
  · rfl

end EditedBy

/-! ### Writes that find what was read -/

def lastRead [DecidableEq Thread] (tid : Thread) :
    History Thread Req Req.Answer World → Option Topic
  | [] => none
  | event :: earlier =>
    if tid = event.thread then
      (event.request.topicRead event.answer).getD (lastRead tid earlier)
    else lastRead tid earlier

/-- A write that is carried out finds the topic as its handler has read it, but for the setting the
handler is about. -/
def isCurrent [DecidableEq Thread] (env : Env) (calls : Thread → TopicCall)
    (earlier : History Thread Req Req.Answer World) (event : TopicEvent Thread) : Bool :=
  match event.request, (calls event.thread).edit, lastRead event.thread earlier with
  | .topic (.upsert _), some edit, some copy =>
    decide (¬CarriedOut env event) || event.before.topics.any fun stored =>
      decide (stored.ern = copy.ern) && decide (edit.change stored = edit.change copy)
  | _, _, _ => true

theorem sessions_writeBack [DecidableEq Thread] (calls : Thread → TopicCall)
    (hist : History Thread Req Req.Answer World) (tid : Thread) :
    writeBack.sessions (fun tid => ((calls tid).edit, none)) hist tid =
      ((calls tid).edit, lastRead tid hist) := by
  induction hist with
  | nil => rfl
  | cons event earlier ih =>
    rw [Discipline.sessions_cons, ih, lastRead]
    split <;> rfl

/-! ### One statement -/

/-- The indexes of the collection: no two topics have one key, and none have one ERN. -/
structure Indexed (topics : List Topic) : Prop where
  keys : (topics.map key).Nodup
  erns : (topics.map ern).Nodup

def topicNamed (ern : String) (topics : List Topic) : Option Topic :=
  topics.find? fun topic => topic.ern = ern

section Topics

variable {topics : List Topic} {change : Topic → Topic}

theorem Indexed.updateFirst (indexed : Indexed topics) (selects : Topic → Bool)
    (keeps : ∀ topic, (change topic).ern = topic.ern ∧ (change topic).key = topic.key) :
    Indexed (updateFirst selects change topics) where
  keys := nodup_updateFirst indexed.keys fun topic _ _ => (keeps topic).2
  erns := nodup_updateFirst indexed.erns fun topic _ _ => (keeps topic).1

theorem Indexed.updateAll (indexed : Indexed topics) (selects : Topic → Bool)
    (keeps : ∀ topic, (change topic).ern = topic.ern ∧ (change topic).key = topic.key) :
    Indexed (updateAll selects change topics) where
  keys := nodup_updateAll indexed.keys fun topic _ _ => (keeps topic).2
  erns := nodup_updateAll indexed.erns fun topic _ _ => (keeps topic).1

theorem topicNamed_updateFirst (change : Topic → Topic)
    (keeps : ∀ topic, (change topic).ern = topic.ern) (ern other : String) :
    topicNamed other (updateFirst (fun topic => topic.ern = ern) change topics) =
      (topicNamed other topics).map fun topic => if ern = other then change topic else topic := by
  refine (find?_updateFirst_keyed Topic.ern (fun topic own => (keeps topic).trans own)
    other).trans ?_
  split
  · rfl
  · exact Option.map_id'.symm

theorem topicNamed_updateAll (change : Topic → Topic)
    (keeps : ∀ topic, (change topic).ern = topic.ern) (erns : List String) (other : String) :
    topicNamed other (updateAll (fun topic => topic.ern ∈ erns) change topics) =
      (topicNamed other topics).map fun topic =>
        if other ∈ erns then change topic else topic := by
  unfold topicNamed updateAll
  induction topics with
  | nil => rfl
  | cons head rest ih =>
    rw [map_cons, List.find?_cons, List.find?_cons, ih]
    by_cases wanted : head.ern = other
    · by_cases listed : other ∈ erns <;> simp [wanted, listed, keeps]
    · by_cases listed : head.ern ∈ erns <;> simp [wanted, listed, keeps]

/-- A copy that agrees with what is stored is written over that alone. -/
theorem upsert_current (indexed : Indexed topics) {stored : Topic} (mem : stored ∈ topics)
    (edit : Edit) :
    ((TopicStatement.upsert (edit.change stored)).apply topics).2 =
      updateFirst (fun topic => topic.ern = stored.ern) edit.change topics := by
  have byErn : ∀ topic ∈ topics, topic.ern = stored.ern → topic = stored :=
    fun topic inTopics same => inj_on_of_nodup_map indexed.erns inTopics mem same
  have byKey : ∀ topic ∈ topics, topic.key = stored.key → topic = stored :=
    fun topic inTopics same => inj_on_of_nodup_map indexed.keys inTopics mem same
  have free : ¬(edit.change stored).clashes topics := by
    simp only [clashes, Edit.change_key, Edit.change_ern, any_eq_true, Bool.and_eq_true,
      decide_eq_true_eq, not_exists, not_and]
    rintro other inTopics different same
    exact different (congrArg key (byErn other inTopics same))
  rcases upsert_cases topics
    (edit.change stored) with ⟨clashes, _⟩ | ⟨_, _, applied⟩ | ⟨_, absent, _⟩
  · exact absurd clashes free
  · have uniqueKey : topics.Pairwise fun first second =>
        ¬(decide (first.key = (edit.change stored).key) ∧
          decide (second.key = (edit.change stored).key)) :=
      pairwise_of_key indexed.keys fun topic selected => of_decide_eq_true selected
    have uniqueErn : topics.Pairwise fun first second =>
        ¬(decide (first.ern = stored.ern) ∧ decide (second.ern = stored.ern)) :=
      pairwise_of_key indexed.erns fun topic selected => of_decide_eq_true selected
    rw [applied, updateFirst_eq_updateAll uniqueKey, updateFirst_eq_updateAll uniqueErn]
    refine map_congr_left fun topic inTopics => ?_
    rw [Edit.change_key]
    by_cases same : topic = stored
    · subst same
      simp
    · have otherKey : topic.key ≠ stored.key := mt (byKey topic inTopics) same
      have otherErn : topic.ern ≠ stored.ern := mt (byErn topic inTopics) same
      simp [otherKey, otherErn]
  · exact absurd (edit.change_key stored).symm (absent stored mem)

end Topics

/-! ### One event -/

section Step

variable {env : Env} {proc : Thread → Nat} {calls : Thread → TopicCall}

theorem machine_topics (proc : Nat) (stmt : TopicStatement) (world : World) :
    (machine env proc (.topic stmt) world).2.topics =
      if env.outage world.moment = some .refused then world.topics
      else (stmt.apply world.topics).2 := by
  simp only [machine]
  cases env.outage world.moment with
  | none => rfl
  | some outage => cases outage <;> rfl

/-- A statement of the traffic counts on the topics it names, and leaves what they are called. -/
theorem counting_applied {stmt : TopicStatement} (traffic : (Req.topic stmt).IsTraffic)
    {topics : List Topic} (indexed : Indexed topics) :
    Indexed (stmt.apply topics).2 ∧ ∀ ern, topicNamed ern (stmt.apply topics).2 =
      (topicNamed ern topics).map fun topic =>
        topic.withCounters (stmt.counting ern topic.counters) := by
  have unchanged : ∀ ern, topicNamed ern topics =
      (topicNamed ern topics).map fun topic => topic.withCounters topic.counters :=
    fun ern => Option.map_id'.symm
  have counts : ∀ (named : String) (after : Counters → Counters),
      (∀ ern counters, stmt.counting ern counters =
        if named = ern then after counters else counters) →
      Indexed (updateFirst (fun topic => topic.ern = named)
          (fun topic => topic.withCounters (after topic.counters)) topics) ∧
        ∀ ern, topicNamed ern (updateFirst (fun topic => topic.ern = named)
            (fun topic => topic.withCounters (after topic.counters)) topics) =
          (topicNamed ern topics).map fun topic =>
            topic.withCounters (stmt.counting ern topic.counters) := by
    intro named after counting
    refine ⟨indexed.updateFirst _ fun _ => ⟨rfl, rfl⟩, fun ern => ?_⟩
    refine (topicNamed_updateFirst (fun topic => topic.withCounters (after topic.counters))
      (fun _ => rfl) named ern).trans ?_
    refine congrArg (Option.map · _) (funext fun topic => ?_)
    rw [counting]
    split <;> rfl
  cases stmt with
  | upsert topic => exact absurd traffic id
  | setCounts ern available size => exact absurd traffic id
  | deleteByErn ern => exact absurd traffic id
  | findByErn ern => exact ⟨indexed, unchanged⟩
  | findInScope region accountId nameSpace => exact ⟨indexed, unchanged⟩
  | findAll => exact ⟨indexed, unchanged⟩
  | count named available size =>
    exact counts named (fun counters => { counters with
      available := counters.available + available, size := counters.size + size }) fun _ _ => rfl
  | recordSend named sent =>
    exact counts named (fun counters => { counters with send := counters.send + sent })
      fun _ _ => rfl
  | recordResend named resent =>
    exact counts named (fun counters => { counters with resend := counters.resend + resent })
      fun _ _ => rfl
  | zero erns =>
    refine ⟨indexed.updateAll _ fun _ => ⟨rfl, rfl⟩, fun ern => ?_⟩
    refine (topicNamed_updateAll zeroed (fun _ => rfl) erns ern).trans ?_
    refine congrArg (Option.map · _) (funext fun topic => ?_)
    change _ = topic.withCounters (if ern ∈ erns then ⟨0, 0, 0, 0⟩ else topic.counters)
    split <;> rfl

variable [DecidableEq Thread]

/-- What an event makes of a topic is what the store has of it afterwards. -/
theorem event_edits {earlier : History Thread Req Req.Answer World} {tid : Thread}
    {req : Req} {world : World}
    (allowed : writeBack.allows ((calls tid).edit, lastRead tid earlier) req)
    (current : isCurrent env calls earlier
      (.made (fun tid => machine env (proc tid)) tid req world)) (indexed : Indexed world.topics) :
    Indexed (machine env (proc tid) req world).2.topics ∧
      ∀ ern, topicNamed ern (machine env (proc tid) req world).2.topics =
        (topicNamed ern world.topics).map (editedBy env calls ern
          (.made (fun tid => machine env (proc tid)) tid req world)) := by
  by_cases onTopics : ∃ stmt, req = .topic stmt
  · obtain ⟨stmt, rfl⟩ := onTopics
    rw [machine_topics]
    by_cases refused : env.outage world.moment = some .refused
    · have nothing : ¬CarriedOut env
          (.made (fun tid => machine env (proc tid)) tid (.topic stmt)
            world) := fun carried => carried refused
      rw [if_pos refused]
      refine ⟨indexed, fun ern => Eq.symm ?_⟩
      refine Eq.trans (congrArg (Option.map · _) (funext fun topic => ?_)) Option.map_id'
      cases stmt with
      | upsert written => exact if_neg fun both => nothing both.2
      | _ => exact congrArg (withCounters · topic) (if_neg nothing)
    · have carried : CarriedOut env
          (.made (fun tid => machine env (proc tid)) tid (.topic stmt) world) := refused
      rw [if_neg refused]
      by_cases writes : ∃ written, stmt = .upsert written
      · obtain ⟨written, rfl⟩ := writes
        obtain ⟨edit, copy, known, rfl⟩ := allowed
        obtain ⟨about, read⟩ := Prod.mk.inj known
        -- The write is of the topic that is stored, with the setting changed.
        have found : ∃ stored ∈ world.topics, edit.change stored = edit.change copy := by
          simp only [isCurrent, about, read, Bool.or_eq_true, decide_eq_true_eq, any_eq_true,
            Bool.and_eq_true] at current
          obtain uncarried | ⟨stored, mem, _, same⟩ := current
          · exact absurd carried uncarried
          · exact ⟨stored, mem, same⟩
        obtain ⟨stored, mem, same⟩ := found
        rw [← same, upsert_current indexed mem]
        refine ⟨indexed.updateFirst _ fun topic => ⟨edit.change_ern topic, edit.change_key topic⟩,
          fun ern => ?_⟩
        rw [topicNamed_updateFirst _ edit.change_ern]
        refine congrArg (Option.map · _) (funext fun topic => ?_)
        simp only [editedBy, Edit.change_ern, about, Option.elim]
        by_cases own : stored.ern = ern
        · rw [if_pos own, if_pos ⟨own, carried⟩]
        · rw [if_neg own, if_neg fun both => own both.1]
      · have traffic : (Req.topic stmt).IsTraffic := by
          cases stmt with
          | upsert written => exact absurd ⟨written, rfl⟩ writes
          | _ => exact allowed
        obtain ⟨stays, counts⟩ := counting_applied traffic indexed
        refine ⟨stays, fun ern => (counts ern).trans ?_⟩
        refine congrArg (Option.map · _) (funext fun topic => Eq.symm ?_)
        cases stmt with
        | upsert written => exact absurd ⟨written, rfl⟩ writes
        | _ => exact congrArg (withCounters · topic) (if_pos carried)
  · cases req with
    | topic stmt => exact absurd ⟨stmt, rfl⟩ onTopics
    | _ => exact ⟨indexed, fun ern => Option.map_id'.symm⟩

end Step

/-! ### Every run -/

section Runs

variable [DecidableEq Thread]

/-- The handlers of some calls, interleaved. -/
def interleave (env : Env) (proc : Thread → Nat) (calls : Thread → TopicCall)
    (origin : World) (schedule : List Thread) : Pool Thread Req Req.Answer ServerError Unit World :=
  (Pool.start origin fun tid => (calls tid).handler env).run
    (fun tid => machine env (proc tid)) schedule

/-- Every setting of a topic has the value it was given last, and its counters are what the traffic
makes of them. -/
structure KeepsChanges (env : Env) (calls : Thread → TopicCall)
    (hist : History Thread Req Req.Answer World) (ern : String) (before after : Topic) :
    Prop where
  settings : ∀ setting, after.setting setting =
    (hist.findSome? (givenBy env calls ern setting)).getD (before.setting setting)
  counters : after.counters = hist.foldr (countedBy env ern) before.counters

theorem governed_edits {env : Env} {proc : Thread → Nat}
    {calls : Thread → TopicCall} {origin world : World} {hist : History Thread Req Req.Answer World}
    (governed : writeBack.Governs (fun tid => machine env (proc tid))
      (fun tid => ((calls tid).edit, none)) origin hist world) (current : History.Meets
      (fun earlier event => isCurrent env calls earlier event) hist)
    (indexed : Indexed origin.topics) :
    Indexed world.topics ∧ ∀ ern, topicNamed ern world.topics =
      (topicNamed ern origin.topics).map (hist.foldr (editedBy env calls ern) ·) := by
  induction governed with
  | start => exact ⟨indexed, fun ern => Option.map_id'.symm⟩
  | step governed tid req allowed ih =>
    rw [sessions_writeBack] at allowed
    obtain ⟨soundly, rows⟩ := ih current.2
    obtain ⟨stays, edits⟩ := event_edits allowed current.1 soundly
    refine ⟨stays, fun ern => ?_⟩
    rw [edits, rows, Option.map_map]
    rfl

/-- No change to a topic is lost in a run all of whose writes find the topic as their handlers have
read it, but for the setting each is about. -/
theorem topic_changes_kept (env : Env) (proc : Thread → Nat)
    (calls : Thread → TopicCall) (origin : World) (indexed : Indexed origin.topics)
    (schedule : List Thread)
    (current : History.Meets (fun earlier event => isCurrent env calls earlier event)
      (interleave env proc calls origin schedule).history)
    (ern : String) (before : Topic) (stored : topicNamed ern origin.topics = some before) :
    ∃ after, topicNamed ern
        (interleave env proc calls origin schedule).world.topics = some after ∧
      KeepsChanges env calls
        (interleave env proc calls origin schedule).history ern before after := by
  obtain ⟨governed, _⟩ := writeBack.governs_run (fun tid => machine env (proc tid))
    (fun tid => ((calls tid).edit, none)) (fun _ _ _ => True) origin
    (fun tid => (calls tid).handler env)
    (fun tid => handler_follows env (calls tid)) (fun _ _ _ _ _ _ => trivial) schedule
  obtain ⟨_, rows⟩ := governed_edits governed current indexed
  refine ⟨_, (rows ern).trans (congrArg (Option.map _) stored), fun setting => ?_, ?_⟩
  · exact History.field_foldr (fun topic : Topic => topic.setting setting) _ _
      (fun event topic => editedBy_setting env calls ern event topic) _ _
  · exact (foldr_hom counters fun event topic =>
      (editedBy_counters env calls ern event topic).symm).symm

end Runs

/-! ### A stop and a tag -/

/-- A topic that is running, and nothing else. -/
def runningWorld : World :=
  { World.opened .empty [] with topics := [{ blank with ern := "t" }] }

/-- One caller stops the topic while another tags it. -/
def stopAndTag : Bool → TopicCall
  | true => .stopTopic (some ⟨"u", "a", "r"⟩) "t"
  | false => .addTopicTag (some ⟨"u", "a", "r"⟩) true "t" "k" "v"

theorem runningWorld_indexed : Indexed runningWorld.topics := ⟨by decide, by decide⟩

/-- A stop and a tag, one after the other, are both kept. -/
theorem stop_then_tag_kept :
    ∃ after, topicNamed "t" (interleave steady (fun _ => 0) stopAndTag runningWorld
        [true, true, false, false]).world.topics = some after ∧
      KeepsChanges steady stopAndTag
        (interleave steady (fun _ => 0) stopAndTag runningWorld [true, true, false, false]).history
        "t" { blank with ern := "t" } after :=
  topic_changes_kept steady (fun _ => 0) stopAndTag runningWorld runningWorld_indexed
    [true, true, false, false] (by decide) "t" { blank with ern := "t" } rfl

/-- A tag that is read before a stop and written after it starts the topic again. -/
theorem tag_starts_stopped_topic :
    ¬∀ (calls : Bool → TopicCall) (origin : World), Indexed origin.topics →
      ∀ (schedule : List Bool) (ern : String) (before : Topic),
        topicNamed ern origin.topics = some before →
        ∃ after, topicNamed ern
            (interleave steady (fun _ => 0) calls origin schedule).world.topics = some after ∧
          KeepsChanges steady calls
            (interleave steady (fun _ => 0) calls origin schedule).history ern before after := by
  intro always
  obtain ⟨after, stored, kept⟩ := always stopAndTag runningWorld runningWorld_indexed
    [false, true, true, false] "t" { blank with ern := "t" } rfl
  have running : topicNamed "t" (interleave steady (fun _ => 0) stopAndTag runningWorld
      [false, true, true, false]).world.topics =
        some { blank with ern := "t", tags := [("k", "v")] } := by decide
  obtain rfl := Option.some.inj (running.symm.trans stored)
  have stopped : (interleave steady (fun _ => 0) stopAndTag runningWorld
      [false, true, true, false]).history.findSome? (givenBy steady stopAndTag "t" .delivering) =
        some (.flag false) := by decide
  have delivering := kept.settings .delivering
  rw [stopped] at delivering
  exact absurd delivering (by decide)

end Euclid.Ens
