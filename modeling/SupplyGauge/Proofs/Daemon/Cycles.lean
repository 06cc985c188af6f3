import SupplyGauge.Daemon.Run
import SupplyGauge.Proofs.Config.Fields
import SupplyGauge.Proofs.Mqtt.Topics

/-! # The messages of the daemon's cycles

A daemon keeps its collector, its topics and its announcements as long as it runs. Each
of its cycles puts the messages of the cycle at the end of the client's queue, as many
as there is room for.
-/

namespace SupplyGauge

open Mqtt Mqtt.Client

namespace Mqtt.Client

variable (c : Client)

theorem availability_of_moves {c c' : Client} {offered offered' inHand inHand' : List Message}
    (h : Ledger.Moves True (c.ledger offered inHand) (c'.ledger offered' inHand')) :
    c'.availability = c.availability := h.voice

theorem pass_availability (n : Nat) : (c.pass n).availability = c.availability :=
  availability_of_moves (c.pass_moves [] [] n)

theorem deliver_availability (n : Nat) (m : Message) :
    (c.deliver n m).availability = c.availability :=
  availability_of_moves (c.deliver_moves [] n m)

theorem lookForMessage_availability (n : Nat) :
    (c.lookForMessage n).availability = c.availability :=
  availability_of_moves (c.lookForMessage_moves [] n (.inl trivial))

theorem finishStop_availability : c.finishStop.2.availability = c.availability :=
  availability_of_moves (c.finishStop_moves [] [] (.inl trivial))

theorem callListener_availability : c.callListener.availability = c.availability :=
  congrArg Ledger.voice (c.callListener_ledger [] [])

theorem finishLoop_availability (n : Nat) : (c.finishLoop n).availability = c.availability :=
  congrArg Ledger.voice (c.finishLoop_ledger [] [] n)

theorem withdraw_availability (n : Nat) (expired : Bool) :
    (c.withdraw n expired).availability = c.availability := by
  unfold withdraw
  dsimp only
  split <;> rfl

theorem deliveryTurn_availability (n : Nat) : (c.deliveryTurn n).availability = c.availability := by
  unfold deliveryTurn
  dsimp only
  split
  · split
    · exact finishLoop_availability _ n
    · exact pass_availability _ n
  · split
    · exact deliver_availability _ n _
    · exact withdraw_availability _ n _
  · split
    · exact finishLoop_availability _ n
    · exact pass_availability _ n
  · split
    · exact finishLoop_availability _ n
    · exact pass_availability _ n
  · rfl

theorem fetchTurn_availability (n : Nat) : (c.fetchTurn n).availability = c.availability := by
  unfold fetchTurn
  split
  · exact c.lookForMessage_availability n
  · exact c.lookForMessage_availability n
  · split
    · rfl
    · exact c.callListener_availability
  all_goals rfl

theorem releaseLoop_availability (n wait : Nat) :
    (c.releaseLoop n wait).availability = c.availability := by
  unfold releaseLoop
  dsimp only
  split
  all_goals
    try split
    all_goals rfl

theorem cancelLoop_availability (n : Nat) : (c.cancelLoop n).availability = c.availability := by
  unfold cancelLoop
  dsimp only
  split
  · rfl
  · split <;> rfl

theorem beginStop_availability : c.beginStop.2.availability = c.availability := by
  unfold beginStop
  dsimp only
  split
  · rfl
  · split
    · exact cancelLoop_availability _ _
    · exact cancelLoop_availability _ _

/-- No turn changes what a client announces, and where. -/
theorem takeTurn_availability (turn : Turn) : (c.takeTurn turn).availability = c.availability := by
  unfold takeTurn
  split
  · exact c.deliveryTurn_availability _
  · exact c.fetchTurn_availability _
  · exact c.releaseLoop_availability _ _
  all_goals rfl

theorem publish_availability (topic : String) (payload : Payload) (retain : Option Bool) :
    (c.publish topic payload retain).2.availability = c.availability := by
  unfold publish enqueue
  by_cases hroom : c.queue.length < queueLimit
  · simp only [if_pos hroom]
    exact callListener_availability _
  · simp only [if_neg hroom]
    rfl

theorem offer_availability (offers : List (String × Payload)) :
    (place.offer offers c).availability = c.availability := by
  induction offers generalizing c with
  | nil => rfl
  | cons offer offers ih => exact (ih _).trans (c.publish_availability _ _ _)

end Mqtt.Client

namespace Daemon.State

variable (d : State)

/-- What a daemon does not change while it runs: its collector, its topics, and what its client
announces. -/
def fixtures : Supply.Collector × String × (String → Publication) :=
  (d.collector, d.topicPrefix, d.client.availability)

theorem fixtures_of_client {d d' : State} (hcollector : d'.collector = d.collector)
    (hnamed : d'.topicPrefix = d.topicPrefix)
    (hclient : d'.client.availability = d.client.availability) : d'.fixtures = d.fixtures := by
  unfold fixtures
  rw [hcollector, hnamed, hclient]

theorem finish_fixtures : d.finish.fixtures = d.fixtures := by
  have hclient := d.client.finishStop_availability
  unfold finish
  split
  next client hended =>
    rw [hended] at hclient
    dsimp only
    split <;> exact fixtures_of_client rfl rfl hclient
  next e client hended =>
    rw [hended] at hclient
    exact fixtures_of_client rfl rfl hclient

theorem stopClient_fixtures : d.stopClient.fixtures = d.fixtures := by
  have hclient := d.client.beginStop_availability
  unfold stopClient
  split
  next client hbegun =>
    rw [hbegun] at hclient
    exact fixtures_of_client rfl rfl hclient
  next client hbegun =>
    rw [hbegun] at hclient
    exact (finish_fixtures _).trans (fixtures_of_client rfl rfl hclient)

theorem onScene_fixtures (f : Scene → Scene) : (d.onScene f).fixtures = d.fixtures := rfl

theorem onScene_queue (f : Scene → Scene) : (d.onScene f).client.queue = d.client.queue := rfl

theorem withClient_fixtures {c : Client} (h : c.availability = d.client.availability) :
    State.fixtures { d with client := c } = d.fixtures :=
  fixtures_of_client rfl rfl h

/-- What a cycle finds in the files. -/
def found : Supply.Result := (d.collector.safeCollect d.writeJournal.paper.files).2

/-- A cycle offers its messages to the client, which has not done anything in the meantime. -/
theorem cycle_offers : ∃ d' : State, d'.fixtures = d.fixtures ∧
    d'.client.queue = d.client.queue ∧ d'.last = some d.found ∧
    d.cycle = State.onScene
      { d' with client := (offerCycle place d'.topicPrefix d.found d'.client).2.2 }
      (·.reportAll (offerCycle place d'.topicPrefix d.found d'.client).2.1) := by
  -- the journal is written before the files are read, and the report comes before the messages
  have hfixtures : d.writeJournal.fixtures = d.fixtures := rfl
  have hqueue : d.writeJournal.client.queue = d.client.queue := rfl
  have hfound :
      d.found = (d.writeJournal.collector.safeCollect d.writeJournal.paper.files).2 := rfl
  unfold cycle
  dsimp only
  generalize d.writeJournal = written at *
  generalize d.found = r at *
  rcases hcollected : written.collector.safeCollect written.paper.files with ⟨log, r'⟩
  obtain rfl : r = r' := by rw [hfound, hcollected]
  cases r.error with
  | none =>
      exact ⟨State.onScene { written with last := some r } (·.reportAll log), hfixtures, hqueue,
        rfl, rfl⟩
  | some e =>
      exact ⟨(State.onScene { written with last := some r } (·.reportAll log)).report .warning
        s!"Collector {written.collector.settings.name} failed: {e}", hfixtures, hqueue, rfl, rfl⟩

theorem cycle_fixtures : d.cycle.fixtures = d.fixtures := by
  obtain ⟨d', hfixtures, -, -, hcycle⟩ := d.cycle_offers
  rw [hcycle, onScene_fixtures, offerCycle_eq, withClient_fixtures _ (offer_availability _ _),
    hfixtures]

/-- A cycle puts its messages at the end of the queue, in their order, as many as there is room
for. -/
theorem cycle_queue : ∃ added : List Message, d.cycle.client.queue = d.client.queue ++ added ∧
    added.map Message.content =
      ((cycleOffers d.topicPrefix d.found).take (queueLimit - d.client.queue.length)).map
        fun offer => (offer.1, offer.2.render) := by
  obtain ⟨d', hfixtures, hqueue, -, hcycle⟩ := d.cycle_offers
  have hnamed : d'.topicPrefix = d.topicPrefix := congrArg (·.2.1) hfixtures
  have hoffered : d.cycle.client.queue =
      (place.offer (cycleOffers d.topicPrefix d.found) d'.client).queue := by
    rw [hcycle, onScene_queue, offerCycle_eq, hnamed]
  rw [hoffered, ← hqueue]
  exact d'.client.offer_queue _

theorem rest_fixtures : d.rest.fixtures = d.fixtures := rfl

theorem look_fixtures (deadline : Instant) : (d.look deadline).fixtures = d.fixtures := by
  unfold look
  split
  · rfl
  · split
    · exact stopClient_fixtures _
    · rfl

theorem cancelCollector_fixtures : d.cancelCollector.fixtures = d.fixtures := by
  unfold cancelCollector
  split <;> rfl

theorem callerTurn_fixtures : d.callerTurn.fixtures = d.fixtures := by
  unfold callerTurn
  split
  · exact look_fixtures _ _
  · exact look_fixtures _ _
  · exact cancelCollector_fixtures _
  · exact stopClient_fixtures _
  · exact finish_fixtures _
  · rfl

theorem collectorTurn_fixtures : d.collectorTurn.fixtures = d.fixtures := by
  have hcycle (d' : State) : d'.cycle.rest.fixtures = d'.fixtures :=
    d'.cycle.rest_fixtures.trans d'.cycle_fixtures
  unfold collectorTurn
  dsimp only
  split
  · split
    · rfl
    · exact hcycle _
  · split
    · rfl
    · exact hcycle _
  all_goals rfl

theorem releaseCollector_fixtures : d.releaseCollector.fixtures = d.fixtures := by
  unfold releaseCollector
  split <;> rfl

theorem abandon_fixtures (e : Ending) : (d.abandon e).fixtures = d.fixtures := by
  unfold abandon
  split
  · split
    · exact fixtures_of_client rfl rfl (cancelLoop_availability _ _)
    · rfl
  · rfl

theorem signal_fixtures (s : Signal) : (d.signal s).fixtures = d.fixtures := by
  unfold signal
  split
  · dsimp only
    split <;> rfl
  · split
    · exact abandon_fixtures _ _
    · rfl

theorem meet_fixtures (step : Step) : (d.meet step).fixtures = d.fixtures := by
  cases step with
  | files changes =>
      have hchanges (d : State) :
          (changes.foldl (fun d change => d.changeFiles change.1 change.2) d).fixtures =
            d.fixtures := by
        induction changes generalizing d with
        | nil => rfl
        | cons change changes ih => exact ih (d.changeFiles change.1 change.2)
      exact hchanges d.writeJournal
  | signal s => exact d.signal_fixtures s

theorem takeTurn_fixtures (turn : Turn) : (d.takeTurn turn).fixtures = d.fixtures := by
  unfold State.takeTurn
  split
  · exact d.callerTurn_fixtures
  · exact d.collectorTurn_fixtures
  · exact d.releaseCollector_fixtures
  · split
    · exact d.meet_fixtures _
    · rfl
  · exact abandon_fixtures _ _
  · exact fixtures_of_client rfl rfl (d.client.takeTurn_availability _)

theorem takeTurns_fixtures (turns : Nat) : (d.takeTurns turns).fixtures = d.fixtures := by
  induction turns generalizing d with
  | zero => rfl
  | succ turns ih =>
      unfold takeTurns
      split
      · rfl
      · split
        · rfl
        next turn scene _ => exact (ih _).trans (takeTurn_fixtures (d.onScene fun _ => scene) turn)

theorem prepare_fixtures (steps : List (Instant × Step)) (limit : Instant) :
    (d.prepare steps limit).fixtures = d.fixtures := by
  have htimers (steps : List ((Instant × Step) × Nat)) (d : State) : (steps.foldl
      (fun d step => d.onScene fun s => (s.giveAfter step.1.1 (.outside step.2)).2) d).fixtures =
        d.fixtures := by
    induction steps generalizing d with
    | nil => rfl
    | cons step steps ih => exact ih _
  exact htimers steps.zipIdx d

/-- The topics and announcements of a daemon are those that its settings name. -/
theorem topics_of_make {settings : Config.Settings} {digits : String} {journal : Log.Journal}
    {stamp : Log.Stamp} {paper : Log.Paper} {interruptible : Bool} {scene : Scene}
    (hmake : make settings digits journal stamp paper interruptible scene = .ok d) :
    ∃ topicPrefix, settings.mqtt.topicPrefix = .text topicPrefix ∧ d.topicPrefix = topicPrefix ∧
      ∀ payload, (d.client.availability payload).topic = topicPrefix ++ "/status" := by
  unfold make at hmake
  obtain ⟨topic, htopic, hmake⟩ := Config.bind_eq_ok_iff.mp hmake
  obtain ⟨client, hclient, hmake⟩ := Config.bind_eq_ok_iff.mp hmake
  split at hmake
  next t ht =>
    obtain ⟨_, hnamed, hmake⟩ := Config.bind_eq_ok_iff.mp hmake
    obtain rfl := Except.ok.inj hnamed
    obtain ⟨collector, -, hmake⟩ := Config.bind_eq_ok_iff.mp hmake
    obtain rfl := Except.ok.inj hmake
    rw [ht] at htopic
    have hstatus : topic = t ++ "/status" := by
      simpa [Mqtt.availabilityTopic, Config.Scalar.display, toString] using
        (Except.ok.inj htopic).symm
    -- a client has a topic of its own only where it is given none, or an empty one
    have hset : (some topic).filter (· ≠ "") = some topic := by
      simp [hstatus]
    unfold Client.make at hclient
    rw [hset] at hclient
    obtain rfl := Except.ok.inj hclient
    exact ⟨t, ht, rfl, fun _ => hstatus⟩
  next => contradiction

/-- Every topic of a cycle is its own. Settings make a daemon only if their topic prefix is a text.
At any time of its run, the topics of a cycle's messages, in whatever files, and the topic of the
announcements and of the will are all different, and so are those of what a cycle puts into the
queue. -/
theorem cycle_topics_nodup {settings : Config.Settings} {digits : String} {journal : Log.Journal}
    {stamp : Log.Stamp} {paper : Log.Paper} {interruptible : Bool} {scene : Scene}
    (hmake : make settings digits journal stamp paper interruptible scene = .ok d)
    (steps : List (Instant × Step)) (limit : Instant) (turns : Nat) :
    let d' := (d.prepare steps limit).takeTurns turns
    ∃ topicPrefix, settings.mqtt.topicPrefix = .text topicPrefix ∧
      (∀ payload, (d'.client.availability payload).topic = topicPrefix ++ "/status") ∧
      d'.client.connection.will.topic = topicPrefix ++ "/status" ∧
      (∀ files, ((cycleOffers topicPrefix (d'.collector.safeCollect files).2).map Prod.fst ++
        [topicPrefix ++ "/status"]).Nodup) ∧
      ∃ added, d'.cycle.client.queue = d'.client.queue ++ added ∧
        (added.map (·.topic) ++ [topicPrefix ++ "/status"]).Nodup := by
  intro d'
  obtain ⟨topicPrefix, htext, hnamed, hstatus⟩ := d.topics_of_make hmake
  have hfixtures : d'.fixtures = d.fixtures :=
    (takeTurns_fixtures _ turns).trans (d.prepare_fixtures steps limit)
  have hvoice : d'.client.availability = d.client.availability := congrArg (·.2.2) hfixtures
  have hnamed' : d'.topicPrefix = topicPrefix := (congrArg (·.2.1) hfixtures).trans hnamed
  have hstatus' (payload : String) :
      (d'.client.availability payload).topic = topicPrefix ++ "/status" := by
    rw [hvoice]
    exact hstatus payload
  refine ⟨topicPrefix, htext, hstatus', hstatus' "offline",
    fun files => cycleOffers_nodup d'.collector files topicPrefix, ?_⟩
  obtain ⟨added, hqueue, hcontent⟩ := d'.cycle_queue
  refine ⟨added, hqueue, ?_⟩
  -- what is added are the first of the offers, as far as there is room
  have htopics : added.map (·.topic) =
      ((cycleOffers topicPrefix d'.found).map Prod.fst).take
        (queueLimit - d'.client.queue.length) := by
    have hfst := congrArg (List.map Prod.fst) hcontent
    rw [List.map_map, List.map_map, hnamed'] at hfst
    rw [← List.map_take]
    exact hfst
  rw [htopics]
  exact (cycleOffers_nodup d'.collector d'.writeJournal.paper.files topicPrefix).sublist
    ((List.take_sublist _ _).append (List.Sublist.refl _))

/-- Settings without a namespace, whose prefix ends in slashes, for the batteries of the shelf. -/
def shelfSettings : Config.Settings where
  mqtt := { topicPrefix := .text "home//" }
  supply := { ignoredDevices := "^BAT2$", sysfs := "/s", namespace_ := "" }

/-- The daemon of these settings before its first turn. -/
def shelfDaemon : Except SettingError State :=
  make shelfSettings "00000000" {} ⟨"", ""⟩ { files := Supply.shelf } true {}

/-- After ten turns of the daemon a cycle on the shelf succeeds, and its topics are distinct. -/
theorem cycle_topics_nodup_shelf : ∃ d, shelfDaemon = .ok d ∧
    let d' := (d.prepare [] (.ofInt 60)).takeTurns 10
    (d'.collector.safeCollect Supply.shelf).2.available = true ∧
    ((cycleOffers "home//" (d'.collector.safeCollect Supply.shelf).2).map Prod.fst ++
      ["home//" ++ "/status"]).Nodup := by
  have hroot : shelfDaemon.toOption.map (·.collector.root) = some Supply.shelfCollector.root := by
    decide +kernel
  rcases hmake : shelfDaemon with e | d
  · rw [hmake] at hroot
    contradiction
  · rw [hmake] at hroot
    replace hroot : d.collector.root = Supply.shelfCollector.root := Option.some.inj hroot
    have hsame : ((d.prepare [] (.ofInt 60)).takeTurns 10).collector = d.collector :=
      congrArg (·.1) ((takeTurns_fixtures _ 10).trans (d.prepare_fixtures [] (.ofInt 60)))
    obtain ⟨topicPrefix, htext, -, -, hnodup, -⟩ := cycle_topics_nodup d hmake [] (.ofInt 60) 10
    obtain rfl : "home//" = topicPrefix := Config.Scalar.text.inj htext
    refine ⟨d, rfl, ?_, hnodup Supply.shelf⟩
    rw [hsame, d.collector.safeCollect_eq (hroot ▸ Supply.shelf_enumerable)]
    rfl

end Daemon.State

end SupplyGauge
