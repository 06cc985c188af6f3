import Mathlib.Data.List.DropRight
import SupplyGauge.Proofs.Daemon.Cycles

/-! # Where a daemon's topics stand

The topics of a daemon's data stand below its prefix without the slashes at its end; the topic
under which its client says whether it is there stands below the prefix as it is written. The two
agree unless the prefix ends in a slash.
-/

namespace SupplyGauge

open Mqtt

namespace Mqtt

/-- The topics of samples and of the state stand below a root. -/
structure DataBelow (topicPrefix root : String) : Prop where
  sample : ∀ x : Metric.Sample, sampleTopic topicPrefix x =
    root ++ "/" ++ (if x.deviceName = "" then "unknown" else x.deviceName) ++ "/" ++
      x.description.name
  state : stateTopic topicPrefix = root ++ "/state"

/-- What a client says of itself, and has the broker say once it is gone, stands below a root. -/
structure AvailabilityBelow (c : Client) (root : String) : Prop where
  announced (payload : String) : (c.availability payload).topic = root ++ "/status"
  will : c.connection.will.topic = root ++ "/status"

/-- A prefix is a trimmed one with slashes behind it. -/
theorem trimPrefix_append_slashes (topicPrefix : String) :
    ∃ k, topicPrefix = trimPrefix topicPrefix ++ String.ofList (List.replicate k '/') := by
  let slashes := topicPrefix.toList.rtakeWhile (· == '/')
  have hslashes : slashes = List.replicate slashes.length '/' := by
    refine List.eq_replicate_iff.mpr ⟨rfl, fun ch hch => ?_⟩
    have hslash := List.mem_rtakeWhile_imp hch
    exact beq_iff_eq.mp hslash
  have hwhole : (trimPrefix topicPrefix).toList ++ slashes = topicPrefix.toList := by
    rw [trimPrefix, String.toList_ofList]
    exact List.rdropWhile_append_rtakeWhile
  refine ⟨slashes.length, String.toList_injective ?_⟩
  rw [String.toList_append, String.toList_ofList, ← hslashes, hwhole]

/-- Trimming leaves a prefix as it is unless it ends in a slash. -/
theorem trimPrefix_eq_iff (topicPrefix : String) :
    trimPrefix topicPrefix = topicPrefix ↔ ¬ ['/'] <:+ topicPrefix.toList := by
  have hsame : trimPrefix topicPrefix = topicPrefix ↔
      topicPrefix.toList.rdropWhile (· == '/') = topicPrefix.toList := by
    rw [← String.toList_inj, trimPrefix, String.toList_ofList, List.rdropWhile]
  rw [hsame, List.rdropWhile_eq_self_iff]
  constructor
  · rintro hlast ⟨start, hstart⟩
    exact hlast (by simp [← hstart]) (by simp [← hstart])
  · intro hlast hne hslash
    refine hlast ⟨topicPrefix.toList.dropLast, ?_⟩
    rw [← beq_iff_eq.mp hslash, List.dropLast_append_getLast hne]

theorem dataBelow_iff (topicPrefix root : String) :
    DataBelow topicPrefix root ↔ root = trimPrefix topicPrefix := by
  constructor
  · intro h
    have hstate : trimPrefix topicPrefix ++ "/state" = root ++ "/state" := by
      rw [← h.state]
      simp [stateTopic, toString]
    exact ((String.append_left_inj _).mp hstate).symm
  · rintro rfl
    constructor
    · intro x
      simp [sampleTopic, toString, String.append_assoc]
    · simp [stateTopic, toString]

theorem availabilityBelow_iff {c : Client} {topicPrefix : String}
    (h : ∀ payload, (c.availability payload).topic = topicPrefix ++ "/status") (root : String) :
    AvailabilityBelow c root ↔ root = topicPrefix := by
  constructor
  · intro hbelow
    exact (String.append_left_inj _).mp ((hbelow.announced "online").symm.trans (h "online"))
  · rintro rfl
    exact ⟨h, h "offline"⟩

theorem topic_of_mem_cycleOffers {topicPrefix : String} {r : Supply.Result}
    {offer : String × Payload} (h : offer ∈ cycleOffers topicPrefix r) :
    offer.1 = stateTopic topicPrefix ∨ ∃ x ∈ r.samples, offer.1 = sampleTopic topicPrefix x := by
  unfold cycleOffers at h
  split at h
  · rcases List.mem_append.mp h with hsample | hstate
    · obtain ⟨x, hx, rfl⟩ := List.mem_map.mp hsample
      exact .inr ⟨x, hx, rfl⟩
    · exact .inl (congrArg Prod.fst (List.mem_singleton.mp hstate))
  · exact .inl (congrArg Prod.fst (List.mem_singleton.mp h))

end Mqtt

namespace Daemon.State

variable (d : State)

/-- Data and availability have one root unless the prefix ends in a slash. At any time of a
daemon's run, what a cycle puts into the queue are samples and a state below the trimmed prefix and
nowhere else; the announcements and the will are below the prefix as it is written, and the two
differ by the slashes at its end. -/
theorem topics_one_root_iff {settings : Config.Settings} {digits : String}
    {journal : Log.Journal} {stamp : Log.Stamp} {paper : Log.Paper} {interruptible : Bool}
    {scene : Scene}
    (hmake : make settings digits journal stamp paper interruptible scene = .ok d)
    (steps : List (Instant × Step)) (limit : Instant) (turns : Nat) :
    let d' := (d.prepare steps limit).takeTurns turns
    ∃ topicPrefix, settings.mqtt.topicPrefix = .text topicPrefix ∧
      (∃ added, d'.cycle.client.queue = d'.client.queue ++ added ∧ ∀ m ∈ added,
        m.topic = stateTopic topicPrefix ∨
          ∃ x ∈ d'.found.samples, m.topic = sampleTopic topicPrefix x) ∧
      (∀ root, DataBelow topicPrefix root ↔ root = trimPrefix topicPrefix) ∧
      (∀ root, AvailabilityBelow d'.client root ↔ root = topicPrefix) ∧
      (∃ k, topicPrefix = trimPrefix topicPrefix ++ String.ofList (List.replicate k '/')) ∧
      ((∃ root, DataBelow topicPrefix root ∧ AvailabilityBelow d'.client root) ↔
        ¬ ['/'] <:+ topicPrefix.toList) := by
  intro d'
  obtain ⟨topicPrefix, htext, hnamed, hstatus⟩ := d.topics_of_make hmake
  have hfixtures : d'.fixtures = d.fixtures :=
    (takeTurns_fixtures _ turns).trans (d.prepare_fixtures steps limit)
  have hvoice : d'.client.availability = d.client.availability := congrArg (·.2.2) hfixtures
  have hnamed' : d'.topicPrefix = topicPrefix := (congrArg (·.2.1) hfixtures).trans hnamed
  have hdata := dataBelow_iff topicPrefix
  have havailability := availabilityBelow_iff (hvoice ▸ hstatus)
  refine ⟨topicPrefix, htext, ?_, hdata, havailability, trimPrefix_append_slashes topicPrefix, ?_⟩
  · obtain ⟨added, hqueue, hcontent⟩ := d'.cycle_queue
    refine ⟨added, hqueue, fun m hm => ?_⟩
    have hmem := List.mem_map_of_mem (f := Message.content) hm
    rw [hcontent, hnamed'] at hmem
    obtain ⟨offer, hoffer, heq⟩ := List.mem_map.mp hmem
    have htopic : offer.1 = m.topic := congrArg Prod.fst heq
    rw [← htopic]
    exact topic_of_mem_cycleOffers (List.mem_of_mem_take hoffer)
  · simp only [hdata, havailability, ← trimPrefix_eq_iff]
    constructor
    · rintro ⟨root, hroot, rfl⟩
      exact hroot.symm
    · intro hsame
      exact ⟨topicPrefix, hsame.symm, rfl⟩

/-- After ten turns of the shelf's daemon, whose prefix is `home//`, the data of a cycle stand
below `home`, and its availability does not. -/
theorem topics_one_root_iff_shelf : ∃ d, shelfDaemon = .ok d ∧
    let d' := (d.prepare [] (.ofInt 60)).takeTurns 10
    DataBelow "home//" "home" ∧ AvailabilityBelow d'.client "home//" ∧
      ¬ ∃ root, DataBelow "home//" root ∧ AvailabilityBelow d'.client root := by
  have hmade : shelfDaemon.toBool = true := by decide +kernel
  rcases hmake : shelfDaemon with e | d
  · rw [hmake] at hmade
    contradiction
  · obtain ⟨topicPrefix, htext, -, hdata, havailability, -, hshared⟩ :=
      topics_one_root_iff d hmake [] (.ofInt 60) 10
    obtain rfl : "home//" = topicPrefix := Config.Scalar.text.inj htext
    refine ⟨d, rfl, (hdata "home").mpr (by decide +kernel), (havailability _).mpr rfl, ?_⟩
    rw [hshared]
    decide

end Daemon.State

end SupplyGauge
