import Mathlib.Data.List.Nodup
import SupplyGauge.Proofs.Mqtt.Moves
import SupplyGauge.Proofs.Supply.Collection

/-! # Topics of a cycle

Every topic ends in the name of an attribute, in `/state` or in `/status`, and none of
these endings is the end of another one. What stands before the name of an attribute
tells the device. So no message of a cycle comes under the topic of another one or under
that of the announcements, whatever the prefix, the namespace and the files are.
-/

namespace SupplyGauge.Mqtt

open Supply (Attribute Collector attributes samplesOf classDirectory)

/-- The messages of a cycle with their topics, in the order in which they are offered. -/
def cycleOffers (topicPrefix : String) (r : Supply.Result) : List (String × Payload) :=
  if r.available then
    r.samples.map (fun x => (sampleTopic topicPrefix x, .json x.payload)) ++
      [(stateTopic topicPrefix, .text "online")]
  else [(stateTopic topicPrefix, .text "error")]

theorem cycleOffers_of_samples (topicPrefix : String) (samples : List Metric.Sample) :
    cycleOffers topicPrefix ⟨samples, none⟩ =
      samples.map (fun x => (sampleTopic topicPrefix x, .json x.payload)) ++
        [(stateTopic topicPrefix, .text "online")] := rfl

theorem cycleOffers_of_error (topicPrefix error : String) :
    cycleOffers topicPrefix ⟨[], some error⟩ = [(stateTopic topicPrefix, .text "error")] := rfl

/-! ## What becomes of offers -/

section Offers

variable {σ : Type}

/-- A place for messages after some have been offered to it. -/
def Sink.offer (sink : Sink σ) (offers : List (String × Payload)) (s : σ) : σ :=
  offers.foldl (fun s offer => (sink offer.1 offer.2 s).2) s

theorem offerSamples_eq (sink : Sink σ) (topicPrefix : String) (samples : List Metric.Sample)
    (s : σ) : (offerSamples sink topicPrefix samples s).2 =
      sink.offer (samples.map fun x => (sampleTopic topicPrefix x, .json x.payload)) s := by
  induction samples generalizing s with
  | nil => rfl
  | cons x samples ih => exact ih _

/-- A cycle offers its messages to any place, and nothing else. -/
theorem offerCycle_eq (sink : Sink σ) (topicPrefix : String) (r : Supply.Result) (s : σ) :
    (offerCycle sink topicPrefix r s).2.2 = sink.offer (cycleOffers topicPrefix r) s := by
  unfold offerCycle cycleOffers
  split
  · have hsamples := offerSamples_eq sink topicPrefix r.samples s
    rw [Sink.offer] at hsamples ⊢
    rw [List.foldl_append, ← hsamples]
    rfl
  · rfl

end Offers

/-- What a message says, and under which topic. -/
def Message.content (m : Message) : String × String := (m.topic, m.payload)

/-- A client as a place for messages. -/
abbrev Client.place : Sink Client := fun topic payload c => c.publish topic payload none

theorem Client.callListener_queue (c : Client) : c.callListener.queue = c.queue :=
  congrArg Ledger.queue (c.callListener_ledger [] [])

theorem Client.publish_queue_of_room (c : Client) (topic : String) (payload : Payload)
    (retain : Option Bool) (hroom : c.queue.length < queueLimit) :
    ∃ m : Message, m.content = (topic, payload.render) ∧
      (c.publish topic payload retain).2.queue = c.queue ++ [m] := by
  unfold publish enqueue
  simp only [if_pos hroom]
  exact ⟨_, rfl, Client.callListener_queue _⟩

theorem Client.publish_queue_of_full (c : Client) (topic : String) (payload : Payload)
    (retain : Option Bool) (hfull : ¬ c.queue.length < queueLimit) :
    (c.publish topic payload retain).2.queue = c.queue := by
  unfold publish enqueue
  simp only [if_neg hfull]
  rfl

/-- A client takes as many offers as its queue has room for, in their order. -/
theorem Client.offer_queue (c : Client) (offers : List (String × Payload)) :
    ∃ added : List Message, (Client.place.offer offers c).queue = c.queue ++ added ∧
      added.map Message.content = (offers.take (queueLimit - c.queue.length)).map
        fun offer => (offer.1, offer.2.render) := by
  induction offers generalizing c with
  | nil => exact ⟨[], (List.append_nil _).symm, by simp⟩
  | cons offer offers ih =>
      obtain ⟨added, hqueue, hcontent⟩ := ih (c.publish offer.1 offer.2 none).2
      change ∃ added, (Client.place.offer offers (c.publish offer.1 offer.2 none).2).queue = _ ∧ _
      rw [hqueue]
      by_cases hroom : c.queue.length < queueLimit
      · obtain ⟨m, hcontent', htaken⟩ := c.publish_queue_of_room offer.1 offer.2 none hroom
        have hleft : queueLimit - c.queue.length = queueLimit - (c.queue ++ [m]).length + 1 := by
          rw [List.length_append, List.length_singleton]
          omega
        refine ⟨m :: added, by rw [htaken, List.append_assoc, List.singleton_append], ?_⟩
        rw [List.map_cons, hcontent', hcontent, htaken, hleft, List.take_succ_cons, List.map_cons]
      · have hfull : queueLimit - c.queue.length = 0 := by omega
        refine ⟨added, by rw [c.publish_queue_of_full _ _ _ hroom], ?_⟩
        rw [hcontent, c.publish_queue_of_full _ _ _ hroom, hfull, List.take_zero, List.take_zero]

/-! ## Endings -/

/-- What follows the namespace in the name of a metric. -/
def metricEnding (a : Attribute) : String := "power_supply_" ++ a.name

def endings : List String := "/state" :: "/status" :: attributes.map metricEnding

theorem endings_apart : ∀ x ∈ endings, ∀ y ∈ endings, x.toList <:+ y.toList → x = y := by
  decide +kernel

/-- A text with one of the endings can be cut in one way only. -/
theorem cut_ending {a b x y : String} (hx : x ∈ endings) (hy : y ∈ endings) (h : a ++ x = b ++ y) :
    a = b ∧ x = y := by
  have hchars : a.toList ++ x.toList = b.toList ++ y.toList := by
    rw [← String.toList_append, h, String.toList_append]
  have hends : x.toList <:+ y.toList ∨ y.toList <:+ x.toList := by
    refine List.suffix_or_suffix_of_suffix (List.suffix_append a.toList _) ?_
    rw [hchars]
    exact List.suffix_append _ _
  obtain rfl : x = y := by
    rcases hends with hxy | hyx
    · exact endings_apart x hx y hy hxy
    · exact (endings_apart y hy x hx hyx).symm
  exact ⟨(String.append_left_inj x).mp h, rfl⟩

/-- What precedes the subsystem in the name of a metric. -/
def stem (namespace_ : String) : String := if namespace_ = "" then "" else namespace_ ++ "_"

theorem description_name (namespace_ : String) {a : Attribute} (ha : a ∈ attributes) :
    (a.description namespace_).name = stem namespace_ ++ metricEnding a := by
  have hname : a.name ≠ "" := by
    have hnames : ∀ a ∈ attributes, a.name ≠ "" := by decide +kernel
    exact hnames a ha
  unfold Attribute.description Metric.qualifiedName stem metricEnding
  by_cases hempty : namespace_ = ""
  · simp [hempty, hname, Supply.subsystem]
  · simp [hempty, hname, Supply.subsystem, String.append_assoc]

/-! ## The topics of devices -/

section Devices

variable (topicPrefix namespace_ : String) (files : Files.Tree) (directory : Files.Path)

/-- The topics of a device, in the order of the attributes. -/
def deviceTopics (name : String) : List String :=
  (attributes.map metricEnding).map
    (trimPrefix topicPrefix ++ "/" ++ name ++ ("/" ++ stem namespace_) ++ ·)

theorem samplesOf_topics {name : String} (hname : name ≠ "") :
    (samplesOf namespace_ files (directory.child name)).map (sampleTopic topicPrefix) =
      deviceTopics topicPrefix namespace_ name := by
  unfold samplesOf deviceTopics
  rw [List.map_map, List.map_map]
  refine List.map_congr_left fun a ha => ?_
  simp only [Function.comp_apply, sampleTopic, Metric.Sample.deviceName, Option.map_some,
    Files.Path.name_child, Option.getD_some, if_neg hname, description_name namespace_ ha]
  simp [toString, String.append_assoc]

variable {topicPrefix namespace_}

theorem ending_of_mem {ending : String} (h : ending ∈ attributes.map metricEnding) :
    ending ∈ endings :=
  List.mem_cons_of_mem _ (List.mem_cons_of_mem _ h)

theorem deviceTopics_nodup (name : String) : (deviceTopics topicPrefix namespace_ name).Nodup := by
  have hendings : (attributes.map metricEnding).Nodup := by decide +kernel
  refine hendings.map_on ?_
  intro x hx y hy heq
  exact (cut_ending (ending_of_mem hx) (ending_of_mem hy) heq).2

/-- Two devices have no topic in common. -/
theorem deviceTopics_disjoint {name name' : String} (hne : name ≠ name') :
    (deviceTopics topicPrefix namespace_ name).Disjoint
      (deviceTopics topicPrefix namespace_ name') := by
  intro topic htopic htopic'
  obtain ⟨x, hx, rfl⟩ := List.mem_map.mp htopic
  obtain ⟨x', hx', heq⟩ := List.mem_map.mp htopic'
  -- prefix and stem are the same for all devices, so what is left are the names
  have hbefore := (cut_ending (ending_of_mem hx') (ending_of_mem hx) heq).1
  exact hne ((String.append_right_inj _).mp ((String.append_left_inj _).mp hbefore)).symm

/-- A topic with another ending is no topic of a device. -/
theorem not_mem_deviceTopics {start ending : String} (hending : ending ∈ endings)
    (hother : ending ∉ attributes.map metricEnding) (name : String) :
    start ++ ending ∉ deviceTopics topicPrefix namespace_ name := by
  intro hmem
  obtain ⟨x, hx, heq⟩ := List.mem_map.mp hmem
  obtain rfl := (cut_ending (ending_of_mem hx) hending heq).2
  exact hother hx

end Devices

/-! ## The topics of a cycle -/

/-- All messages of a cycle have topics of their own, which are not that of the announcements. -/
theorem cycleOffers_nodup (c : Collector) (files : Files.Tree) (topicPrefix : String) :
    ((cycleOffers topicPrefix (c.safeCollect files).2).map Prod.fst ++
      [topicPrefix ++ "/status"]).Nodup := by
  have hstates : stateTopic topicPrefix = trimPrefix topicPrefix ++ "/state" := by
    simp [stateTopic, toString]
  have hstatus : ¬ trimPrefix topicPrefix ++ "/state" = topicPrefix ++ "/status" := fun heq =>
    absurd (cut_ending (by simp [endings]) (by simp [endings]) heq).2 (by decide)
  by_cases henumerable : ∃ names, Supply.Enumerable files (classDirectory c.root) names
  · obtain ⟨names, henumerable⟩ := henumerable
    have hdevices := c.retained_ascending henumerable.listed
    have hnamed : ∀ name ∈ c.retained files names, name ≠ "" := by
      intro name hname hempty
      obtain ⟨ch, hch, -⟩ := (c.mem_retained.mp hname).numbered
      rw [hempty] at hch
      contradiction
    have htopics : (cycleOffers topicPrefix (c.safeCollect files).2).map Prod.fst =
        (c.retained files names).flatMap (deviceTopics topicPrefix c.settings.namespace_) ++
          [trimPrefix topicPrefix ++ "/state"] := by
      rw [c.safeCollect_eq henumerable, cycleOffers_of_samples, List.map_append, List.map_map,
        List.map_flatMap, ← hstates]
      refine congrArg (· ++ _) (List.flatMap_congr fun name hname => ?_)
      exact samplesOf_topics _ _ _ _ (hnamed name hname)
    rw [htopics, List.append_assoc, List.nodup_append', List.nodup_flatMap]
    refine ⟨⟨fun name _ => deviceTopics_nodup name, ?_⟩, by simpa using hstatus, ?_⟩
    · exact hdevices.imp fun hlt => deviceTopics_disjoint (String.ne_of_lt hlt)
    · intro topic htopic hother
      obtain ⟨name, -, htopic⟩ := List.mem_flatMap.mp htopic
      rcases List.mem_cons.mp hother with rfl | hother
      · exact not_mem_deviceTopics (by simp [endings]) (by decide +kernel) name htopic
      · obtain rfl := List.mem_singleton.mp hother
        exact not_mem_deviceTopics (by simp [endings]) (by decide +kernel) name htopic
  · obtain ⟨message, hfailed⟩ := c.safeCollect_failed henumerable
    rw [hfailed, cycleOffers_of_error]
    simpa [hstates] using hstatus

end SupplyGauge.Mqtt
