import SupplyGauge.Proofs.Json.Rendering
import SupplyGauge.Proofs.Mqtt.Topics

/-! # What the messages of a cycle say

The message of a sample is a JSON object with the value and the labels of the sample, as
readers have it, if the value is a finite number. The value of a category always is. An
attribute file that names infinity or no number, or a number beyond all doubles, gives a
message that is no JSON text.
-/

namespace SupplyGauge

namespace Supply

open Files (Path Tree)

theorem placeOf_isFinite (k : Category) (text : String) : (placeOf k text).isFinite = true := by
  have hplaces : ∀ n < 9, (Binary64.ofInt (n : Nat)).isFinite = true := by decide +kernel
  unfold placeOf
  split
  next htext =>
    have hlength : k.words.length ≤ 9 := by cases k <;> decide
    exact hplaces _ (Nat.lt_of_lt_of_le (List.idxOf_lt_length_of_mem htext) hlength)
  next => rfl

/-- Only the first line of a file that is read as a number can give a value that is not finite. -/
theorem gaugeOf_isFinite_iff (files : Tree) (device : Path) (a : Attribute) :
    (gaugeOf files device a).isFinite = false ↔ a.category = none ∧
      isBare (firstLine files (device.child a.name)) = true ∧
      ∃ y, Numeral.real (firstLine files (device.child a.name)) = .ok y ∧ y.isFinite = false := by
  unfold gaugeOf
  generalize firstLine files (device.child a.name) = line
  cases a.category with
  | some k => simp [placeOf_isFinite]
  | none =>
      have hzero : Binary64.zero.isFinite = true := rfl
      dsimp only
      unfold numberOf
      by_cases hbare : isBare line = true
      · rw [if_pos hbare]
        cases Numeral.real line with
        | error f => simp [Except.toOption, hzero]
        | ok y => simp [Except.toOption, hbare]
      · rw [if_neg hbare]
        simp [hzero, hbare]

end Supply

namespace Mqtt

open Supply (Attribute Collector attributes labelsOf firstLine isBare)

theorem payload_eq (x : Metric.Sample) : x.payload =
    .object [("value", .real x.value), ("labels", .object [
      ("chargeFullDesign", .text x.descriptor.chargeFullDesign),
      ("model", .text x.descriptor.model),
      ("tech", .text x.descriptor.technology),
      ("type", .text x.descriptor.type),
      ("serial", .text x.descriptor.serial),
      ("voltageMinDesign", .text x.descriptor.voltageMinDesign)])] := rfl

theorem payload_finite (x : Metric.Sample) : x.payload.Finite ↔ x.value.isFinite = true := by
  simp [payload_eq, Json.Value.Finite, Json.FiniteMembers]

/-- A cycle has either no error or no samples. -/
theorem safeCollect_cases (k : Collector) (files : Files.Tree) :
    (∃ samples, (k.safeCollect files).2 = ⟨samples, none⟩ ∧
      ∀ x ∈ samples, ∃ device, ∃ a ∈ attributes, x =
        { description := a.description k.settings.namespace_
          value := Supply.gaugeOf files device a
          descriptor := labelsOf files device
          device := some device }) ∨
      ∃ message, (k.safeCollect files).2 = ⟨[], some message⟩ := by
  by_cases henumerable : ∃ names, Supply.Enumerable files (Supply.classDirectory k.root) names
  · obtain ⟨names, henumerable⟩ := henumerable
    refine .inl ⟨_, k.safeCollect_eq henumerable, fun x hx => ?_⟩
    obtain ⟨name, -, hx⟩ := List.mem_flatMap.mp hx
    obtain ⟨a, ha, rfl⟩ := List.mem_map.mp hx
    exact ⟨_, a, ha, rfl⟩
  · exact .inr (k.safeCollect_failed henumerable)

/-- The messages that a cycle puts into the queue come in the order of its samples. -/
theorem content_of_mem_zip {topicPrefix : String} {samples : List Metric.Sample} {room : Nat}
    {added : List Message} (hadded : added.map Message.content =
      ((cycleOffers topicPrefix ⟨samples, none⟩).take room).map
        fun offer => (offer.1, offer.2.render))
    {m : Message} {x : Metric.Sample} (h : (m, x) ∈ added.zip samples) :
    m.topic = sampleTopic topicPrefix x ∧ m.payload = x.payload.render := by
  obtain ⟨i, hi⟩ := List.mem_iff_getElem?.mp h
  obtain ⟨hm, hx⟩ := List.getElem?_zip_eq_some.mp hi
  have hi : i < samples.length := (List.getElem?_eq_some_iff.mp hx).1
  have hoffer : (cycleOffers topicPrefix ⟨samples, none⟩)[i]? =
      some (sampleTopic topicPrefix x, .json x.payload) := by
    rw [cycleOffers_of_samples, List.getElem?_append_left (by rwa [List.length_map]),
      List.getElem?_map, hx]
    rfl
  have hcontent := congrArg (·[i]?) hadded
  simp only [List.getElem?_map, hm, Option.map_some] at hcontent
  rw [List.getElem?_take] at hcontent
  split at hcontent
  next =>
    rw [hoffer] at hcontent
    exact Prod.mk.inj (Option.some.inj hcontent)
  next => contradiction

/-- A cycle puts its messages into the queue in the order of its samples, as many as there is room
for. The message of a sample is the text of one JSON value at most. It is the text of one if the
value of the sample is a finite number, and then of the object with this value and the six labels
of the device. It is no JSON text exactly where the first line of a file is a bare number that is
not finite. -/
theorem offered_isText_iff (k : Collector) (files : Files.Tree) (topicPrefix : String)
    (c : Client) :
    let r := (k.safeCollect files).2
    ∃ added : List Message,
      (offerCycle Client.place topicPrefix r c).2.2.queue = c.queue ++ added ∧
      added.length = min (queueLimit - c.queue.length) (r.samples.length + 1) ∧
      ∀ m x, (m, x) ∈ added.zip r.samples → m.topic = sampleTopic topicPrefix x ∧
        (∀ v, Json.IsText m.payload v ↔ x.value.isFinite = true ∧ v =
          .object [("value", .real x.value), ("labels", .object [
            ("chargeFullDesign", .text x.descriptor.chargeFullDesign),
            ("model", .text x.descriptor.model),
            ("tech", .text x.descriptor.technology),
            ("type", .text x.descriptor.type),
            ("serial", .text x.descriptor.serial),
            ("voltageMinDesign", .text x.descriptor.voltageMinDesign)])]) ∧
        ∃ device, ∃ a ∈ attributes, x.device = some device ∧
          x.descriptor = labelsOf files device ∧
          (x.value.isFinite = false ↔ a.category = none ∧
            isBare (firstLine files (device.child a.name)) = true ∧
            ∃ y, Numeral.real (firstLine files (device.child a.name)) = .ok y ∧
              y.isFinite = false) := by
  intro r
  obtain ⟨added, hqueue, hadded⟩ := c.offer_queue (cycleOffers topicPrefix r)
  -- a cycle with an error offers no samples, so there is nothing to say about messages
  refine ⟨added, by rw [offerCycle_eq, hqueue], ?_⟩
  have hlength := congrArg List.length hadded
  rw [List.length_map, List.length_map, List.length_take] at hlength
  rcases safeCollect_cases k files with ⟨samples, hr, hsamples⟩ | ⟨message, hr⟩
  · replace hr : r = ⟨samples, none⟩ := hr
    rw [hr] at hadded hlength ⊢
    refine ⟨?_, fun m x h => ?_⟩
    · rw [hlength, cycleOffers_of_samples, List.length_append, List.length_map,
        List.length_singleton]
    · obtain ⟨htopic, hpayload⟩ := content_of_mem_zip hadded h
      obtain ⟨device, a, ha, rfl⟩ := hsamples x (List.of_mem_zip h).2
      refine ⟨htopic, fun v => ?_, device, a, ha, rfl, rfl,
        Supply.gaugeOf_isFinite_iff files device a⟩
      rw [hpayload, Json.isText_render, payload_finite, payload_eq]
  · replace hr : r = ⟨[], some message⟩ := hr
    rw [hr] at hlength ⊢
    refine ⟨hlength, fun m x h => ?_⟩
    rw [List.zip_nil_right] at h
    contradiction

/-- A battery with a number of charges, and an alarm that is none. -/
def soundless : Files.Tree where
  nodes := [
    (["s"], .directory),
    (["s", "class"], .directory),
    (["s", "class", "power_supply"], .directory),
    (["s", "class", "power_supply", "BAT0"], .directory),
    (["s", "class", "power_supply", "BAT0", "alarm"], .file [110, 97, 110, 10]),
    (["s", "class", "power_supply", "BAT0", "cycle_count"], .file [52, 50, 10])]
  home := []

theorem soundless_enumerable :
    Supply.Enumerable soundless (Supply.classDirectory Supply.shelfCollector.root) ["BAT0"] where
  listed := Supply.eq_ok_of_toOption (by decide +kernel)
  tested name hname _ := by
    obtain rfl := List.mem_singleton.mp hname
    exact ⟨true, Supply.eq_ok_of_toOption (by decide +kernel)⟩

/-- A client with an empty queue. -/
def idleClient : Client where
  settings := {}
  availabilityTopic := "p/status"
  identifier := .text "idle"

/-- The message about the alarm is no JSON text. The one about the charges is, and says that there
are 42 of them. -/
theorem offered_isText_iff_soundless :
    let r := (Supply.shelfCollector.safeCollect soundless).2
    let queue := (offerCycle Client.place "p" r idleClient).2.2.queue
    r.available = true ∧ queue.length = 12 ∧
      (∃ m ∈ queue, m.topic = "p/BAT0/node_power_supply_alarm" ∧ ∀ v, ¬ Json.IsText m.payload v) ∧
      ∃ m ∈ queue, m.topic = "p/BAT0/node_power_supply_cycle_count" ∧
        ∃ labels, Json.IsText m.payload
          (.object [("value", .real (.ofInt 42)), ("labels", labels)]) := by
  intro r queue
  have hretained : Supply.shelfCollector.retained soundless ["BAT0"] = ["BAT0"] := by
    rw [Collector.retained, List.mergeSort_singleton]
    decide +kernel
  have hr : r = ⟨Supply.samplesOf "node" soundless
      ((Supply.classDirectory Supply.shelfCollector.root).child "BAT0"), none⟩ := by
    have hcollected := Supply.shelfCollector.safeCollect_eq soundless_enumerable
    rw [hretained, List.flatMap_cons, List.flatMap_nil, List.append_nil] at hcollected
    exact hcollected
  have hlength : r.samples.length = 11 := by
    rw [hr]
    rfl
  have hread : (r.samples.map fun x => (sampleTopic "p" x, x.value))[0]? =
        some ("p/BAT0/node_power_supply_alarm", .nan) ∧
      (r.samples.map fun x => (sampleTopic "p" x, x.value))[5]? =
        some ("p/BAT0/node_power_supply_cycle_count", .ofInt 42) := by
    rw [hr]
    decide +kernel
  obtain ⟨added, hqueue, hadded, hmessages⟩ :=
    offered_isText_iff Supply.shelfCollector soundless "p" idleClient
  replace hqueue : queue = added := hqueue
  replace hadded : added.length = 12 := by
    rw [hadded, hlength]
    rfl
  have hmessage (i : Nat) {topic : String} {value : Binary64}
      (hi : (r.samples.map fun x => (sampleTopic "p" x, x.value))[i]? = some (topic, value)) :
      ∃ m ∈ queue, ∃ labels, m.topic = topic ∧ ∀ v, Json.IsText m.payload v ↔
        value.isFinite = true ∧ v = .object [("value", .real value), ("labels", labels)] := by
    rw [List.getElem?_map, Option.map_eq_some_iff] at hi
    obtain ⟨x, hx, heq⟩ := hi
    obtain ⟨rfl, rfl⟩ := Prod.mk.inj heq
    have hroom : i < added.length := by
      have hi := (List.getElem?_eq_some_iff.mp hx).1
      omega
    have hzip : (added[i], x) ∈ added.zip r.samples :=
      List.mem_of_getElem? (List.getElem?_zip_eq_some.mpr ⟨List.getElem?_eq_getElem hroom, hx⟩)
    obtain ⟨htopic, htext, -⟩ := hmessages _ _ hzip
    exact ⟨_, hqueue ▸ List.getElem_mem hroom, _, htopic, htext⟩
  refine ⟨by rw [hr]; rfl, by rw [hqueue, hadded], ?_, ?_⟩
  · obtain ⟨m, hm, _, htopic, htext⟩ := hmessage 0 hread.1
    refine ⟨m, hm, htopic, fun v hv => ?_⟩
    have hfinite := ((htext v).mp hv).1
    contradiction
  · obtain ⟨m, hm, labels, htopic, htext⟩ := hmessage 5 hread.2
    exact ⟨m, hm, htopic, labels, (htext _).mpr ⟨by decide +kernel, rfl⟩⟩

end Mqtt

end SupplyGauge
