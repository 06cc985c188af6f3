import SupplyGauge.Proofs.Mqtt.Topics

/-! # Room for the messages of a cycle

A cycle offers one message for each sample and then the state, whatever the answers are,
and counts the samples accepted. A client accepts offers until its queue is full, so what
it keeps of a cycle is a beginning: some of the samples, or all of them and the state.
-/

namespace SupplyGauge.Mqtt

open Supply (Result)

/-- What is offered for a sample. -/
def sampleOffer (topicPrefix : String) (x : Metric.Sample) : String × Payload :=
  (sampleTopic topicPrefix x, .json x.payload)

/-- What is offered for the state of a cycle. -/
def stateOffer (topicPrefix state : String) : String × Payload :=
  (stateTopic topicPrefix, .text state)

/-- What is reported if only some of the samples have been accepted. -/
def droppedEntry (queued all : Nat) : Log.Entry :=
  Log.note .warning cycleComponent s!"Dropped {all - queued} of {all} records"

namespace Sink

variable {σ : Type} (sink : Sink σ)

/-! ## Any place for messages -/

/-- The answers to offers that come one after the other. -/
def answers : List (String × Payload) → σ → List Bool
  | [], _ => []
  | offer :: offers, s =>
    (sink offer.1 offer.2 s).1 :: answers offers (sink offer.1 offer.2 s).2

/-- A place that writes down what is offered to it, and its answers. -/
def recorded : Sink (σ × List ((String × Payload) × Bool)) := fun topic payload (s, calls) =>
  let (accepted, s) := sink topic payload s
  (accepted, s, calls ++ [((topic, payload), accepted)])

theorem length_answers (offers : List (String × Payload)) (s : σ) :
    (sink.answers offers s).length = offers.length := by
  induction offers generalizing s with
  | nil => rfl
  | cons offer offers ih => exact congrArg (· + 1) (ih _)

theorem answers_append (offers later : List (String × Payload)) (s : σ) :
    sink.answers (offers ++ later) s =
      sink.answers offers s ++ sink.answers later (sink.offer offers s) := by
  induction offers generalizing s with
  | nil => rfl
  | cons offer offers ih => exact congrArg (_ :: ·) (ih _)

theorem recorded_answers (offers : List (String × Payload)) (s : σ)
    (calls : List ((String × Payload) × Bool)) :
    sink.recorded.answers offers (s, calls) = sink.answers offers s := by
  induction offers generalizing s calls with
  | nil => rfl
  | cons offer offers ih => exact congrArg (_ :: ·) (ih _ _)

/-- Writing offers down does not change what becomes of them. -/
theorem recorded_offer (offers : List (String × Payload)) (s : σ)
    (calls : List ((String × Payload) × Bool)) :
    sink.recorded.offer offers (s, calls) =
      (sink.offer offers s, calls ++ offers.zip (sink.answers offers s)) := by
  induction offers generalizing s calls with
  | nil => exact Prod.ext rfl (List.append_nil calls).symm
  | cons offer offers ih =>
      refine (ih _ _).trans (Prod.ext rfl ?_)
      rw [answers, List.zip_cons_cons, ← List.append_cons]

/-- The samples accepted are those with a positive answer. -/
theorem offerSamples_count (topicPrefix : String) (samples : List Metric.Sample) (s : σ) :
    (offerSamples sink topicPrefix samples s).1 =
      (sink.answers (samples.map (sampleOffer topicPrefix)) s).count true := by
  induction samples generalizing s with
  | nil => rfl
  | cons x samples ih =>
      rw [List.map_cons, answers, List.count_cons, ← ih, offerSamples, sampleOffer]
      rcases sink (sampleTopic topicPrefix x) (.json x.payload) s with ⟨_ | _, s'⟩ <;> rfl

/-- What a successful cycle comes to at any place. -/
theorem offerCycle_samples (topicPrefix : String) (samples : List Metric.Sample) (s : σ) :
    let offers := samples.map (sampleOffer topicPrefix)
    let queued := (sink.answers offers s).count true
    offerCycle sink topicPrefix ⟨samples, none⟩ s =
      (queued, if queued < samples.length then [droppedEntry queued samples.length] else [],
        sink.offer (offers ++ [stateOffer topicPrefix "online"]) s) := by
  intro offers queued
  have hcount : (offerSamples sink topicPrefix samples s).1 = queued :=
    sink.offerSamples_count topicPrefix samples s
  have hend := offerCycle_eq sink topicPrefix ⟨samples, none⟩ s
  rw [← hcount]
  exact Prod.ext rfl (Prod.ext rfl hend)

/-- What a failed cycle comes to at any place. -/
theorem offerCycle_error (topicPrefix error : String) (samples : List Metric.Sample) (s : σ) :
    offerCycle sink topicPrefix ⟨samples, some error⟩ s =
      (0, [], sink.offer [stateOffer topicPrefix "error"] s) := rfl

end Sink

/-! ## A client -/

namespace Client

/-- The messages that a client makes of the offers that it accepts next. -/
def messagesOf (c : Client) (offers : List (String × Payload)) : List Message :=
  (offers.zipIdx c.accepted).map fun (offer, serial) =>
    { topic := offer.1
      payload := offer.2.render
      qos := c.settings.qos
      retain := c.settings.retain.data
      serial }

theorem callListener_settings (c : Client) :
    c.callListener.settings = c.settings ∧ c.callListener.accepted = c.accepted := by
  unfold callListener
  split <;> exact ⟨rfl, rfl⟩

theorem place_of_room (c : Client) (offer : String × Payload)
    (hroom : c.queue.length < queueLimit) :
    ∃ c' : Client, place offer.1 offer.2 c = (true, c') ∧ c'.settings = c.settings ∧
      c'.accepted = c.accepted + 1 ∧ c'.queue = c.queue ++ c.messagesOf [offer] := by
  unfold place publish enqueue
  simp only [if_pos hroom]
  obtain ⟨hsettings, haccepted⟩ := callListener_settings
    { c with queue := c.queue ++ c.messagesOf [offer] }
  exact ⟨_, rfl, hsettings, by rw [note]; exact congrArg (· + 1) haccepted, callListener_queue _⟩

theorem place_of_full (c : Client) (offer : String × Payload)
    (hfull : ¬ c.queue.length < queueLimit) :
    ∃ c' : Client, place offer.1 offer.2 c = (false, c') ∧ c'.queue = c.queue := by
  unfold place publish enqueue
  simp only [if_neg hfull]
  exact ⟨_, rfl, rfl⟩

theorem messagesOf_cons {c c' : Client} (hsettings : c'.settings = c.settings)
    (haccepted : c'.accepted = c.accepted + 1) (offer : String × Payload)
    (offers : List (String × Payload)) :
    c.messagesOf (offer :: offers) = c.messagesOf [offer] ++ c'.messagesOf offers := by
  simp [messagesOf, hsettings, haccepted]

/-- A client accepts offers as long as there is room, and none after that. -/
theorem place_offers (offers : List (String × Payload)) (c : Client) :
    let free := queueLimit - c.queue.length
    (place.offer offers c).queue = c.queue ++ c.messagesOf (offers.take free) ∧
      Sink.answers place offers c =
        List.replicate (min offers.length free) true ++
          List.replicate (offers.length - free) false := by
  induction offers generalizing c with
  | nil => simp [Sink.offer, Sink.answers, messagesOf]
  | cons offer offers ih =>
      intro free
      have hoffer : place.offer (offer :: offers) c =
          place.offer offers (place offer.1 offer.2 c).2 := rfl
      rw [hoffer, Sink.answers, List.length_cons]
      by_cases hroom : c.queue.length < queueLimit
      · obtain ⟨c', hplace, hsettings, haccepted, hqueue⟩ := c.place_of_room offer hroom
        obtain ⟨hqueue', hanswers⟩ := ih c'
        have hfree : free = queueLimit - c'.queue.length + 1 := by
          rw [hqueue, List.length_append]
          change queueLimit - c.queue.length = queueLimit - (c.queue.length + 1) + 1
          omega
        constructor
        · rw [hplace, hqueue', hfree, List.take_succ_cons, messagesOf_cons hsettings haccepted,
            ← List.append_assoc, ← hqueue]
        · rw [hplace, hanswers, hfree, Nat.add_min_add_right, Nat.add_sub_add_right,
            List.replicate_succ, List.cons_append]
      · obtain ⟨c', hplace, hqueue⟩ := c.place_of_full offer hroom
        obtain ⟨hqueue', hanswers⟩ := ih c'
        have hfree : free = 0 := Nat.sub_eq_zero_of_le (Nat.not_lt.mp hroom)
        rw [hqueue] at hqueue' hanswers
        rw [hplace, hqueue', hanswers]
        simp only [free] at hfree
        simp [free, hfree, messagesOf, List.replicate_succ]

end Client

/-! ## A cycle -/

section Cycle

variable (topicPrefix : String) (samples : List Metric.Sample)

/-- Offers of which there is room for some are cut to a beginning: samples first, and the state if
there is room for more. -/
theorem take_cycle (free : Nat) (state : String × Payload) :
    (samples.map (sampleOffer topicPrefix) ++ [state]).take free =
      (samples.take (min samples.length free)).map (sampleOffer topicPrefix) ++
        if samples.length < free then [state] else [] := by
  rw [List.take_append, List.length_map, ← List.map_take, Nat.min_comm,
    ← List.take_eq_take_min]
  split
  next hroom =>
    obtain ⟨more, hmore⟩ := Nat.exists_eq_add_of_lt (Nat.sub_pos_of_lt hroom)
    rw [hmore, List.take_succ_cons, List.take_nil]
  next hfull => rw [Nat.sub_eq_zero_of_le (Nat.not_lt.mp hfull), List.take_zero]

/-- The calls of a successful cycle, at a place that writes them down. -/
theorem offerCycle_calls {σ : Type} (sink : Sink σ) (s : σ) :
    ∃ queued log s' calls,
      offerCycle sink topicPrefix ⟨samples, none⟩ s = (queued, log, s') ∧
      offerCycle sink.recorded topicPrefix ⟨samples, none⟩ (s, []) = (queued, log, s', calls) ∧
      calls.map Prod.fst =
        samples.map (sampleOffer topicPrefix) ++ [stateOffer topicPrefix "online"] ∧
      calls.length = samples.length + 1 ∧
      queued = ((calls.take samples.length).map Prod.snd).count true ∧
      log = if queued < samples.length then [droppedEntry queued samples.length] else [] := by
  have hplain := sink.offerCycle_samples topicPrefix samples s
  have hrecorded := sink.recorded.offerCycle_samples topicPrefix samples (s, [])
  simp only [sink.recorded_answers, sink.recorded_offer, List.nil_append] at hplain hrecorded
  generalize hoffers : samples.map (sampleOffer topicPrefix) = offers at *
  generalize hstate : stateOffer topicPrefix "online" = state at *
  have hlength : offers.length = samples.length := by rw [← hoffers, List.length_map]
  have hanswers := sink.length_answers (offers ++ [state]) s
  refine ⟨_, _, _, _, hplain, hrecorded, List.map_fst_zip (Nat.le_of_eq hanswers.symm), ?_, ?_, rfl⟩
  · rw [List.length_zip, hanswers, Nat.min_self, List.length_append, hlength]
    rfl
  · rw [List.map_take, List.map_snd_zip (Nat.le_of_eq hanswers), sink.answers_append,
      ← hlength, ← sink.length_answers offers s, List.take_left]

/-- What a client keeps of a successful cycle. -/
theorem offerCycle_client (c : Client) :
    let n := samples.length
    let free := queueLimit - c.queue.length
    ∃ c' : Client,
      offerCycle Client.place topicPrefix ⟨samples, none⟩ c =
        (min n free, if free < n then [droppedEntry free n] else [], c') ∧
      c'.queue = c.queue ++
        c.messagesOf ((samples.take (min n free)).map (sampleOffer topicPrefix) ++
          if n < free then [stateOffer topicPrefix "online"] else []) := by
  intro n free
  have hcycle := Sink.offerCycle_samples Client.place topicPrefix samples c
  obtain ⟨-, hanswers⟩ := c.place_offers (samples.map (sampleOffer topicPrefix))
  obtain ⟨hqueue, -⟩ := c.place_offers
    (samples.map (sampleOffer topicPrefix) ++ [stateOffer topicPrefix "online"])
  rw [take_cycle] at hqueue
  have hcount : (Sink.answers Client.place (samples.map (sampleOffer topicPrefix)) c).count true =
      min n free := by
    rw [hanswers, List.length_map, List.count_append, List.count_replicate_self,
      List.count_replicate]
    rfl
  have hlog : (if min n free < n then [droppedEntry (min n free) n] else []) =
      if free < n then [droppedEntry free n] else [] := by
    by_cases hcut : free < n
    · rw [Nat.min_eq_right (Nat.le_of_lt hcut), if_pos hcut]
    · rw [Nat.min_eq_left (Nat.not_lt.mp hcut), if_neg hcut, if_neg (Nat.lt_irrefl n)]
  simp only [hcount] at hcycle
  exact ⟨_, hcycle.trans (by rw [← hlog]), hqueue⟩

end Cycle

/-- A cycle is cut to a beginning. At any place that accepts messages as it likes, a successful
cycle makes one call for each sample, in their order, and one for the state, and gives the number
of samples accepted, with a warning if some are not; a failed cycle makes one call. A client keeps
as many samples as there is room for, behind what is in its queue, and the state if there is room
for one message more; of a failed cycle it keeps the state if there is room. -/
theorem offerCycle_cut (topicPrefix : String) (samples : List Metric.Sample) (error : String) :
    (∀ (σ : Type) (sink : Sink σ) (s : σ),
      (∃ queued log s' calls,
        offerCycle sink topicPrefix ⟨samples, none⟩ s = (queued, log, s') ∧
        offerCycle sink.recorded topicPrefix ⟨samples, none⟩ (s, []) = (queued, log, s', calls) ∧
        calls.map Prod.fst =
          samples.map (sampleOffer topicPrefix) ++ [stateOffer topicPrefix "online"] ∧
        calls.length = samples.length + 1 ∧
        queued = ((calls.take samples.length).map Prod.snd).count true ∧
        log = if queued < samples.length then [droppedEntry queued samples.length] else []) ∧
      ∃ s' answer,
        offerCycle sink topicPrefix ⟨samples, some error⟩ s = (0, [], s') ∧
        offerCycle sink.recorded topicPrefix ⟨samples, some error⟩ (s, []) =
          (0, [], s', [(stateOffer topicPrefix "error", answer)])) ∧
    ∀ c : Client,
      let n := samples.length
      let free := queueLimit - c.queue.length
      (∃ c' : Client,
        offerCycle Client.place topicPrefix ⟨samples, none⟩ c =
          (min n free, if free < n then [droppedEntry free n] else [], c') ∧
        c'.queue = c.queue ++
          c.messagesOf ((samples.take (min n free)).map (sampleOffer topicPrefix) ++
            if n < free then [stateOffer topicPrefix "online"] else [])) ∧
      ∃ c' : Client,
        offerCycle Client.place topicPrefix ⟨samples, some error⟩ c = (0, [], c') ∧
        c'.queue = c.queue ++
          c.messagesOf (if 0 < free then [stateOffer topicPrefix "error"] else []) := by
  constructor
  · intro σ sink s
    exact ⟨offerCycle_calls topicPrefix samples sink s, _, _, rfl, rfl⟩
  · intro c n free
    refine ⟨offerCycle_client topicPrefix samples c, _,
      Sink.offerCycle_error Client.place topicPrefix error samples c, ?_⟩
    have hstate : [stateOffer topicPrefix "error"].take free =
        if 0 < free then [stateOffer topicPrefix "error"] else [] := by
      simpa using take_cycle topicPrefix [] free (stateOffer topicPrefix "error")
    rw [(c.place_offers [stateOffer topicPrefix "error"]).1, hstate]

end SupplyGauge.Mqtt
