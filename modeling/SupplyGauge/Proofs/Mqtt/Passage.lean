import SupplyGauge.Mqtt.Passage
import SupplyGauge.Proofs.Mqtt.Course

/-! # Letting time pass is a run

A caller that waits takes no part in what happens until its turn comes. The turns that
are taken meanwhile are deeds of a course, so what holds of every run holds after every
wait, and after the client has been stopped.
-/

namespace SupplyGauge.Mqtt

namespace Client

/-- A client that is made at the beginning of a scene is a fresh one. -/
theorem make_eq_fresh {settings : Config.MqttSettings} {topic : Option String} {digits : String}
    {now : Instant} {script : Script} {c : Client}
    (hmake : make settings topic digits { now, script } = .ok c) :
    c = fresh settings c.availabilityTopic c.identifier now script := by
  unfold make at hmake
  split at hmake
  · obtain rfl := Except.ok.inj hmake
    rfl
  · rcases htopic : Mqtt.availabilityTopic settings.topicPrefix with fault | topic
    · rw [htopic] at hmake
      contradiction
    · rw [htopic] at hmake
      obtain rfl := Except.ok.inj hmake
      rfl

end Client

namespace Course

theorem run_replicate_succ (p : Course) (turns : Nat) :
    p.run (List.replicate (turns + 1) .goOn) = p.goOn.run (List.replicate turns .goOn) := rfl

theorem goOn_of_turn {p : Course} {turn : Turn} {scene : Scene}
    (hnext : p.client.scene.next? = some (turn, scene)) (hcaller : turn ≠ .goOn .caller) :
    p.goOn = { p with client := { p.client with scene }.takeTurn turn } := by
  unfold goOn
  rw [hnext]
  split
  next => contradiction
  next hsame =>
    obtain ⟨rfl, -⟩ := Prod.mk.inj (Option.some.inj hsame)
    exact absurd rfl hcaller
  next hsame =>
    obtain ⟨rfl, rfl⟩ := Prod.mk.inj (Option.some.inj hsame)
    rfl

/-- The turns until the caller's own one are deeds of a course. With the caller's turn, what it
waits for is completed. -/
theorem untilCaller_eq_run (fuel : Nat) (c : Client) (conduct : Conduct) (offered : List Message) :
    ∃ turns,
      (⟨c, conduct, offered⟩ : Course).run (List.replicate turns .goOn) =
          ⟨c.untilCaller fuel, conduct, offered⟩ ∨
        (⟨c, conduct, offered⟩ : Course).run (List.replicate turns .goOn) =
          (⟨c.untilCaller fuel, conduct, offered⟩ : Course).resume := by
  induction fuel generalizing c with
  | zero => exact ⟨0, .inl rfl⟩
  | succ fuel ih =>
      unfold Client.untilCaller
      split
      next => exact ⟨0, .inl rfl⟩
      next scene hnext =>
        refine ⟨1, .inr ?_⟩
        rw [run_replicate_succ, goOn, hnext]
        rfl
      next turn scene hcaller hnext =>
        obtain ⟨turns, hturns⟩ := ih ({ c with scene }.takeTurn turn)
        refine ⟨turns + 1, ?_⟩
        rw [run_replicate_succ, goOn_of_turn hnext hcaller]
        exact hturns

/-- A caller that is away and has been called back waits for its turn. -/
theorem call_eq_run (c : Client) (offered : List Message) (after : Option Instant) {turn : Turn}
    (hturn : turn.isCallers = true) (fuel : Nat) :
    ∃ deeds, (∀ deed ∈ deeds, deed.leavesSessions = true) ∧
      ((⟨c, .acting, offered⟩ : Course).run deeds).client =
        Client.untilCaller fuel { c with scene := c.scene.lend after turn } := by
  obtain ⟨turns, hturns⟩ :=
    untilCaller_eq_run fuel { c with scene := c.scene.lend after turn } .called offered
  have hcall : (⟨c, .acting, offered⟩ : Course).run
      (.leave :: .call after turn :: List.replicate turns .goOn) =
        (⟨{ c with scene := c.scene.lend after turn }, .called, offered⟩ : Course).run
          (List.replicate turns .goOn) := by
    simp [run, act, hturn]
  refine ⟨.leave :: .call after turn :: List.replicate turns .goOn, ?_, ?_⟩
  · intro deed hdeed
    simp only [List.mem_cons, List.mem_replicate] at hdeed
    rcases hdeed with rfl | rfl | ⟨-, rfl⟩ <;> rfl
  · rw [hcall]
    rcases hturns with hturns | hturns
    · rw [hturns]
    · rw [hturns]
      rfl

/-- A wait of the caller is a run. -/
theorem elapse_eq_run (c : Client) (offered : List Message) (seconds : Instant) :
    ∃ deeds, (∀ deed ∈ deeds, deed.leavesSessions = true) ∧
      ((⟨c, .acting, offered⟩ : Course).run deeds).client = c.elapse seconds := by
  unfold Client.elapse
  split
  · exact call_eq_run c offered none rfl _
  · exact call_eq_run c offered (some seconds) rfl _

/-- Stopping a client is a run, and completed with the caller's turn. -/
theorem stop_eq_run (c : Client) (offered : List Message) :
    ∃ deeds, (∀ deed ∈ deeds, deed.leavesSessions = true) ∧
      (((⟨c, .acting, offered⟩ : Course).run deeds).client = c.stop.2 ∨
        ((⟨c, .acting, offered⟩ : Course).run deeds).conduct = .stopping ∧
          ((⟨c, .acting, offered⟩ : Course).run deeds).client.finishStop.2 = c.stop.2) := by
  rcases hbegin : c.beginStop with ⟨_ | _, c'⟩
  · refine ⟨[.stop], by simp [Deed.leavesSessions], .inl ?_⟩
    simp [run, act, stop, Client.stop, hbegin]
  · obtain ⟨turns, hturns⟩ := untilCaller_eq_run (c'.enoughTurns 2) c' .stopping offered
    have hstop : (⟨c, .acting, offered⟩ : Course).run (.stop :: List.replicate turns .goOn) =
        (⟨c', .stopping, offered⟩ : Course).run (List.replicate turns .goOn) := by
      simp [run, act, stop, hbegin]
    refine ⟨.stop :: List.replicate turns .goOn, ?_, ?_⟩
    · intro deed hdeed
      simp only [List.mem_cons, List.mem_replicate] at hdeed
      rcases hdeed with rfl | ⟨-, rfl⟩ <;> rfl
    · rw [hstop, Client.stop, hbegin]
      rcases hturns with hturns | hturns
      · exact .inr ⟨by rw [hturns], by rw [hturns]⟩
      · exact .inl (by rw [hturns]; rfl)

end Course

end SupplyGauge.Mqtt
