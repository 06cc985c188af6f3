import SupplyGauge.Proofs.Mqtt.Endurance

/-! # What a stop leaves behind

A stop tells the loop to end and waits for its end, whatever the loop is doing. Once
the loop is over the session is left, which announces at most once that the client
goes. A client that is stopped makes no calls, whatever turns are still to come, until
it is started again or connected by hand.
-/

namespace SupplyGauge

/-- The call that an event is, with its answer. -/
def Event.call? : Event → Option (Mqtt.Call × Option Mqtt.Refusal)
  | .called call answer => some (call, answer)
  | _ => none

namespace Mqtt

/-- The calls by which a client leaves its session: none if there is no session. Otherwise the
client announces that it goes, and leaves if the announcement is not refused. -/
inductive Parting (offline : Publication) : Bool → List (Call × Option Refusal) → Prop
  | absent : Parting offline false []
  | refused (r : Refusal) : Parting offline true [(.announce offline, some r)]
  | left (answer : Option Refusal) :
      Parting offline true [(.announce offline, none), (.leave, answer)]

theorem Parting.eq_nil {offline : Publication} {told : List (Call × Option Refusal)}
    (hparting : Parting offline false told) : told = [] := by
  cases hparting
  rfl

namespace Client

/-- The calls of a client to the broker, in order, with their answers. -/
def calls (c : Client) : List (Call × Option Refusal) := c.events.filterMap Event.call?

/-- A client that is stopped is not to run, has no current loop, no loop that is not over, and no
session. -/
structure Stopped (c : Client) : Prop where
  running : c.running = false
  current : c.current = none
  ended : ∀ i, (c.loop i).stand = .over
  connected : c.connected = false

variable {c c' : Client} {n : Nat}

/-- Time comes to a turn, and nothing else happens. -/
theorem ledger_of_past {scene : Scene} (hc : c' = { c with scene })
    (hpast : scene.past = c.scene.past) : c'.ledger [] [] = c.ledger [] [] := by
  subst hc
  unfold ledger
  rw [hpast]
  rfl

theorem events_of_ledger (hledger : c'.ledger [] [] = c.ledger [] []) : c'.events = c.events := by
  rw [← ledger_events c' [] [], hledger, ledger_events]

theorem calls_of_ledger (hledger : c'.ledger [] [] = c.ledger [] []) : c'.calls = c.calls := by
  rw [calls, events_of_ledger hledger, calls]

@[simp] theorem note_events (c : Client) (e : Event) : (c.note e).events = c.events ++ [e] := by
  simp [Client.events, note, Scene.note, Scene.events]

theorem note_calls (c : Client) {e : Event} (he : e.call? = none) :
    (c.note e).calls = c.calls := by
  simp [calls, he]

theorem perform_calls {call : Call} {answer : Option Refusal}
    (hcall : c.perform call = (answer, c')) : c'.calls = c.calls ++ [(call, answer)] := by
  have hledger := perform_ledger [] [] hcall
  rw [calls, ← ledger_events c' [] [], hledger, Ledger.events_note, ledger_events,
    List.filterMap_append]
  rfl

@[simp] theorem detach_calls (c : Client) : c.detach.calls = c.calls := rfl

@[simp] theorem report_calls (c : Client) (severity : Log.Severity) (message : String) :
    (c.report severity message).calls = c.calls :=
  c.note_calls (e := .reported (Log.note severity component message)) rfl

theorem farewell_calls (c : Client) :
    ∃ told, c.farewell.2.calls = c.calls ++ told ∧
      Parting (c.availability "offline") true told := by
  unfold farewell
  split
  next r c' hannounce => exact ⟨_, perform_calls hannounce, .refused r⟩
  next c' hannounce =>
    rcases hleave : c'.perform .leave with ⟨answer, left⟩
    refine ⟨_, ?_, .left answer⟩
    rw [perform_calls hleave, perform_calls hannounce, List.append_assoc]
    rfl

/-- Ending a session is all that disconnecting tells the broker. -/
theorem disconnect_calls (hattached : c.connected = true → c.attached = true) :
    ∃ told, c.disconnect.2.calls = c.calls ++ told ∧
      Parting (c.availability "offline") c.connected told := by
  unfold disconnect
  split
  next hsession =>
    obtain ⟨-, hconnected⟩ := Bool.and_eq_true_iff.mp hsession
    have hfarewell := c.farewell_calls
    rw [hconnected]
    split
    all_goals
      next hleft =>
        rw [hleft] at hfarewell
        simpa using hfarewell
  next hsession =>
    rw [Bool.and_eq_true, not_and] at hsession
    have hconnected : c.connected = false :=
      Bool.eq_false_iff.mpr fun hconnected => hsession (hattached hconnected) hconnected
    rw [hconnected]
    exact ⟨[], (List.append_nil _).symm, .absent⟩

theorem finishStop_calls (hattached : c.connected = true → c.attached = true) :
    ∃ told, c.finishStop.2.calls = c.calls ++ told ∧
      Parting (c.availability "offline") c.connected told := by
  have hdisconnect : ∃ told, ({ c with current := none }.disconnect).2.calls = c.calls ++ told ∧
      Parting (c.availability "offline") c.connected told := disconnect_calls hattached
  unfold finishStop
  split
  all_goals
    next hended =>
      rw [hended] at hdisconnect
      simpa using hdisconnect

/-- Once its loops are over, a client that is not to run stops. -/
theorem finishStop_stopped (hrunning : c.running = false) (hover : ∀ i, (c.loop i).stand = .over)
    (hattached : c.connected = true → c.attached = true) : c.finishStop.2.Stopped := by
  have hspares := c.finishStop_spares 0
  refine ⟨hspares.running.trans hrunning, hspares.current, fun i => ?_,
    c.finishStop_connected hattached⟩
  rw [loop, hspares.loops_eq]
  exact hover i

/-- Stopping a client that is stopped changes nothing that the broker sees. -/
theorem Stopped.finishStop (h : c.Stopped) :
    c.finishStop.2.Stopped ∧ c.finishStop.2.calls = c.calls := by
  have hattached : c.connected = true → c.attached = true := by
    rw [h.connected]
    exact fun hconnected => by contradiction
  obtain ⟨told, hcalls, hparting⟩ := finishStop_calls hattached
  rw [h.connected] at hparting
  rw [hparting.eq_nil, List.append_nil] at hcalls
  exact ⟨finishStop_stopped h.running h.ended hattached, hcalls⟩

theorem Stopped.congr (h : c.Stopped) (hloops : c'.loops = c.loops)
    (hrunning : c'.running = c.running) (hcurrent : c'.current = c.current)
    (hconnected : c'.connected = c.connected) : c'.Stopped where
  running := hrunning.trans h.running
  current := hcurrent.trans h.current
  ended i := by
    rw [loop, hloops]
    exact h.ended i
  connected := hconnected.trans h.connected

/-- What lets no loop begin again and opens no session keeps a client stopped. -/
theorem Stopped.keeps (h : c.Stopped) (hkeeps : Keeps c c') (hrunning : c'.running = c.running)
    (hconnected : c'.connected = c.connected) : c'.Stopped where
  running := hrunning.trans h.running
  current := hkeeps.current.trans h.current
  ended i := by
    by_contra hstand
    exact (hkeeps.watched i hstand).1 (h.ended i)
  connected := hconnected.trans h.connected

theorem cancelLoop_quiet (c : Client) (n : Nat) :
    (c.cancelLoop n).running = c.running ∧ (c.cancelLoop n).ledger [] [] = c.ledger [] [] := by
  unfold cancelLoop
  dsimp only
  split
  · exact ⟨rfl, rfl⟩
  · split <;> exact ⟨rfl, rfl⟩

/-- Beginning to stop is nothing that the broker sees. -/
theorem beginStop_quiet (c : Client) :
    c.beginStop.2.running = false ∧ c.beginStop.2.ledger [] [] = c.ledger [] [] := by
  unfold beginStop
  dsimp only
  split
  next => exact ⟨rfl, rfl⟩
  next n _ =>
    have hcancel := cancelLoop_quiet { c with running := false } n
    split
    · exact hcancel
    · exact hcancel

/-- A client that begins to stop is not to run, and if it is connected it still has its session. -/
theorem Orderly.beginStop_quits (h : c.Orderly)
    (hattached : c.connected = true → c.attached = true) :
    ∃ c', Advances True c c' ∧ c'.running = false ∧
      (c'.connected = true → c'.attached = true) ∧
      (c.beginStop = (false, c') ∧ (∀ i, (c'.loop i).stand = .over) ∨
        ∃ n, c'.current = some n ∧ (c'.loop n).stand ≠ .over ∧
          c.beginStop = (true, c'.setLoop n { c'.loop n with watched := true })) := by
  obtain ⟨c', hadvances, hcases⟩ : ∃ c', Advances True c c' ∧ _ := h.beginStop_cases
  have hrunning : c'.running = false := by
    have hquiet := c.beginStop_quiet.1
    rcases hcases with ⟨hbegin, -⟩ | ⟨n, -, -, hbegin⟩
    all_goals
      rw [hbegin] at hquiet
      exact hquiet
  exact ⟨c', hadvances, hrunning,
    Ledger.Moves.attached (hadvances.moves (.inl trivial) []) hattached, hcases⟩

/-- A turn of the loops of a client whose loops are all over. -/
theorem takeTurn_idle (h : c.Orderly) (hover : ∀ i, (c.loop i).stand = .over) (turn : Turn) :
    (c.takeTurn turn).ledger [] [] = c.ledger [] [] := by
  unfold takeTurn
  split
  next n =>
    unfold deliveryTurn
    dsimp only
    rw [hover n]
    rfl
  next n =>
    have hinactive := h.inactive (n := n) (by rw [hover n]; decide)
    unfold fetchTurn
    split
    next hfetch => simp [hfetch, Fetch.isActive] at hinactive
    next hfetch => simp [hfetch, Fetch.isActive] at hinactive
    next =>
      rw [finishFetch_ledger]
      split
      · rfl
      · exact c.callListener_ledger [] []
    next => exact c.finishFetch_ledger [] [] n .gone
    next => exact c.finishFetch_ledger [] [] n .gone
    next => rfl
  next n wait =>
    unfold releaseLoop
    dsimp only
    rw [hover n]
  next => rfl
  next => rfl

theorem Stopped.takeTurn (h : c.Stopped) (horderly : c.Orderly) (turn : Turn) :
    (c.takeTurn turn).Stopped := by
  by_cases hturn : turn.isCallers = true
  · unfold Turn.isCallers at hturn
    split at hturn
    · exact h
    · exact h.congr rfl rfl rfl rfl
    · contradiction
  · have hadvances : Advances True c (c.takeTurn turn) :=
      takeTurn_advances horderly (Bool.not_eq_true _ ▸ hturn)
    exact h.keeps hadvances.toKeeps (c.takeTurn_endures turn).running
      (congrArg Ledger.connected (takeTurn_idle horderly h.ended turn))

/-- Putting a message in the queue is nothing that the broker sees. -/
theorem enqueue_quiet {m : Message} (hqueued : c.enqueue m = some c') :
    c'.calls = c.calls ∧ c'.connected = c.connected ∧ c'.attached = c.attached := by
  unfold enqueue at hqueued
  split at hqueued
  next =>
    obtain rfl := Option.some.inj hqueued
    have hcalled := callListener_ledger { c with queue := c.queue ++ [m] } [] []
    have hcalls : calls _ = calls { c with queue := c.queue ++ [m] } := calls_of_ledger hcalled
    exact ⟨hcalls, congrArg Ledger.connected hcalled,
      congrArg Ledger.attached hcalled⟩
  next => contradiction

theorem publish_quiet (c : Client) (topic : String) (payload : Payload) (retain : Option Bool) :
    (c.publish topic payload retain).2.calls = c.calls ∧
      (c.publish topic payload retain).2.connected = c.connected ∧
      (c.publish topic payload retain).2.attached = c.attached := by
  unfold Client.publish
  dsimp only
  split
  next c' hqueued =>
    obtain ⟨hcalls, hconnected, hattached⟩ := enqueue_quiet hqueued
    exact ⟨(note_calls _ rfl).trans hcalls, hconnected, hattached⟩
  next => exact ⟨c.report_calls _ _, rfl, rfl⟩

theorem errand_calls (c : Client) (e : Errand) :
    calls { c with scene := e.perform c.scene } = c.calls := by
  unfold Errand.perform
  split
  next entry => exact c.note_calls (e := .reported entry) rfl
  next event _ =>
    split
    next hremark => exact c.note_calls (by cases event <;> first | rfl | contradiction)
    next => rfl
  next => rfl
  next after turn =>
    split
    next => cases after <;> rfl
    next => rfl
  next => split <;> rfl

end Client

end Mqtt

end SupplyGauge
