import SupplyGauge.Proofs.History.Turns
import SupplyGauge.Proofs.Mqtt.Moves

/-! # One loop at a time

A client that is started only while it is not running has at most one loop that is
not over. Its fetch looks for messages only while the loop waits for one, and those
that listen are exactly the listeners. So at most one message is in hand.
-/

namespace SupplyGauge.Mqtt

/-- Whether a fetch looks for a message, or has one. -/
def Fetch.isActive : Fetch → Bool
  | .starting false | .listening | .summoned false | .holding _ => true
  | _ => false

namespace Client

/-- The states of loops and fetches are in order, and only the current loop is not over. -/
structure Orderly (c : Client) : Prop where
  fetching : ∀ i, (c.loop i).fetch.isActive = true → (c.loop i).stand = .awaiting
  listening : ∀ i, i ∈ c.listeners ↔ (c.loop i).fetch = .listening
  nodup : c.listeners.Nodup
  others : ∀ i, c.current ≠ some i → (c.loop i).stand = .over
  bounded : ∀ n, c.current = some n → n < c.loops.size
  unwatched : ∀ i, (c.loop i).stand = .over → (c.loop i).watched = false

variable {c c' : Client} {n : Nat}

theorem loop_setLoop (c : Client) (n : Nat) (d : Delivery) (i : Nat) :
    (c.setLoop n d).loop i = if i = n ∧ n < c.loops.size then d else c.loop i := by
  simp only [loop, setLoop, Array.getElem?_setIfInBounds]
  by_cases hi : i = n
  · subst hi
    by_cases hsize : i < c.loops.size
    · simp [hsize]
    · simp [hsize]
  · simp [hi, Ne.symm hi]

theorem loop_setLoop_self (d : Delivery) (hn : n < c.loops.size) : (c.setLoop n d).loop n = d := by
  simp [loop_setLoop, hn]

/-- A loop that does not exist is over, and nothing fetches for it. -/
theorem loop_of_size_le (hn : c.loops.size ≤ n) : c.loop n = { stand := .over } := by
  simp [loop, hn]

theorem Orderly.congr (h : c.Orderly) (hloops : c'.loops = c.loops)
    (hlisteners : c'.listeners = c.listeners) (hcurrent : c'.current = c.current) : c'.Orderly := by
  have hloop (i : Nat) : c'.loop i = c.loop i := by rw [loop, loop, hloops]
  constructor
  · simpa only [hloop] using h.fetching
  · simpa only [hloop, hlisteners] using h.listening
  · exact hlisteners ▸ h.nodup
  · simpa only [hloop, hcurrent] using h.others
  · simpa only [hloops, hcurrent] using h.bounded
  · simpa only [hloop] using h.unwatched

theorem Orderly.inactive (h : c.Orderly) (hstand : (c.loop n).stand ≠ .awaiting) :
    (c.loop n).fetch.isActive = false :=
  Bool.eq_false_iff.mpr fun hactive => hstand (h.fetching n hactive)

theorem message?_of_inactive {f : Fetch} (hf : f.isActive = false) : f.message? = none := by
  cases f <;> simp_all [Fetch.isActive, Fetch.message?]

/-- The number of turns to come that are the caller's. -/
def callerTurns (c : Client) : Nat := c.scene.schedule.turns.countP Turn.isCallers

@[simp] theorem give_callerTurns (c : Client) (turn : Turn) :
    (c.give turn).callerTurns = c.callerTurns + if turn.isCallers then 1 else 0 := by
  rw [callerTurns, callerTurns, ← List.countP_cons]
  exact (c.scene.schedule.give_turns_perm turn).countP_eq _

/-- From one client to the next, loop `n` comes into a state, and no other loop is touched. The
caller gets a turn for its wait for the loop, and only for that. -/
structure Changes (c : Client) (n : Nat) (c' : Client) (d : Delivery) : Prop where
  loops : c'.loops = c.loops.setIfInBounds n d
  current : c'.current = c.current
  running : c'.running = c.running
  accepted : c'.accepted = c.accepted
  callerTurns : c'.callerTurns + d.watched.toNat = c.callerTurns + (c.loop n).watched.toNat

/-- A change that leaves the listeners alone. -/
structure Leaves (c : Client) (n : Nat) (c' : Client) (d : Delivery) : Prop
    extends Changes c n c' d where
  listeners : c'.listeners = c.listeners

theorem Changes.loop_self {d : Delivery} (h : Changes c n c' d) (hn : n < c.loops.size) :
    c'.loop n = d := by
  simp [loop, h.loops, hn]

theorem Changes.loop_of_ne {d : Delivery} {i : Nat} (h : Changes c n c' d) (hi : i ≠ n) :
    c'.loop i = c.loop i := by
  rw [loop, h.loops, Array.getElem?_setIfInBounds_ne (Ne.symm hi), loop]

theorem Changes.size {d : Delivery} (h : Changes c n c' d) : c'.loops.size = c.loops.size := by
  simp [h.loops]

theorem Leaves.trans {c'' : Client} {d d' : Delivery} (h : Leaves c n c' d)
    (h' : Leaves c' n c'' d') (hn : n < c.loops.size) : Leaves c n c'' d' := by
  refine ⟨⟨?_, h'.current.trans h.current, h'.running.trans h.running,
    h'.accepted.trans h.accepted, ?_⟩, h'.listeners.trans h.listeners⟩
  · rw [h'.loops, h.loops, Array.setIfInBounds_setIfInBounds]
  · rw [h'.callerTurns, h.loop_self hn, h.callerTurns]

abbrev Spares (c : Client) (n : Nat) (c' : Client) : Prop := Leaves c n c' (c.loop n)

theorem Spares.trans {c'' : Client} (h : Spares c n c') (h' : Spares c' n c'')
    (hn : n < c.loops.size) : Spares c n c'' := by
  have hthen := Leaves.trans h h' hn
  rwa [h.loop_self hn] at hthen

theorem setIfInBounds_loop (c : Client) (n : Nat) :
    c.loops.setIfInBounds n (c.loop n) = c.loops := by
  apply Array.ext_getElem?
  intro i
  by_cases hi : i = n
  · subst hi
    by_cases hsize : i < c.loops.size <;> simp [loop, hsize]
  · rw [Array.getElem?_setIfInBounds_ne (Ne.symm hi)]

theorem Spares.loops_eq (h : Spares c n c') : c'.loops = c.loops :=
  h.loops.trans (c.setIfInBounds_loop n)

theorem Spares.callerTurns_eq (h : Spares c n c') : c'.callerTurns = c.callerTurns :=
  Nat.add_right_cancel h.callerTurns

/-- What does not concern loops leaves every loop as it is. -/
theorem spares_of_eq (c : Client) (n : Nat) (c' : Client) (hloops : c'.loops = c.loops)
    (hlisteners : c'.listeners = c.listeners) (hcurrent : c'.current = c.current)
    (hrunning : c'.running = c.running) (haccepted : c'.accepted = c.accepted)
    (hturns : c'.callerTurns = c.callerTurns) : Spares c n c' := by
  refine ⟨⟨?_, hcurrent, hrunning, haccepted, by rw [hturns]⟩, hlisteners⟩
  rw [hloops, setIfInBounds_loop]

theorem Leaves.setLoop {d : Delivery} (h : Leaves c n c' d) (d' : Delivery)
    (hwatched : d'.watched = d.watched) : Leaves c n (c'.setLoop n d') d' :=
  ⟨⟨by simp [Client.setLoop, h.loops], h.current, h.running, h.accepted,
    hwatched ▸ h.callerTurns⟩, h.listeners⟩

theorem Leaves.give {d : Delivery} (h : Leaves c n c' d) (turn : Turn)
    (hturn : turn.isCallers = false) : Leaves c n (c'.give turn) d :=
  ⟨⟨h.loops, h.current, h.running, h.accepted, by simpa [hturn] using h.callerTurns⟩, h.listeners⟩

theorem report_spares (c : Client) (n : Nat) (severity : Log.Severity) (message : String) :
    Spares c n (c.report severity message) :=
  spares_of_eq c n (c.report severity message) rfl rfl rfl rfl rfl rfl

theorem perform_spares {call : Call} {answer : Option Refusal}
    (hcall : c.perform call = (answer, c')) (n : Nat) : Spares c n c' := by
  obtain ⟨-, rfl⟩ := Prod.mk.inj hcall
  exact spares_of_eq c n _ rfl rfl rfl rfl rfl rfl

theorem connect_spares (c : Client) (n : Nat) : Spares c n c.connect.2 := by
  unfold connect
  split
  · exact spares_of_eq c n c rfl rfl rfl rfl rfl rfl
  · exact spares_of_eq c n c rfl rfl rfl rfl rfl rfl
  · dsimp only
    split
    next henter =>
      obtain ⟨-, rfl⟩ := Prod.mk.inj henter
      exact spares_of_eq c n _ rfl rfl rfl rfl rfl rfl
    next henter =>
      obtain ⟨-, rfl⟩ := Prod.mk.inj henter
      split
      all_goals
        next hannounce =>
          obtain ⟨-, rfl⟩ := Prod.mk.inj hannounce
          exact spares_of_eq c n _ rfl rfl rfl rfl rfl rfl

theorem farewell_spares (c : Client) (n : Nat) : Spares c n c.farewell.2 := by
  unfold farewell
  split
  next hannounce =>
    exact perform_spares hannounce n
  next hannounce =>
    obtain ⟨-, rfl⟩ := Prod.mk.inj hannounce
    exact spares_of_eq c n _ rfl rfl rfl rfl rfl rfl

theorem disconnect_spares (c : Client) (n : Nat) : Spares c n c.disconnect.2 := by
  unfold disconnect
  split
  · have hfarewell := c.farewell_spares n
    split
    all_goals
      next hleft =>
        rw [hleft] at hfarewell
        exact ⟨⟨hfarewell.loops, hfarewell.current, hfarewell.running, hfarewell.accepted,
          hfarewell.callerTurns⟩, hfarewell.listeners⟩
  · exact spares_of_eq c n c rfl rfl rfl rfl rfl rfl

theorem finishStop_spares (c : Client) (n : Nat) :
    Spares { c with current := none } n c.finishStop.2 := by
  have hdisconnect := disconnect_spares { c with current := none } n
  unfold finishStop
  split
  all_goals
    next hended =>
      rw [hended] at hdisconnect
      exact ⟨⟨hdisconnect.loops, hdisconnect.current, hdisconnect.running, hdisconnect.accepted,
        hdisconnect.callerTurns⟩, hdisconnect.listeners⟩

theorem giveAfter_callerTurns (c : Client) (seconds : Instant) (turn : Turn) :
    callerTurns { c with scene := (c.scene.giveAfter seconds turn).2 } =
      c.callerTurns + if turn.isCallers then 1 else 0 := by
  rw [callerTurns, callerTurns, ← List.countP_cons]
  exact (c.scene.schedule.setTimer_turns_perm _ turn).countP_eq _

theorem finishLoop_leaves (c : Client) (n : Nat) :
    Leaves c n (c.finishLoop n) { c.loop n with stand := .over, watched := false } := by
  dsimp only [finishLoop]
  split
  next hwatched =>
    refine ⟨⟨rfl, rfl, rfl, rfl, ?_⟩, rfl⟩
    rw [give_callerTurns, hwatched]
    rfl
  next hwatched =>
    refine ⟨⟨rfl, rfl, rfl, rfl, ?_⟩, rfl⟩
    rw [Bool.not_eq_true] at hwatched
    rw [hwatched]
    rfl

/-- A wait is one more, and has the timer that is set next. -/
theorem beginWait_leaves (c : Client) (n : Nat) (stand : Stand) (seconds : Nat) :
    Leaves c n (c.beginWait n stand seconds)
      { c.loop n with
        stand
        wait := (c.loop n).wait + 1
        timer := c.scene.schedule.timers.made } :=
  ⟨⟨rfl, rfl, rfl, rfl, congrArg (· + (c.loop n).watched.toNat)
    (giveAfter_callerTurns c (.ofInt seconds) (.release (.delivery n) ((c.loop n).wait + 1)))⟩, rfl⟩

theorem awaitMessage_leaves (c : Client) (n : Nat) (hn : n < c.loops.size) :
    Leaves c n (c.awaitMessage n)
      { c.loop n with
        stand := .awaiting
        fetch := .starting false
        wait := (c.loop n).wait + 1
        timer := c.scene.schedule.timers.made } := by
  have hwait := c.beginWait_leaves n .awaiting 1
  rw [awaitMessage, hwait.loop_self hn]
  refine (hwait.setLoop { c.loop n with
    stand := .awaiting
    fetch := .starting false
    wait := (c.loop n).wait + 1
    timer := c.scene.schedule.timers.made } rfl).give (.goOn (.fetch n)) rfl

/-- How a pass leaves a loop: over if the client is to stop, waiting for a message if there is a
session, and else pausing. -/
inductive Rest (d : Delivery) (running connected : Bool) : Delivery → Prop
  | ended (hrunning : running = false) :
      Rest d running connected { d with stand := .over, watched := false }
  | awaiting (backoff wait timer : Nat) (hconnected : connected = true) :
      Rest d running connected
        { d with stand := .awaiting, fetch := .starting false, backoff, wait, timer }
  | pausing (backoff wait timer : Nat) :
      Rest d running connected { d with stand := .pausing, backoff, wait, timer }

/-- A transition leaves the loop at rest and no other loop touched. -/
def Rests (c : Client) (n : Nat) (c' : Client) : Prop :=
  ∃ d, Leaves c n c' d ∧ Rest (c.loop n) c.running c'.connected d

theorem Spares.rests {c'' : Client} (h : Spares c n c') (hn : n < c.loops.size)
    (hlast : n < c'.loops.size → Rests c' n c'') : Rests c n c'' := by
  obtain ⟨d, hleaves, hrest⟩ := hlast (h.size ▸ hn)
  rw [h.loop_self hn, h.running] at hrest
  exact ⟨d, Leaves.trans h hleaves hn, hrest⟩

theorem penalize_rests (c : Client) (n : Nat) (e : ClientError) (hn : n < c.loops.size) :
    Rests c n (c.penalize n e) := by
  have hlost : Spares c n { c.report .error s!"Publisher loop error: {e.message}" with
      connected := false } := spares_of_eq c n _ rfl rfl rfl rfl rfl rfl
  refine hlost.rests hn fun _ => ?_
  exact ⟨_, beginWait_leaves _ n .pausing 1, .pausing (c.loop n).backoff _ _⟩

theorem backOff_rests (c : Client) (n : Nat) (message : String) (hn : n < c.loops.size) :
    Rests c n (c.backOff n message) := by
  have hreport := c.report_spares n .error s!"Failed to connect to MQTT: {message}"
  have hdouble := hreport.setLoop
    { c.loop n with backoff := min ((c.loop n).backoff * 2) longestBackoff } rfl
  have hwait := beginWait_leaves
    ((c.report .error s!"Failed to connect to MQTT: {message}").setLoop n
      { c.loop n with backoff := min ((c.loop n).backoff * 2) longestBackoff }) n .pausing
    (c.loop n).backoff
  rw [hdouble.loop_self hn] at hwait
  exact ⟨_, hdouble.trans hwait hn, .pausing _ _ _⟩

theorem connect_connected (hconnect : c.connect = (.ok (), c')) : c'.connected = true := by
  have hconnecting := c.connect_connecting [] []
  rw [hconnect] at hconnecting
  dsimp only at hconnecting
  generalize hl : c'.ledger [] [] = l at hconnecting
  cases hconnecting with
  | done e e' => exact congrArg Ledger.connected hl

theorem pass_rests (c : Client) (n : Nat) (hn : n < c.loops.size) : Rests c n (c.pass n) := by
  unfold pass
  split
  next hrunning =>
    split
    next hconnected =>
      exact ⟨_, c.awaitMessage_leaves n hn, .awaiting _ _ _ hconnected⟩
    next =>
      have hconnect := c.connect_spares n
      split
      next c' hok =>
        rw [hok] at hconnect
        have hreset := hconnect.setLoop { c.loop n with backoff := firstBackoff } rfl
        have hwait := awaitMessage_leaves (c'.setLoop n
          { c.loop n with backoff := firstBackoff }) n (hreset.size ▸ hn)
        rw [hreset.loop_self hn] at hwait
        rw [hconnect.loop_self hn]
        have hconnected : c'.connected = true := connect_connected hok
        exact ⟨_, hreset.trans hwait hn, .awaiting _ _ _ hconnected⟩
      next message c' hrefused =>
        rw [hrefused] at hconnect
        exact hconnect.rests hn (c'.backOff_rests n message)
      next e c' _ herror =>
        rw [herror] at hconnect
        exact hconnect.rests hn (c'.penalize_rests n e)
  next hrunning => exact ⟨_, c.finishLoop_leaves n, .ended (Bool.eq_false_iff.mpr hrunning)⟩

/-- If nobody listens, putting a message back leaves the loops alone. -/
theorem requeue_spares (c : Client) (n : Nat) (m : Message) (hlisteners : c.listeners = []) :
    Spares c n (c.requeue m) := by
  unfold requeue enqueue
  by_cases hroom : c.queue.length < queueLimit
  · simp only [if_pos hroom, callListener, hlisteners]
    exact spares_of_eq c n _ rfl hlisteners.symm rfl rfl rfl rfl
  · simp only [if_neg hroom]
    exact spares_of_eq c n _ rfl rfl rfl rfl rfl rfl

theorem deliver_rests (c : Client) (n : Nat) (m : Message) (hn : n < c.loops.size)
    (hlisteners : c.listeners = []) : Rests c n (c.deliver n m) := by
  unfold deliver
  dsimp only
  generalize hreport : c.report .debug _ = reported
  have hreported : Spares c n reported := by
    rw [← hreport]
    exact c.report_spares n .debug _
  refine hreported.rests hn fun hn => ?_
  replace hlisteners := hreported.listeners.trans hlisteners
  split
  · split
    next c' hcall => exact (perform_spares hcall n).rests hn (c'.pass_rests n)
    next message c' hcall =>
      -- the message is put back before the next pass; with no listeners, no fetch is called
      have hcalled := perform_spares hcall n
      have hdetach := spares_of_eq c' n (c'.report .error s!"MQTT error: {message}").detach
        rfl rfl rfl rfl rfl rfl
      have hrequeue := requeue_spares (c'.report .error s!"MQTT error: {message}").detach n m
        (hcalled.listeners.trans hlisteners)
      refine hcalled.rests hn fun hn => ?_
      exact (hdetach.trans hrequeue hn).rests hn (pass_rests _ n)
    next r c' _ hcall =>
      refine (perform_spares hcall n).rests hn fun hn => ?_
      have hnote := spares_of_eq c' n (c'.note (.dropped m)) rfl rfl rfl rfl rfl rfl
      exact hnote.rests hn (penalize_rests _ n _)
  · have hnote := spares_of_eq reported n (reported.note (.dropped m)) rfl rfl rfl rfl rfl rfl
    exact hnote.rests hn (penalize_rests _ n _)

end Client

end SupplyGauge.Mqtt
