import SupplyGauge.Proofs.Daemon.Shutdown

/-! # Runs of the daemon that are cut short

A run counts as cancelled only where it has been cut short: the limit has been reached, or turns are
left. No other turn of the daemon ends a run in this way. A run that is interrupted ends otherwise.
-/

namespace SupplyGauge.Daemon.State

/-- Whether a run that has been cancelled has been so at its limit, just now. -/
def CutShort (d : State) : Prop :=
  d.stage = .over .cancelled → ∃ at_, d.client.scene.past.head? = some (at_, .limitReached)

variable {d : State}

theorem CutShort.of_stage (h : d.stage ≠ .over .cancelled) : d.CutShort :=
  fun hover => absurd hover h

theorem finish_stage (d : State) : d.finish.stage ≠ .over .cancelled := by
  unfold finish
  split
  next =>
    dsimp only
    split <;> simp [report, onScene]
  next => simp

theorem stopClient_stage (d : State) : d.stopClient.stage ≠ .over .cancelled := by
  unfold stopClient
  split
  · simp
  · exact finish_stage _

theorem look_stage (d : State) (deadline : Instant) :
    (d.look deadline).stage ≠ .over .cancelled := by
  unfold look
  split
  · simp [serve, report, onScene]
  · split
    · exact stopClient_stage _
    · simp

theorem callerTurn_stage (h : d.stage ≠ .over .cancelled) :
    d.callerTurn.stage ≠ .over .cancelled := by
  unfold callerTurn
  split
  next => exact look_stage _ _
  next => exact look_stage _ _
  next => simp
  next => exact stopClient_stage _
  next => exact finish_stage _
  next => exact h

theorem cycle_stage (d : State) : d.cycle.stage = d.stage := by
  have hwritten : d.writeJournal.stage = d.stage := rfl
  unfold cycle
  dsimp only
  generalize d.writeJournal = written at hwritten ⊢
  generalize written.collector.safeCollect written.paper.files = found
  rcases found with ⟨log, r⟩
  cases r.error with
  | none => exact hwritten
  | some e => exact hwritten

theorem rest_stage (d : State) : d.rest.stage = d.stage := rfl

theorem collectorTurn_stage (d : State) : d.collectorTurn.stage = d.stage := by
  unfold collectorTurn
  dsimp only
  split
  next =>
    split
    · rfl
    · rw [rest_stage, cycle_stage]
      rfl
  next =>
    split
    · rfl
    · rw [rest_stage, cycle_stage]
  next => rfl
  next => rfl

/-- An end from outside leaves a run as it is, or ends it just so. -/
theorem abandon_stage (e : Ending) :
    (d.abandon e).stage = d.stage ∨
      (d.abandon e).stage = .over e ∧ (d.abandon e).client = d.client := by
  unfold abandon
  split
  next => split <;> exact .inl rfl
  next => exact .inr ⟨rfl, rfl⟩

theorem signal_stage (h : d.stage ≠ .over .cancelled) (s : Signal) :
    (d.signal s).stage ≠ .over .cancelled := by
  unfold signal
  split
  · dsimp only
    split <;> exact h
  · split
    · rcases abandon_stage (d := d.noteSignal s true) .interrupted with hsame | ⟨hover, -⟩
      · rw [hsame]
        exact h
      · simp [hover]
    · exact h

theorem meet_stage (h : d.stage ≠ .over .cancelled) (step : Step) :
    (d.meet step).stage ≠ .over .cancelled := by
  cases step with
  | signal s => exact signal_stage h s
  | files changes =>
      have hsame (changes : List (Files.Path × Files.Change)) (d : State) :
          (changes.foldl (fun d change => d.changeFiles change.1 change.2) d).stage = d.stage := by
        induction changes generalizing d with
        | nil => rfl
        | cons change rest ih => exact ih _
      exact (hsame changes d.writeJournal).symm ▸ h

theorem cut_cutShort (h : d.stage ≠ .over .cancelled) : d.cut.CutShort := by
  rcases abandon_stage (d := d.onScene (·.note .limitReached)) .cancelled with hsame | ⟨-, hclient⟩
  · exact .of_stage (hsame.symm ▸ h)
  · exact fun _ => ⟨d.now, congrArg (fun c => c.scene.past.head?) hclient⟩

theorem takeTurn_cutShort (h : d.stage ≠ .over .cancelled) (turn : Turn) :
    (d.takeTurn turn).CutShort := by
  unfold takeTurn
  split
  next => exact .of_stage (callerTurn_stage h)
  next => exact .of_stage ((collectorTurn_stage d).symm ▸ h)
  next =>
    unfold releaseCollector
    split <;> exact .of_stage h
  next =>
    split
    next => exact .of_stage (meet_stage h _)
    next => exact .of_stage h
  next => exact cut_cutShort h
  next => exact .of_stage h

/-- A run is cancelled only at its limit. -/
theorem takeTurns_cutShort (h : d.CutShort) (turns : Nat) : (d.takeTurns turns).CutShort := by
  induction turns generalizing d with
  | zero => exact h
  | succ turns ih =>
      unfold takeTurns
      split
      next => exact h
      next hgoes =>
        split
        next => exact h
        next turn scene hnext =>
          exact ih (takeTurn_cutShort (d := d.onScene fun _ => scene) (hgoes _) turn)

theorem prepare_stage (d : State) (steps : List (Instant × Step)) (limit : Instant) :
    (d.prepare steps limit).stage = d.stage := by
  have htimers (steps : List ((Instant × Step) × Nat)) (d : State) : (steps.foldl
      (fun d step => d.onScene fun s => (s.giveAfter step.1.1 (.outside step.2)).2) d).stage =
        d.stage := by
    induction steps generalizing d with
    | nil => rfl
    | cons step steps ih => exact ih _
  exact htimers steps.zipIdx d

/-- Whether a run has been cut short: it is not over, or the last thing that happened is that its
limit was reached. -/
def Unended (d : State) : Prop :=
  (∀ e, d.stage ≠ .over e) ∨ ∃ at_, d.client.scene.events.getLast? = some (at_, .limitReached)

/-- A run that counts as cancelled has been cut short. -/
theorem run_cancelled {settings : Config.Settings} {digits : String} {journal : Log.Journal}
    {stamp : Log.Stamp} {paper : Log.Paper} {interruptible : Bool} {now : Instant}
    {script : Mqtt.Script}
    (hmake : make settings digits journal stamp paper interruptible { now, script } = .ok d)
    {steps : List (Instant × Step)} {limit : Instant}
    (hcancelled : (d.run steps limit).ending = .cancelled) : (d.run steps limit).Unended := by
  obtain ⟨-, hbeginning, -⟩ := make_client hmake
  have hprepared : (d.prepare steps limit).stage ≠ .over .cancelled := by
    rw [prepare_stage, hbeginning]
    simp
  have hcut := takeTurns_cutShort (.of_stage hprepared) (d.enoughTurns steps limit)
  unfold run Unended at *
  generalize (d.prepare steps limit).takeTurns (d.enoughTurns steps limit) = last at *
  unfold ending at hcancelled
  split at hcancelled
  next e hover =>
    obtain ⟨at_, hlimit⟩ := hcut (hover.trans (congrArg Stage.over hcancelled))
    exact .inr ⟨at_, List.getLast?_reverse.trans hlimit⟩
  next hgoes => exact .inl fun e => hgoes e

end SupplyGauge.Daemon.State
