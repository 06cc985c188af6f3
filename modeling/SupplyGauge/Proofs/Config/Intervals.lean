import SupplyGauge.Daemon.State
import SupplyGauge.Proofs.Config.Derivation
import SupplyGauge.Proofs.Config.Typing
import SupplyGauge.Proofs.History.Moments
import SupplyGauge.Proofs.Number.Undefined

/-! # Intervals between cycles

The interval between two cycles is checked where settings are made: one that is zero or less is
refused. The double that is no number is neither, and it is compared with nothing. No numeral of a
settings text stands for it, with or without a unit, but a name or a quoted string can spell it. So
the interval of settings that are loaded is more than zero unless it is written as such a spelling,
and then a collector that rests is not due at any moment.
-/

namespace SupplyGauge.Config

open Binary64 (zero)

/-! ## Values of tokens -/

theorem numeralValue_ne_nan {digits : List Char} (h : ∀ c ∈ digits, isLetter c = false) :
    numeralValue digits ≠ .ok (.real .nan) := by
  intro hvalue
  unfold numeralValue at hvalue
  split at hvalue
  next =>
    have hreal : Numeral.real (String.ofList digits) = .ok .nan := by
      cases hread : Numeral.real (String.ofList digits) with
      | error fault => simp [hread, Except.map] at hvalue
      | ok x => simpa [hread, Except.map] using hvalue
    -- a spelling of the name has letters
    obtain ⟨before, mark, name, after, htext, -, -, -, hname⟩ := Numeral.real_eq_nan_iff.mp hreal
    obtain ⟨c, rest, rfl, hc, -⟩ := List.map_eq_cons_iff.mp hname
    rw [String.toList_ofList] at htext
    have hletter := h c (by simp [htext])
    have hn : c ∈ ['n', 'N'] := Numeral.mem_of_toLower (by rfl) hc
    have hsmall : isLetter 'n' = true := by decide +kernel
    have hlarge : isLetter 'N' = true := by decide +kernel
    simp only [List.mem_cons, List.not_mem_nil, or_false] at hn
    rcases hn with rfl | rfl
    · exact Bool.eq_false_iff.mp hletter hsmall
    · exact Bool.eq_false_iff.mp hletter hlarge
  next => cases hread : Numeral.whole (String.ofList digits) <;> simp [hread, Except.map] at hvalue

/-- A unit is a positive number of seconds. -/
theorem unitSeconds?_positive {name : String} {seconds : Quantity}
    (h : unitSeconds? name = some seconds) : ∃ x, seconds.scalar.toReal = .ok x ∧
      x.isFinite = true ∧ zero.lt x = true := by
  have hreal : (Binary64.ofDecimal false 1 (-3)).isFinite = true ∧
      zero.lt (.ofDecimal false 1 (-3)) = true := by
    decide +kernel
  have hwhole : ∀ n ∈ [(1 : Int), 60, 3600, 86400],
      (Quantity.whole n).scalar.toReal = .ok (.ofInt n) ∧ (Binary64.ofInt n).isFinite = true ∧
        zero.lt (.ofInt n) = true := by
    decide +kernel
  unfold unitSeconds? at h
  split at h
  case h_1 =>
    obtain rfl := Option.some.inj h
    exact ⟨_, rfl, hreal⟩
  case h_6 => simp at h
  all_goals
    obtain rfl := Option.some.inj h
    exact ⟨_, hwhole _ (by simp)⟩

theorem toReal_ne_nan {value : Quantity} (h : value ≠ .real .nan) :
    value.scalar.toReal ≠ .ok .nan := by
  cases value with
  | real x =>
      rintro hx
      exact h (congrArg Quantity.real (Except.ok.inj hx))
  | whole n =>
      intro hx
      have hround := Binary64.ofInt_ne_nan n
      simp only [Quantity.scalar, Scalar.toReal, Numeral.realOfWhole] at hx
      generalize Binary64.ofInt n = x at hround hx
      cases x <;> simp_all [Numeral.ofRounded]

theorem times_ne_nan {value seconds : Quantity} {name : String} (hvalue : value ≠ .real .nan)
    (hseconds : unitSeconds? name = some seconds) : times value seconds ≠ .ok (.real .nan) := by
  obtain ⟨y, hy, hfinite, hpositive⟩ := unitSeconds?_positive hseconds
  intro h
  unfold times at h
  split at h
  next => simp at h
  next =>
    obtain ⟨x, hx, h⟩ := bind_eq_ok_iff.mp h
    obtain ⟨y', hy', h⟩ := bind_eq_ok_iff.mp h
    obtain rfl := Except.ok.inj (hy.symm.trans hy')
    have hne : x ≠ .nan := fun hnan => toReal_ne_nan hvalue (hnan ▸ hx)
    exact Binary64.mul_ne_nan hne hfinite hpositive (Quantity.real.inj (Except.ok.inj h))

/-- No numeral has the value that is no number. -/
theorem numberSymbol_defined {text : List Char} {symbol : Symbol}
    (h : numberSymbol text = .ok symbol) : symbol.value? ≠ some (.real .nan) := by
  have hletters : ∀ c ∈ text.takeWhile (!isLetter ·), isLetter c = false := by
    have hall : (text.takeWhile (!isLetter ·)).all (!isLetter ·) = true := List.all_takeWhile
    simpa using List.all_eq_true.mp hall
  have hscalar {v : Quantity} (hv : v ≠ .real .nan) : some v.scalar ≠ some (.real .nan) := by
    cases v <;> simp_all [Quantity.scalar]
  unfold numberSymbol at h
  obtain ⟨value, hvalue, h⟩ := bind_eq_ok_iff.mp h
  have hdefined : value ≠ .real .nan := by
    rintro rfl
    refine numeralValue_ne_nan hletters ?_
    cases hread : numeralValue (text.takeWhile (!isLetter ·)) with
    | error fault => simp [hread] at hvalue
    | ok v => simpa [hread] using hvalue
  split at h
  next =>
    obtain rfl := Except.ok.inj h
    exact hscalar hdefined
  next =>
    split at h
    next => contradiction
    next seconds hseconds =>
      obtain ⟨product, hproduct, h⟩ := bind_eq_ok_iff.mp h
      obtain rfl := Except.ok.inj h
      refine hscalar ?_
      rintro rfl
      refine times_ne_nan hdefined hseconds ?_
      cases htimes : times value seconds with
      | error fault => simp [htimes] at hproduct
      | ok v => simpa [htimes] using hproduct

theorem Lexeme.symbol?_defined {l : Lexeme} {symbol : Symbol} (h : l.symbol? = .ok (some symbol)) :
    symbol.value? ≠ some (.real .nan) := by
  unfold symbol? at h
  split at h
  · simp at h
  · simp at h
  · obtain rfl := Option.some.inj (Except.ok.inj h)
    simp [Symbol.value?]
  · cases hnumber : numberSymbol l.text with
    | error fault => simp [hnumber, Except.map] at h
    | ok symbol' =>
        obtain rfl : symbol' = symbol := by simpa [hnumber, Except.map] using h
        exact numberSymbol_defined hnumber
  · split at h <;> obtain rfl := Option.some.inj (Except.ok.inj h) <;> simp [Symbol.value?]
  · split at h <;> obtain rfl := Option.some.inj (Except.ok.inj h) <;> simp [Symbol.value?]

theorem Tokens.ofLexemes_defined {place : Place} {ls : List Lexeme} {stop : Option LexFault} :
    ∀ t ∈ (ofLexemes place ls stop).tokens, t.symbol.value? ≠ some (.real .nan) := by
  induction ls generalizing place with
  | nil => cases stop <;> simp [ofLexemes]
  | cons l ls ih =>
      rw [ofLexemes]
      split
      next => simp
      next => exact ih
      next symbol hsymbol =>
        rintro t (_ | ⟨_, ht⟩)
        · exact Lexeme.symbol?_defined hsymbol
        · exact ih t ht

/-! ## Values of documents -/

theorem Item.mem_tokensOf {item : Item} {items : List Item} {t : Token} (hitem : item ∈ items)
    (ht : t ∈ item.tokens) : t ∈ tokensOf items := by
  induction hitem with
  | head => exact List.mem_append_left _ ht
  | tail _ _ ih => exact List.mem_append_right _ ih

theorem Item.exists_of_mem_blocksOf {items : List Item} {b : Block} (h : b ∈ blocksOf items) :
    ∃ item ∈ items, item.block? = some b := by
  induction items with
  | nil => simp [blocksOf] at h
  | cons item items ih =>
      rcases List.mem_append.mp h with hfirst | hlater
      · exact ⟨item, List.mem_cons_self, by simpa using hfirst⟩
      · obtain ⟨later, hmem, hblock⟩ := ih hlater
        exact ⟨later, List.mem_cons_of_mem _ hmem, hblock⟩

/-- A value of a block of a document is that of a token. -/
theorem Item.exists_token {items : List Item} {b : Block} {name : String} {v : Scalar}
    (hb : b ∈ blocksOf items) (hv : b.value? name = some v) :
    ∃ t ∈ tokensOf items, t.symbol.value? = some v := by
  obtain ⟨item, hitem, hblock⟩ := exists_of_mem_blocksOf hb
  cases item with
  | directive => simp [block?] at hblock
  | block type place label openBrace inner closeBrace =>
      obtain rfl := Option.some.inj hblock
      obtain ⟨d, hd, hvalue⟩ := Option.bind_eq_some_iff.mp hv
      obtain ⟨item', hitem', hdirective⟩ := List.mem_filterMap.mp (List.mem_of_find?_eq_some hd)
      cases item' with
      | block => simp [directive?] at hdirective
      | directive name' place' values semicolon =>
          obtain rfl := Option.some.inj hdirective
          obtain ⟨literal, hliteral, rfl⟩ := List.mem_map.mp (List.mem_of_head? hvalue)
          refine ⟨Literal.token literal, mem_tokensOf hitem ?_, literal.1.value?_symbol⟩
          have hmem : Literal.token literal ∈ tokensOf inner :=
            mem_tokensOf hitem' (by simp [tokens, List.mem_map_of_mem hliteral])
          simp [tokens, hmem]

/-- A document that is read is that of a derivation of its tokens. -/
theorem Document.exists_items {filename : String} {ts : Tokens} {d : Document}
    (h : ofTokens filename ts = .ok d) :
    ∃ items, Item.tokensOf items = ts.tokens ∧ ofItems filename items = d := by
  unfold ofTokens at h
  obtain ⟨p, hrun, h⟩ := bind_eq_ok_iff.mp h
  obtain ⟨place, -, h⟩ := bind_eq_ok_iff.mp h
  have hrun : Parse.start.run ts.tokens = .ok p := by
    cases hread : Parse.start.run ts.tokens with
    | error e => simp [hread] at hrun
    | ok p' => simpa [hread] using hrun
  obtain ⟨⟨items, enclosing, start⟩, rfl, htokens⟩ := Draft.exists_run (k := ⟨[], [], none⟩) hrun
  -- where the text may end, nothing is open
  rcases start with _ | s
  · rcases enclosing with _ | ⟨b, outer⟩
    · refine ⟨items, ?_, Except.ok.inj h⟩
      simpa [Draft.tokens, Item.tokensOf] using htokens
    · contradiction
  · contradiction

theorem Document.entry?_defined {filename : String} {text : List Char} {d : Document}
    (h : ofText filename text = .ok d) (f : Field) : d.entry? f ≠ some (.real .nan) := by
  intro hentry
  obtain ⟨items, htokens, rfl⟩ := exists_items h
  obtain ⟨b, hb, hvalue⟩ := Option.bind_eq_some_iff.mp hentry
  obtain ⟨t, ht, hsymbol⟩ := Item.exists_token (List.mem_of_find?_eq_some hb) hvalue
  exact Tokens.ofLexemes_defined t (htokens ▸ ht) hsymbol

/-! ## The interval -/

/-- Whether a document gives the interval as a spelling of the double that is no number. -/
def Document.IntervalUndefined (d : Document) : Prop :=
  ∃ t, d.entry? .updateInterval = some (.text t) ∧ Numeral.SpellsNan t

theorem mapError_eq_ok_iff {ε ε' α : Type} {x : Except ε α} {f : ε → ε'} {a : α} :
    x.mapError f = .ok a ↔ x = .ok a := by
  cases x <;> simp

/-- The interval of settings is a value that is not zero or less. -/
theorem Settings.interval_of_ofDocument {d : Document} {s : Settings}
    (h : Settings.ofDocument d = .ok s) : s.supply.updateInterval.le zero = false ∧
      match d.entry? .updateInterval with
      | none => s.supply.updateInterval = .ofInt 15
      | some v => v.toReal = .ok s.supply.updateInterval := by
  have hread := read_of_ofDocument h .updateInterval
  have hinterval : intervalSetting (d.block? Field.updateInterval.section_) =
      .ok s.supply.updateInterval := by
    simp only [Field.read, Field.reading, Field.content] at hread
    cases hx : intervalSetting (d.block? Field.updateInterval.section_) with
    | error e => simp [hx, Except.map] at hread
    | ok x => simpa [hx, Except.map] using hread
  have hpositive {x : Binary64} (hx : positive x = .ok s.supply.updateInterval) :
      s.supply.updateInterval.le zero = false ∧ x = s.supply.updateInterval := by
    unfold positive at hx
    split at hx
    next => contradiction
    next hle =>
      obtain rfl := Except.ok.inj hx
      exact ⟨Bool.eq_false_iff.mpr hle, rfl⟩
  unfold intervalSetting at hinterval
  unfold Document.entry?
  cases hentry : setting? (d.block? Field.updateInterval.section_) Field.updateInterval.name with
  | none =>
      have hentry : setting? (d.block? Field.updateInterval.section_) "update_interval" = none :=
        hentry
      rw [hentry] at hinterval
      exact ⟨(hpositive hinterval).1, (hpositive hinterval).2.symm⟩
  | some v =>
      have hentry : setting? (d.block? Field.updateInterval.section_) "update_interval" = some v :=
        hentry
      rw [hentry] at hinterval
      obtain ⟨x, hx, hinterval⟩ := bind_eq_ok_iff.mp hinterval
      obtain ⟨hle, rfl⟩ := hpositive hinterval
      exact ⟨hle, mapError_eq_ok_iff.mp hx⟩

/-- The interval of settings that a text gives is no number exactly if it is written as a spelling
of that. -/
theorem Settings.interval_eq_nan_iff {filename : String} {text : List Char} {d : Document}
    {s : Settings} (hread : Document.ofText filename text = .ok d)
    (h : Settings.ofDocument d = .ok s) :
    s.supply.updateInterval = .nan ↔ d.IntervalUndefined := by
  have hdefined := Document.entry?_defined hread .updateInterval
  have hinterval := (interval_of_ofDocument h).2
  unfold Document.IntervalUndefined
  cases hentry : d.entry? .updateInterval with
  | none =>
      rw [hentry] at hinterval
      have hdefault := Binary64.ofInt_ne_nan 15
      simp [hinterval, hdefault]
  | some v =>
      rw [hentry] at hinterval hdefined
      cases v with
      | text t =>
          have hspelled : Numeral.real t = .ok .nan ↔ Numeral.SpellsNan t :=
            Numeral.real_eq_nan_iff
          have hread : Numeral.real t = .ok s.supply.updateInterval := hinterval
          rw [hread, Except.ok.injEq] at hspelled
          simpa using hspelled
      | flag b =>
          have hround := Except.ok.inj hinterval
          have hne := Binary64.ofInt_ne_nan (if b then 1 else 0)
          rw [hround] at hne
          simpa using hne
      | whole n =>
          have hwhole : (Quantity.whole n).scalar.toReal ≠ .ok .nan := toReal_ne_nan (by simp)
          have hne : s.supply.updateInterval ≠ .nan := fun hnan => hwhole (hnan ▸ hinterval)
          simpa using hne
      | real x =>
          have hne : s.supply.updateInterval ≠ .nan := fun hnan =>
            hdefined (by rw [Except.ok.inj hinterval, hnan])
          simpa using hne

/-! ## Rests of the collector -/

/-- A sum with a double that is more than zero is not before the other summand. -/
theorem le_add_of_positive {now x : Instant} (hnow : now.Proper) (hx : zero.lt x = true) :
    now.le (now.add x) = true := by
  obtain ⟨n, hn⟩ := hnow
  have hzero : Binary64.Measures zero 0 := .inl rfl
  have hle : zero.le x = true := by rw [Binary64.le, hx, Bool.true_or]
  obtain ⟨b, hb, -⟩ := hzero.exists_of_le hle
  refine (hn.measures.le_iff (hn.measures.add hb)).mpr ?_
  calc n
    _ = Binary64.nearest n := hn.measures.nearest_eq.symm
    _ ≤ Binary64.nearest (n + b) := Binary64.nearest_mono (Nat.le_add_right n b)

end SupplyGauge.Config

namespace SupplyGauge.Daemon.State

/-- A collector that rests has set its timer for the end of the interval. -/
theorem exists_timer_of_rest (d : State) :
    ∃ t ∈ d.rest.client.scene.schedule.timers.heap.toList, t.number = d.rest.duty.timer ∧
      t.purpose = .release .collector 0 ∧
      t.due = d.now.add d.collector.settings.updateInterval := by
  exact ⟨_, (TimerHeap.insert_perm _ _).mem_iff.mpr List.mem_cons_self, rfl, rfl, rfl⟩

end SupplyGauge.Daemon.State

namespace SupplyGauge.Config

/-- The interval of settings that are loaded from a text is more than zero, except where the text
gives it as a spelling of the double that is no number: then it is that. A collector that rests is
due at no moment before the present, with the same exception: then it is due at no moment at all,
and waits for nothing. -/
theorem Loader.loadText_interval (l : Loader) (text filename : String) {s : Settings}
    (h : (l.loadText text filename).1 = .ok s) :
    ∃ d, Document.ofText filename text.toList = .ok d ∧
      (Binary64.zero.lt s.supply.updateInterval = true ↔ ¬ d.IntervalUndefined) ∧
      (s.supply.updateInterval = .nan ↔ d.IntervalUndefined) ∧
      ∀ daemon : Daemon.State, daemon.collector.settings = s.supply → daemon.now.Proper →
        ∃ t ∈ daemon.rest.client.scene.schedule.timers.heap.toList,
          t.number = daemon.rest.duty.timer ∧ t.purpose = .release .collector 0 ∧
          (daemon.now.le t.due = true ↔ ¬ d.IntervalUndefined) ∧
          (d.IntervalUndefined → ∀ now, Schedule.Reached t.due now) := by
  obtain ⟨d, hread, hsettings⟩ := ofDocument_of_loadText h
  have hnan := Settings.interval_eq_nan_iff hread hsettings
  have hpositive : Binary64.zero.lt s.supply.updateInterval = true ↔ ¬ d.IntervalUndefined := by
    rw [Binary64.zero_lt_iff, ← hnan]
    exact and_iff_right (Settings.interval_of_ofDocument hsettings).1
  refine ⟨d, hread, hpositive, hnan, fun daemon hcollector hnow => ?_⟩
  obtain ⟨t, ht, hnumber, hpurpose, hdue⟩ := daemon.exists_timer_of_rest
  rw [hcollector] at hdue
  have hundefined (hd : d.IntervalUndefined) : t.due = .nan := by
    rw [hdue, hnan.mpr hd]
    cases daemon.now <;> rfl
  have hnever {now : Instant} : now.le .nan = false := by cases now <;> rfl
  refine ⟨t, ht, hnumber, hpurpose, ⟨fun hle hd => ?_, fun hd => ?_⟩, fun hd now => ?_⟩
  · rw [hundefined hd, hnever] at hle
    contradiction
  · rw [hdue]
    exact le_add_of_positive hnow (hpositive.mpr hd)
  · unfold Schedule.Reached
    rw [hundefined hd, hnever]
    exact Bool.false_ne_true

/-- A settings text that spells the double that is no number as the interval. -/
def restless : String := "power_supply\x7bupdate_interval nan;\x7d"

theorem ofText_restless (filename : String) : Document.ofText filename restless.toList =
    .ok ⟨filename, [], [.mk "power_supply" none 1
      [⟨"update_interval", [.text "nan"], 1⟩] []]⟩ := by
  have hvalue := lexemes_read .identifier 'n' "an".toList (lexemes_read .punctuation ';' []
    (lexemes_read .punctuation '\x7d' [] lexemes_nil rfl) rfl) rfl
  have hname := lexemes_read .identifier 'u' "pdate_interval".toList
    (lexemes_read .space ' ' [] hvalue rfl) rfl
  have hlexemes : lexemes restless.toList = _ :=
    lexemes_read .identifier 'p' "ower_supply".toList
      (lexemes_read .punctuation '\x7b' [] hname rfl) rfl
  unfold Document.ofText Tokens.ofText
  rw [hlexemes]
  rfl

/-- The text is loaded, with an interval that is not more than zero. -/
theorem Loader.loadText_interval_restless :
    let s : Settings := { supply := { updateInterval := .nan } }
    (Loader.fresh.loadText restless "c.conf").1 = .ok s ∧
      ¬ Binary64.zero.lt s.supply.updateInterval = true ∧
      ∀ daemon : Daemon.State, daemon.collector.settings = s.supply → daemon.now.Proper →
        ∃ t ∈ daemon.rest.client.scene.schedule.timers.heap.toList,
          ∀ now, Schedule.Reached t.due now := by
  intro s
  let b : Block := .mk "power_supply" none 1 [⟨"update_interval", [.text "nan"], 1⟩] []
  have hsupply : SupplySettings.ofSection (some b) = .ok s.supply := by
    have hpattern : patternSetting (some b) = .ok defaultIgnoredDevices :=
      (patternSetting_congr rfl).trans patternSetting_none
    have hinterval : intervalSetting (some b) = .ok .nan := rfl
    rw [SupplySettings.ofSection_eq, hpattern, hinterval]
    rfl
  have hsettings : Settings.ofDocument ⟨"c.conf", [], [b]⟩ = .ok s := by
    have hblock : (⟨"c.conf", [], [b]⟩ : Document).block? "power_supply" = some b := rfl
    unfold Settings.ofDocument
    rw [hblock, hsupply]
    rfl
  have hload : (Loader.fresh.loadText restless "c.conf").1 = .ok s := by
    unfold loadText
    rw [ofText_restless, accept, hsettings]
    rfl
  obtain ⟨d, hread, hpositive, hnan, hrest⟩ :=
    Loader.loadText_interval Loader.fresh restless "c.conf" hload
  have hundefined : d.IntervalUndefined := hnan.mp rfl
  refine ⟨hload, fun hlt => hpositive.mp hlt hundefined, fun daemon hcollector hnow => ?_⟩
  obtain ⟨t, ht, -, -, -, hreached⟩ := hrest daemon hcollector hnow
  exact ⟨t, ht, hreached hundefined⟩

end SupplyGauge.Config
