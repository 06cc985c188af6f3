import SupplyGauge.Proofs.Json.Numbers
import SupplyGauge.Proofs.Json.Texts

/-! # Rendered values

What is rendered can be read again if all its doubles are finite, as the value that it was
rendered from and as no other one. A double that is not finite has a name that readers of
strict JSON refuse, so a value that holds one is rendered to what is no JSON text at all.
-/

namespace SupplyGauge.Json

mutual

/-- Whether all doubles of a value are finite. -/
def Value.Finite : Value → Prop
  | .null | .bool _ | .whole _ | .text _ => True
  | .real x => x.isFinite = true
  | .list items => FiniteItems items
  | .object members => FiniteMembers members

def FiniteItems : List Value → Prop
  | [] => True
  | v :: rest => v.Finite ∧ FiniteItems rest

def FiniteMembers : List (String × Value) → Prop
  | [] => True
  | (_, v) :: rest => v.Finite ∧ FiniteMembers rest

end

/-! ## Scalars -/

section Scalars

variable {rest : List Char}

/-- What begins with no quote and no name is a number, or nothing. -/
theorem readScalar_eq_readNumber {c : Char} (hquote : c ≠ '"') (hnull : c ≠ 'n') (htrue : c ≠ 't')
    (hfalse : c ≠ 'f') (text : List Char) : readScalar (c :: text) = readNumber (c :: text) := by
  refine readScalar.eq_5 (c :: text) ?_ ?_ ?_ ?_
  · exact fun _ heq => hquote (List.cons.inj heq).1
  · exact fun _ heq => hnull (List.cons.inj heq).1
  · exact fun _ heq => htrue (List.cons.inj heq).1
  · exact fun _ heq => hfalse (List.cons.inj heq).1

/-- A character that a number can begin with. -/
def Numeric (c : Char) : Prop := c = '-' ∨ isDigit c = true

theorem Numeric.spec {c : Char} (h : Numeric c) : isBlank c = false ∧ c ≠ '[' ∧ c ≠ '\x7b' ∧
    c ≠ '"' ∧ c ≠ 'n' ∧ c ≠ 't' ∧ c ≠ 'f' := by
  rcases h with rfl | h
  · decide
  · refine ⟨?_, ?_, ?_, ?_, ?_, ?_, ?_⟩
    · refine Bool.eq_false_iff.mpr fun hblank => ?_
      simp only [isBlank, Bool.or_eq_true, decide_eq_true_eq] at hblank
      rcases hblank with ((rfl | rfl) | rfl) | rfl <;> contradiction
    all_goals
      rintro rfl
      contradiction

theorem NumberParts.WellFormed.head {p : NumberParts} (h : p.WellFormed) (negative : Bool) :
    ∃ c tail, (if negative then '-' :: p.text else p.text) = c :: tail ∧ Numeric c := by
  cases negative with
  | true => exact ⟨'-', p.text, rfl, .inl rfl⟩
  | false =>
      obtain ⟨c, ds, hunits⟩ := List.exists_cons_of_ne_nil h.units.nonempty
      refine ⟨c, ds ++ (placesText p.places ++ exponentText p.exponent), ?_, .inr ?_⟩
      · rw [if_neg Bool.false_ne_true, NumberParts.text, hunits, List.cons_append]
      · exact h.units.digits c (by rw [hunits]; exact List.mem_cons_self)

theorem readScalar_number (negative : Bool) {p : NumberParts} (h : p.WellFormed)
    (hrest : Closed rest) :
    readScalar ((if negative then '-' :: p.text else p.text) ++ rest) =
      some (p.value negative, rest) := by
  have hread := readNumber_text negative h hrest
  obtain ⟨c, tail, htext, hc⟩ := h.head negative
  obtain ⟨-, -, -, hquote, hnull, htrue, hfalse⟩ := hc.spec
  rw [htext] at hread ⊢
  exact (readScalar_eq_readNumber hquote hnull htrue hfalse _).trans hread

theorem wellFormed_ofNat (n : Nat) : (NumberParts.mk (Decimal.ofNat n) none none).WellFormed where
  units := digits_ofNat n
  leading hzero := by
    rcases Nat.eq_zero_or_pos n with rfl | hn
    · decide +kernel
    · exact absurd hzero (ofNat_head hn)
  places := by
    rintro _ ⟨⟩
  exponent := by
    rintro _ ⟨⟩

theorem readScalar_whole (n : Int) (hrest : Closed rest) :
    readScalar (Decimal.ofInt n ++ rest) = some (.whole n, rest) := by
  have hread := readScalar_number (decide (n < 0)) (wellFormed_ofNat n.natAbs) hrest
  have htext : (NumberParts.mk (Decimal.ofNat n.natAbs) none none).text =
      Decimal.ofNat n.natAbs := List.append_nil _
  have hvalue : (NumberParts.mk (Decimal.ofNat n.natAbs) none none).value (decide (n < 0)) =
      .whole n := by
    unfold NumberParts.value
    simp only [Option.map_none, numberValue, digitsValue_ofNat, decide_eq_true_eq]
    refine congrArg Value.whole ?_
    split <;> omega
  rw [htext, hvalue] at hread
  unfold Decimal.ofInt
  simpa only [decide_eq_true_eq] using hread

/-- A double is read as itself if it is finite. The names of the others are refused. -/
theorem readScalar_real (x : Binary64) (hrest : Closed rest) :
    readScalar ((x.text .payload).toList ++ rest) =
      if x.isFinite then some (.real x, rest) else none := by
  cases x with
  | nan => rfl
  | infinite negative => cases negative <;> rfl
  | finite negative m s h =>
      obtain ⟨p, hp, htext, hvalue⟩ := magnitudeText_parts h
      have hread := readScalar_number negative hp hrest
      rw [hvalue] at hread
      rw [Binary64.text, htext, String.toList_ofList]
      exact hread

end Scalars

/-! ## Values by their first characters -/

section Inversion

variable {text inner rest : List Char} {w : Value}

theorem skipBlanks_cons {c : Char} (hc : isBlank c = false) (text : List Char) :
    skipBlanks (c :: text) = c :: text := by
  rw [skipBlanks, List.dropWhile_cons_of_neg (by simp [hc])]

theorem skipBlanks_space (text : List Char) : skipBlanks (' ' :: text) = skipBlanks text := rfl

theorem Reads.congr {text' : List Char} (heq : skipBlanks text = skipBlanks text')
    (h : Reads text w rest) : Reads text' w rest := by
  cases h with
  | scalar h => exact .scalar (heq ▸ h)
  | emptyList hopen hclose => exact .emptyList (heq ▸ hopen) hclose
  | list hopen h => exact .list (heq ▸ hopen) h
  | emptyObject hopen hclose => exact .emptyObject (heq ▸ hopen) hclose
  | object hopen h => exact .object (heq ▸ hopen) h

theorem reads_space : Reads (' ' :: text) w rest ↔ Reads text w rest :=
  ⟨.congr (skipBlanks_space text), .congr (skipBlanks_space text).symm⟩

theorem reads_scalar_iff {c : Char} (hblank : isBlank c = false) (hlist : c ≠ '[')
    (hobject : c ≠ '\x7b') :
    Reads (c :: text) w rest ↔ readScalar (c :: text) = some (w, rest) := by
  have hskip := skipBlanks_cons hblank text
  constructor
  · intro h
    cases h with
    | scalar h => rwa [hskip] at h
    | emptyList hopen | list hopen =>
        rw [hskip] at hopen
        exact absurd (List.cons.inj hopen).1 hlist
    | emptyObject hopen | object hopen =>
        rw [hskip] at hopen
        exact absurd (List.cons.inj hopen).1 hobject
  · intro h
    exact .scalar (hskip.symm ▸ h)

/-- A list is read up to its bracket. -/
theorem reads_list_iff : Reads ('[' :: inner) w rest ↔
    (w = .list [] ∧ skipBlanks inner = ']' :: rest) ∨
      ∃ items, w = .list items ∧ ReadsItems inner items rest := by
  have hskip : skipBlanks ('[' :: inner) = '[' :: inner := rfl
  have hscalar : readScalar ('[' :: inner) = none := rfl
  constructor
  · intro h
    cases h with
    | scalar h =>
        rw [hskip, hscalar] at h
        contradiction
    | emptyList hopen hclose =>
        obtain ⟨-, rfl⟩ := List.cons.inj (hskip.symm.trans hopen)
        exact .inl ⟨rfl, hclose⟩
    | list hopen h =>
        obtain ⟨-, rfl⟩ := List.cons.inj (hskip.symm.trans hopen)
        exact .inr ⟨_, rfl, h⟩
    | emptyObject hopen | object hopen =>
        exact absurd (List.cons.inj (hskip.symm.trans hopen)).1 (by decide)
  · rintro (⟨rfl, hclose⟩ | ⟨items, rfl, h⟩)
    · exact .emptyList hskip hclose
    · exact .list hskip h

/-- An object is read up to its brace. -/
theorem reads_object_iff : Reads ('\x7b' :: inner) w rest ↔
    (w = .object [] ∧ skipBlanks inner = '\x7d' :: rest) ∨
      ∃ members, w = .object members ∧ ReadsMembers inner members rest := by
  have hskip : skipBlanks ('\x7b' :: inner) = '\x7b' :: inner := rfl
  have hscalar : readScalar ('\x7b' :: inner) = none := rfl
  constructor
  · intro h
    cases h with
    | scalar h =>
        rw [hskip, hscalar] at h
        contradiction
    | emptyObject hopen hclose =>
        obtain ⟨-, rfl⟩ := List.cons.inj (hskip.symm.trans hopen)
        exact .inl ⟨rfl, hclose⟩
    | object hopen h =>
        obtain ⟨-, rfl⟩ := List.cons.inj (hskip.symm.trans hopen)
        exact .inr ⟨_, rfl, h⟩
    | emptyList hopen | list hopen =>
        exact absurd (List.cons.inj (hskip.symm.trans hopen)).1 (by decide)
  · rintro (⟨rfl, hclose⟩ | ⟨members, rfl, h⟩)
    · exact .emptyObject hskip hclose
    · exact .object hskip h

theorem readsItems_iff {ws : List Value} : ReadsItems text ws rest ↔
    ∃ v after, Reads text v after ∧ ((skipBlanks after = ']' :: rest ∧ ws = [v]) ∨
      ∃ later items, skipBlanks after = ',' :: later ∧ ReadsItems later items rest ∧
        ws = v :: items) := by
  constructor
  · intro h
    cases h with
    | last h hclose => exact ⟨_, _, h, .inl ⟨hclose, rfl⟩⟩
    | more h hcomma hmore => exact ⟨_, _, h, .inr ⟨_, _, hcomma, hmore, rfl⟩⟩
  · rintro ⟨v, after, h, ⟨hclose, rfl⟩ | ⟨later, items, hcomma, hmore, rfl⟩⟩
    · exact .last h hclose
    · exact .more h hcomma hmore

theorem readsMembers_iff {ms : List (String × Value)} : ReadsMembers text ms rest ↔
    ∃ key inner v after, ReadsKey text key inner ∧ Reads inner v after ∧
      ((skipBlanks after = '\x7d' :: rest ∧ ms = [(key, v)]) ∨
        ∃ later members, skipBlanks after = ',' :: later ∧ ReadsMembers later members rest ∧
          ms = (key, v) :: members) := by
  constructor
  · intro h
    cases h with
    | last hkey h hclose => exact ⟨_, _, _, _, hkey, h, .inl ⟨hclose, rfl⟩⟩
    | more hkey h hcomma hmore => exact ⟨_, _, _, _, hkey, h, .inr ⟨_, _, hcomma, hmore, rfl⟩⟩
  · rintro ⟨key, inner, v, after, hkey, h,
      ⟨hclose, rfl⟩ | ⟨later, members, hcomma, hmore, rfl⟩⟩
    · exact .last hkey h hclose
    · exact .more hkey h hcomma hmore

theorem readsItems_space {ws : List Value} :
    ReadsItems (' ' :: text) ws rest ↔ ReadsItems text ws rest := by
  rw [readsItems_iff, readsItems_iff]
  simp only [reads_space]

/-- The name of a member is read as it was written. -/
theorem readsKey_iff {key name : String} {tail : List Char} :
    ReadsKey ((quote name).toList ++ ':' :: tail) key inner ↔ key = name ∧ inner = tail := by
  have hquote : (quote name).toList ++ ':' :: tail =
      '"' :: (name.toList.flatMap escapeChar ++ '"' :: ':' :: tail) := by
    rw [quote_toList, List.cons_append, List.append_assoc, List.singleton_append]
  have hskip : skipBlanks ((quote name).toList ++ ':' :: tail) =
      '"' :: (name.toList.flatMap escapeChar ++ '"' :: ':' :: tail) := by
    rw [hquote]
    rfl
  have hread := readText_quote name (':' :: tail)
  constructor
  · rintro ⟨hopen, hname, hcolon⟩
    obtain ⟨-, rfl⟩ := List.cons.inj (hskip.symm.trans hopen)
    obtain ⟨rfl, rfl⟩ := Prod.mk.inj (Option.some.inj (hread.symm.trans hname))
    obtain ⟨-, rfl⟩ := List.cons.inj hcolon
    exact ⟨rfl, rfl⟩
  · rintro ⟨rfl, rfl⟩
    exact .intro hskip hread rfl

theorem readsKey_space {key : String} :
    ReadsKey (' ' :: text) key inner ↔ ReadsKey text key inner := by
  constructor
  · rintro ⟨hopen, hname, hcolon⟩
    exact .intro hopen hname hcolon
  · rintro ⟨hopen, hname, hcolon⟩
    exact .intro ((skipBlanks_space text).trans hopen) hname hcolon

theorem readsMembers_space {ms : List (String × Value)} :
    ReadsMembers (' ' :: text) ms rest ↔ ReadsMembers text ms rest := by
  rw [readsMembers_iff, readsMembers_iff]
  simp only [readsKey_space]

end Inversion

/-! ## Rendering and reading -/

theorem closed_cons {c : Char} (hc : c = ',' ∨ c = ']' ∨ c = '\x7d') (text : List Char) :
    Closed (c :: text) := by
  intro c' hc'
  obtain rfl := Option.some.inj hc'
  exact hc

theorem renderItems_cons_cons (v v' : Value) (rest : List Value) :
    renderItems (v :: v' :: rest) = v.render ++ ", " ++ renderItems (v' :: rest) := by
  rw [renderItems]
  simp

theorem renderMembers_cons_cons (k k' : String) (v v' : Value) (rest : List (String × Value)) :
    renderMembers ((k, v) :: (k', v') :: rest) =
      quote k ++ ": " ++ v.render ++ ", " ++ renderMembers ((k', v') :: rest) := by
  rw [renderMembers]
  simp

/-- A character with which a value without parts can begin, and nothing else. -/
def Leads (c : Char) : Prop := isBlank c = false ∧ c ≠ '[' ∧ c ≠ ']' ∧ c ≠ '\x7b' ∧ c ≠ '\x7d'

instance (c : Char) : Decidable (Leads c) := inferInstanceAs (Decidable (_ ∧ _))

theorem Numeric.leads {c : Char} (h : Numeric c) : Leads c := by
  obtain ⟨hblank, hlist, hobject, -⟩ := h.spec
  refine ⟨hblank, hlist, ?_, hobject, ?_⟩
  all_goals
    rintro rfl
    rcases h with h | h <;> contradiction

/-- A value without parts. -/
def Value.IsScalar : Value → Prop
  | .list _ | .object _ => False
  | _ => True

theorem Value.IsScalar.head {v : Value} (h : v.IsScalar) :
    ∃ c tail, v.render.toList = c :: tail ∧ Leads c := by
  cases v with
  | null => exact ⟨_, _, rfl, by decide⟩
  | bool b => cases b <;> exact ⟨_, _, rfl, by decide⟩
  | whole n =>
      obtain ⟨c, tail, htext, hc⟩ := (wellFormed_ofNat n.natAbs).head (decide (n < 0))
      refine ⟨c, tail, ?_, hc.leads⟩
      rw [Value.render, String.toList_ofList, Decimal.ofInt, ← htext]
      simp [NumberParts.text, placesText, exponentText]
  | real x =>
      cases x with
      | nan => exact ⟨_, _, rfl, by decide⟩
      | infinite negative => cases negative <;> exact ⟨_, _, rfl, by decide⟩
      | finite negative m s hcanonical =>
          obtain ⟨p, hp, htext, -⟩ := magnitudeText_parts hcanonical
          obtain ⟨c, tail, hhead, hc⟩ := hp.head negative
          refine ⟨c, tail, ?_, hc.leads⟩
          rw [Value.render, Binary64.text, htext, String.toList_ofList, hhead]
  | text s => exact ⟨_, _, quote_toList s, by decide⟩
  | list items => contradiction
  | object members => contradiction

/-- A value without parts is read if it is no double that is not finite, and as nothing else. -/
theorem Value.IsScalar.reads_render {v w : Value} (h : v.IsScalar) {rest rest' : List Char}
    (hrest : Closed rest) :
    Reads (v.render.toList ++ rest) w rest' ↔ v.Finite ∧ w = v ∧ rest' = rest := by
  have hreads : Reads (v.render.toList ++ rest) w rest' ↔
      readScalar (v.render.toList ++ rest) = some (w, rest') := by
    obtain ⟨c, tail, htext, hblank, hlist, -, hobject, -⟩ := h.head
    rw [htext]
    exact reads_scalar_iff hblank hlist hobject
  have hresult (hread : readScalar (v.render.toList ++ rest) = some (v, rest)) :
      Reads (v.render.toList ++ rest) w rest' ↔ True ∧ w = v ∧ rest' = rest := by
    rw [hreads, hread, Option.some.injEq, Prod.mk.injEq, true_and, eq_comm, eq_comm (a := rest)]
  cases v with
  | null => exact hresult rfl
  | bool b => cases b <;> exact hresult rfl
  | whole n =>
      refine hresult ?_
      rw [Value.render, String.toList_ofList]
      exact readScalar_whole n hrest
  | real x =>
      have hread := readScalar_real x hrest
      rw [Value.Finite]
      cases hfinite : x.isFinite with
      | true =>
          rw [hfinite, if_pos rfl] at hread
          simpa using hresult hread
      | false =>
          rw [hfinite, if_neg Bool.false_ne_true] at hread
          rw [hreads, Value.render, hread]
          simp
  | text s =>
      refine hresult ?_
      have hquote : (Value.text s).render.toList ++ rest =
          '"' :: (s.toList.flatMap escapeChar ++ '"' :: rest) := by
        rw [Value.render, quote_toList, List.cons_append, List.append_assoc, List.singleton_append]
      rw [hquote, readScalar, readText_quote]
      rfl
  | list items => contradiction
  | object members => contradiction

theorem list_toList (items : List Value) (rest : List Char) :
    (Value.list items).render.toList ++ rest =
      '[' :: ((renderItems items).toList ++ ']' :: rest) := by
  rw [Value.render, String.append_assoc, String.toList_append, String.toList_append,
    List.append_assoc, List.append_assoc]
  rfl

theorem object_toList (members : List (String × Value)) (rest : List Char) :
    (Value.object members).render.toList ++ rest =
      '\x7b' :: ((renderMembers members).toList ++ '\x7d' :: rest) := by
  rw [Value.render, String.append_assoc, String.toList_append, String.toList_append,
    List.append_assoc, List.append_assoc]
  rfl

/-- A list with items does not begin with its end. -/
theorem renderItems_not_closed (v : Value) (items : List Value) (rest tail : List Char) :
    skipBlanks ((renderItems (v :: items)).toList ++ rest) ≠ ']' :: tail := by
  have hfirst : ∃ c later, v.render.toList = c :: later ∧ isBlank c = false ∧ c ≠ ']' := by
    have hscalar (hv : v.IsScalar) :
        ∃ c later, v.render.toList = c :: later ∧ isBlank c = false ∧ c ≠ ']' := by
      obtain ⟨c, later, htext, hc⟩ := hv.head
      exact ⟨c, later, htext, hc.1, hc.2.2.1⟩
    cases v with
    | null | bool | whole | real | text => exact hscalar trivial
    | list items =>
        exact ⟨_, _, (List.append_nil _).symm.trans (list_toList items []), by decide⟩
    | object members =>
        exact ⟨_, _, (List.append_nil _).symm.trans (object_toList members []), by decide⟩
  obtain ⟨c, later, htext, hblank, hc⟩ := hfirst
  have hall : ∃ later', (renderItems (v :: items)).toList = c :: later' := by
    cases items with
    | nil => exact ⟨later, by rw [renderItems, htext]⟩
    | cons v' items =>
        refine ⟨later ++ (", " ++ renderItems (v' :: items)).toList, ?_⟩
        rw [renderItems_cons_cons, String.append_assoc, String.toList_append, htext,
          List.cons_append]
  obtain ⟨later', hlater⟩ := hall
  rw [hlater, List.cons_append, skipBlanks_cons hblank]
  exact fun heq => hc (List.cons.inj heq).1

/-- An object with members begins with a quote. -/
theorem renderMembers_not_closed (key : String) (v : Value) (members : List (String × Value))
    (rest tail : List Char) :
    skipBlanks ((renderMembers ((key, v) :: members)).toList ++ rest) ≠ '\x7d' :: tail := by
  have hquote (later : String) : ∃ tail, (quote key ++ later).toList = '"' :: tail := by
    rw [String.toList_append, quote_toList, List.cons_append]
    exact ⟨_, rfl⟩
  have hall : ∃ later, (renderMembers ((key, v) :: members)).toList = '"' :: later := by
    cases members with
    | nil =>
        rw [renderMembers, String.append_assoc]
        exact hquote _
    | cons member members =>
        rw [renderMembers_cons_cons, String.append_assoc, String.append_assoc, String.append_assoc]
        exact hquote _
  obtain ⟨later, hlater⟩ := hall
  rw [hlater, List.cons_append, skipBlanks_cons (by decide)]
  exact fun heq => absurd (List.cons.inj heq).1 (by decide)

theorem not_readsItems_closed {text rest : List Char} {ws : List Value} :
    ¬ ReadsItems (']' :: text) ws rest := by
  rw [readsItems_iff]
  rintro ⟨v, after, h, -⟩
  rw [reads_scalar_iff (by decide) (by decide) (by decide)] at h
  contradiction

theorem not_readsMembers_closed {text rest : List Char} {ms : List (String × Value)} :
    ¬ ReadsMembers ('\x7d' :: text) ms rest := by
  rw [readsMembers_iff]
  rintro ⟨key, inner, v, after, ⟨hopen, -, -⟩, -⟩
  exact absurd (List.cons.inj hopen).1 (by decide)

mutual

/-- A rendered value is read if all its doubles are finite, and then as itself, up to its end. -/
theorem reads_render (v : Value) {rest rest' : List Char} {w : Value} (hrest : Closed rest) :
    Reads (v.render.toList ++ rest) w rest' ↔ v.Finite ∧ w = v ∧ rest' = rest := by
  -- whatever follows is closed, since a digit behind a number would belong to it
  match v with
  | .null | .bool _ | .whole _ | .real _ | .text _ =>
      refine Value.IsScalar.reads_render ?_ hrest
      exact trivial
  | .list [] =>
      have hskip : skipBlanks (']' :: rest) = ']' :: rest := rfl
      rw [list_toList, reads_list_iff]
      change (w = .list [] ∧ skipBlanks (']' :: rest) = ']' :: rest' ∨
        ∃ items, w = .list items ∧ ReadsItems (']' :: rest) items rest') ↔ True ∧ _
      simp [hskip, not_readsItems_closed, eq_comm (a := rest)]
  | .list (item :: items) =>
      have hread (ws : List Value) :=
        @readsItems_render (item :: items) (List.cons_ne_nil _ _) rest rest' ws
      rw [list_toList, reads_list_iff, Value.Finite]
      simp only [renderItems_not_closed, and_false, false_or, hread]
      constructor
      · rintro ⟨_, rfl, hfinite, rfl, rfl⟩
        exact ⟨hfinite, rfl, rfl⟩
      · rintro ⟨hfinite, rfl, rfl⟩
        exact ⟨_, rfl, hfinite, rfl, rfl⟩
  | .object [] =>
      have hskip : skipBlanks ('\x7d' :: rest) = '\x7d' :: rest := rfl
      rw [object_toList, reads_object_iff]
      change (w = .object [] ∧ skipBlanks ('\x7d' :: rest) = '\x7d' :: rest' ∨
        ∃ members, w = .object members ∧ ReadsMembers ('\x7d' :: rest) members rest') ↔ True ∧ _
      simp [hskip, not_readsMembers_closed, eq_comm (a := rest)]
  | .object ((key, v) :: members) =>
      have hread (ms : List (String × Value)) :=
        @readsMembers_render ((key, v) :: members) (List.cons_ne_nil _ _) rest rest' ms
      rw [object_toList, reads_object_iff, Value.Finite]
      simp only [renderMembers_not_closed, and_false, false_or, hread]
      constructor
      · rintro ⟨_, rfl, hfinite, rfl, rfl⟩
        exact ⟨hfinite, rfl, rfl⟩
      · rintro ⟨hfinite, rfl, rfl⟩
        exact ⟨_, rfl, hfinite, rfl, rfl⟩

theorem readsItems_render (items : List Value) (hitems : items ≠ []) {rest rest' : List Char}
    {ws : List Value} : ReadsItems ((renderItems items).toList ++ ']' :: rest) ws rest' ↔
      FiniteItems items ∧ ws = items ∧ rest' = rest := by
  match items with
  | [] => exact absurd rfl hitems
  | [v] =>
      have hread (w : Value) (after : List Char) :=
        @reads_render v (']' :: rest) after w (closed_cons (.inr (.inl rfl)) rest)
      rw [readsItems_iff, renderItems]
      simp only [hread, FiniteItems, and_true]
      constructor
      · rintro ⟨_, _, ⟨hfinite, rfl, rfl⟩, ⟨hclose, rfl⟩ | ⟨later, items, hcomma, -⟩⟩
        · obtain ⟨-, rfl⟩ := List.cons.inj hclose
          exact ⟨hfinite, rfl, rfl⟩
        · exact absurd (List.cons.inj hcomma).1 (by decide)
      · rintro ⟨hfinite, rfl, rfl⟩
        exact ⟨v, _, ⟨hfinite, rfl, rfl⟩, .inl ⟨rfl, rfl⟩⟩
  | v :: v' :: items =>
      have hread (w : Value) (after : List Char) :=
        @reads_render v (',' :: ' ' :: ((renderItems (v' :: items)).toList ++ ']' :: rest)) after w
          (closed_cons (.inl rfl) _)
      have hmore (ws : List Value) :=
        @readsItems_render (v' :: items) (List.cons_ne_nil _ _) rest rest' ws
      have htext : (renderItems (v :: v' :: items)).toList ++ ']' :: rest =
          v.render.toList ++ ',' :: ' ' :: ((renderItems (v' :: items)).toList ++ ']' :: rest) := by
        simp [renderItems_cons_cons]
      rw [htext, readsItems_iff, FiniteItems]
      simp only [hread]
      constructor
      · rintro ⟨_, _, ⟨hfinite, rfl, rfl⟩, ⟨hclose, -⟩ | ⟨later, ws', hcomma, hlater, rfl⟩⟩
        · exact absurd (List.cons.inj hclose).1 (by decide)
        · obtain ⟨-, rfl⟩ := List.cons.inj hcomma
          obtain ⟨hrest, rfl, rfl⟩ := (hmore ws').mp (readsItems_space.mp hlater)
          exact ⟨⟨hfinite, hrest⟩, rfl, rfl⟩
      · rintro ⟨⟨hfinite, hrest⟩, rfl, rfl⟩
        refine ⟨v, _, ⟨hfinite, rfl, rfl⟩, .inr ⟨_, v' :: items, rfl, ?_, rfl⟩⟩
        exact readsItems_space.mpr ((hmore _).mpr ⟨hrest, rfl, rfl⟩)

theorem readsMembers_render (members : List (String × Value)) (hmembers : members ≠ [])
    {rest rest' : List Char} {ms : List (String × Value)} :
    ReadsMembers ((renderMembers members).toList ++ '\x7d' :: rest) ms rest' ↔
      FiniteMembers members ∧ ms = members ∧ rest' = rest := by
  match members with
  | [] => exact absurd rfl hmembers
  | [(key, v)] =>
      have hread (w : Value) (after : List Char) :=
        @reads_render v ('\x7d' :: rest) after w (closed_cons (.inr (.inr rfl)) rest)
      have htext : (renderMembers [(key, v)]).toList ++ '\x7d' :: rest =
          (quote key).toList ++ ':' :: ' ' :: (v.render.toList ++ '\x7d' :: rest) := by
        simp [renderMembers]
      rw [htext, readsMembers_iff]
      simp only [readsKey_iff, FiniteMembers, and_true]
      constructor
      · rintro ⟨_, _, _, _, ⟨rfl, rfl⟩, h, hend⟩
        obtain ⟨hfinite, rfl, rfl⟩ := (hread _ _).mp (reads_space.mp h)
        rcases hend with ⟨hclose, rfl⟩ | ⟨later, members, hcomma, -⟩
        · obtain ⟨-, rfl⟩ := List.cons.inj hclose
          exact ⟨hfinite, rfl, rfl⟩
        · exact absurd (List.cons.inj hcomma).1 (by decide)
      · rintro ⟨hfinite, rfl, rfl⟩
        exact ⟨key, _, v, _, ⟨rfl, rfl⟩, reads_space.mpr ((hread _ _).mpr ⟨hfinite, rfl, rfl⟩),
          .inl ⟨rfl, rfl⟩⟩
  | (key, v) :: (key', v') :: members =>
      have hread (w : Value) (after : List Char) :=
        @reads_render v (',' :: ' ' :: ((renderMembers ((key', v') :: members)).toList ++
          '\x7d' :: rest)) after w (closed_cons (.inl rfl) _)
      have hmore (ms : List (String × Value)) :=
        @readsMembers_render ((key', v') :: members) (List.cons_ne_nil _ _) rest rest' ms
      have htext : (renderMembers ((key, v) :: (key', v') :: members)).toList ++ '\x7d' :: rest =
          (quote key).toList ++ ':' :: ' ' :: (v.render.toList ++ ',' :: ' ' ::
            ((renderMembers ((key', v') :: members)).toList ++ '\x7d' :: rest)) := by
        simp [renderMembers_cons_cons]
      rw [htext, readsMembers_iff, FiniteMembers]
      simp only [readsKey_iff]
      constructor
      · rintro ⟨_, _, _, _, ⟨rfl, rfl⟩, h, hend⟩
        obtain ⟨hfinite, rfl, rfl⟩ := (hread _ _).mp (reads_space.mp h)
        rcases hend with ⟨hclose, -⟩ | ⟨later, members', hcomma, hlater, rfl⟩
        · exact absurd (List.cons.inj hclose).1 (by decide)
        · obtain ⟨-, rfl⟩ := List.cons.inj hcomma
          obtain ⟨hrest, rfl, rfl⟩ := (hmore members').mp (readsMembers_space.mp hlater)
          exact ⟨⟨hfinite, hrest⟩, rfl, rfl⟩
      · rintro ⟨⟨hfinite, hrest⟩, rfl, rfl⟩
        refine ⟨key, _, v, _, ⟨rfl, rfl⟩, reads_space.mpr ((hread _ _).mpr ⟨hfinite, rfl, rfl⟩),
          .inr ⟨_, (key', v') :: members, rfl, ?_, rfl⟩⟩
        exact readsMembers_space.mpr ((hmore _).mpr ⟨hrest, rfl, rfl⟩)

end

/-- What is rendered is the text of a value if all doubles are finite, and of no other value. -/
theorem isText_render (v w : Value) : IsText v.render w ↔ v.Finite ∧ w = v := by
  have hread (rest : List Char) : Reads v.render.toList w rest ↔ v.Finite ∧ w = v ∧ rest = [] := by
    have hclosed : Closed [] := by
      rintro _ ⟨⟩
    have hrender := @reads_render v [] rest w hclosed
    rwa [List.append_nil] at hrender
  constructor
  · rintro ⟨rest, h, -⟩
    obtain ⟨hfinite, heq, -⟩ := (hread rest).mp h
    exact ⟨hfinite, heq⟩
  · rintro ⟨hfinite, heq⟩
    exact ⟨[], (hread []).mpr ⟨hfinite, heq, rfl⟩, rfl⟩

end SupplyGauge.Json
