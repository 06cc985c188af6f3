import SupplyGauge.Number.Numeral

/-! # Numerals that stand for no number

The only texts that are read as the double that is no number are the spellings of its name. No
decimal is rounded to it, and neither a sum of a finite double and another one nor a product of a
double with a positive finite one is it unless the other one is.
-/

namespace SupplyGauge

namespace Text

/-- What is trimmed from a text belongs to the class, and there is nothing else at its ends. -/
theorem trim_spec (p : Char → Bool) (text : List Char) : ∃ before after,
    text = before ++ trim p text ++ after ∧ (∀ c ∈ before, p c = true) ∧
      ∀ c ∈ after, p c = true := by
  have hall (text : List Char) : ∀ c ∈ text.takeWhile p, p c = true :=
    List.all_eq_true.mp List.all_takeWhile
  refine ⟨text.takeWhile p, ((text.dropWhile p).reverse.takeWhile p).reverse, ?_, hall text,
    fun c hc => hall _ c (List.mem_reverse.mp hc)⟩
  rw [trim, List.append_assoc, ← List.reverse_append, List.takeWhile_append_dropWhile,
    List.reverse_reverse, List.takeWhile_append_dropWhile]

/-- A text that begins and ends with other characters is what is left when it is trimmed. -/
theorem trim_append {p : Char → Bool} {before text after : List Char}
    (hbefore : ∀ c ∈ before, p c = true) (hafter : ∀ c ∈ after, p c = true)
    (hfirst : ∀ c ∈ text.head?, p c = false) (hlast : ∀ c ∈ text.getLast?, p c = false)
    (hne : text ≠ []) : trim p (before ++ text ++ after) = text := by
  have hstop {text : List Char} (hne : text ≠ []) (hfirst : ∀ c ∈ text.head?, p c = false)
      (rest : List Char) : (text ++ rest).dropWhile p = text ++ rest := by
    obtain ⟨c, tail, rfl⟩ := List.exists_cons_of_ne_nil hne
    rw [List.cons_append, List.dropWhile_cons, hfirst c rfl]
    rfl
  have hrest : ∀ c ∈ after.reverse, p c = true := fun c hc => hafter c (List.mem_reverse.mp hc)
  rw [trim, List.append_assoc, List.dropWhile_append_of_pos hbefore, hstop hne hfirst,
    List.reverse_append, List.dropWhile_append_of_pos hrest, ← List.append_nil text.reverse,
    hstop (by simpa using hne) (by simpa using hlast), List.append_nil, List.reverse_reverse]

end Text

namespace Binary64

theorem pack_ne_nan (negative : Bool) (m s : Nat) : pack negative m s ≠ .nan := by
  unfold pack
  split <;> simp

theorem ofQuanta_ne_nan (negative : Bool) (num den : Nat) : ofQuanta negative num den ≠ .nan := by
  unfold ofQuanta
  dsimp only
  split <;> exact pack_ne_nan _ _ _

theorem ofInt_ne_nan (n : Int) : ofInt n ≠ .nan := ofQuanta_ne_nan _ _ _

theorem ofDecimal_ne_nan (negative : Bool) (digits : Nat) (exponent : Int) :
    ofDecimal negative digits exponent ≠ .nan := by
  unfold ofDecimal
  dsimp only
  split
  · simp
  split
  · simp
  split
  · simp
  split <;> exact ofQuanta_ne_nan _ _ _

theorem add_ne_nan {x y : Binary64} (hfinite : x.isFinite = true) (hy : y ≠ .nan) :
    x.add y ≠ .nan := by
  have hsum {p : Prop} [Decidable p] {a b : Binary64} (ha : a ≠ .nan) (hb : b ≠ .nan) :
      (if p then a else b) ≠ .nan := by
    split
    · exact ha
    · exact hb
  cases x with
  | nan | infinite => contradiction
  | finite =>
      cases y with
      | nan => contradiction
      | infinite => simp [add]
      | finite =>
          simp only [add]
          exact hsum (ofQuanta_ne_nan _ _ _) (ofQuanta_ne_nan _ _ _)

theorem mul_ne_nan {x y : Binary64} (hx : x ≠ .nan) (hfinite : y.isFinite = true)
    (hpositive : zero.lt y = true) : x.mul y ≠ .nan := by
  cases y with
  | nan | infinite => contradiction
  | finite negative m s canonical =>
      have hm : m ≠ 0 := by
        rintro rfl
        simp [lt, zero] at hpositive
      cases x with
      | nan => contradiction
      | infinite => simp only [mul, if_neg hm, ne_eq, reduceCtorEq, not_false_eq_true]
      | finite =>
        simp only [mul]
        exact ofQuanta_ne_nan _ _ _

/-- A double is more than zero, or it is zero or less, or it is no number. -/
theorem zero_lt_iff {x : Binary64} : zero.lt x = true ↔ x.le zero = false ∧ x ≠ .nan := by
  cases x with
  | nan => simp [lt, zero]
  | infinite negative => cases negative <;> simp [le, same, lt, zero]
  | finite negative m s canonical =>
      simp only [le, same, lt, zero]
      cases negative <;> simp <;> omega

end Binary64

namespace Numeral

/-- Whether a text spells the name of the double that is no number: the name in any letter case,
perhaps after a sign, with white space around. -/
def SpellsNan (text : String) : Prop := ∃ before sign name after : List Char,
  text.toList = before ++ (sign ++ name) ++ after ∧ (∀ c ∈ before, Text.isPadding c = true) ∧
    (∀ c ∈ after, Text.isPadding c = true) ∧ sign ∈ [[], ['+'], ['-']] ∧
    name.map Char.toLower = ['n', 'a', 'n']

theorem sign_spec (text : List Char) :
    ∃ mark ∈ [[], ['+'], ['-']], text = mark ++ (sign text).2 := by
  unfold sign
  split
  · exact ⟨['-'], by simp, rfl⟩
  · exact ⟨['+'], by simp, rfl⟩
  · exact ⟨[], by simp, rfl⟩

theorem named?_eq_nan_iff {name : List Char} {negative : Bool} :
    named? name negative = some .nan ↔ name.map Char.toLower = ['n', 'a', 'n'] := by
  rw [← String.ofList_inj]
  unfold named?
  split <;> simp_all

theorem magnitude?_ne_nan (negative : Bool) (body : List Char) :
    magnitude? negative body ≠ some .nan := by
  have hrest {p : Prop} [Decidable p] {e : Option Int} {digits : Nat} {places : Int}
      (h : (if p then none else e.bind fun exponent =>
        some (Binary64.ofDecimal negative digits (exponent - places))) = some .nan) : False := by
    split at h
    · contradiction
    · obtain ⟨exponent, -, hx⟩ := Option.bind_eq_some_iff.mp h
      exact Binary64.ofDecimal_ne_nan _ _ _ (Option.some.inj hx)
  intro h
  obtain ⟨⟨units, afterUnits⟩, -, hunits⟩ := Option.bind_eq_some_iff.mp h
  dsimp only at hunits
  split at hunits
  next rest =>
    obtain ⟨⟨places, afterPlaces⟩, -, hplaces⟩ := Option.bind_eq_some_iff.mp hunits
    exact hrest hplaces
  next rest _ => exact hrest hunits

theorem mem_of_toLower {c small large : Char} (hcase : small.toNat = large.toNat + 32)
    (h : c.toLower = small) : c ∈ [small, large] := by
  unfold Char.toLower at h
  split at h
  next hupper =>
    have hrange : 65 ≤ c.toNat ∧ c.toNat ≤ 90 := hupper
    have hsum : (c.toNat + 32) % 2 ^ 32 = small.toNat := by
      rw [← h]
      exact (UInt32.toNat_add c.val 32).symm
    have hlarge : c = large := Char.toNat_inj.mp (by omega)
    exact List.mem_cons_of_mem _ (List.mem_singleton.mpr hlarge)
  next => exact List.mem_cons.mpr (.inl h)

/-- What is left of a spelling of the name when it is trimmed and its sign is taken away. -/
theorem name_of_spelling {before mark name after : List Char}
    (hbefore : ∀ c ∈ before, Text.isPadding c = true)
    (hafter : ∀ c ∈ after, Text.isPadding c = true) (hmark : mark ∈ [[], ['+'], ['-']])
    (hname : name.map Char.toLower = ['n', 'a', 'n']) :
    (sign (Text.trim Text.isPadding (before ++ (mark ++ name) ++ after))).2 = name := by
  obtain ⟨first, tail, rfl, hfirst, htail⟩ := List.map_eq_cons_iff.mp hname
  obtain ⟨middle, tail, rfl, -, htail⟩ := List.map_eq_cons_iff.mp htail
  obtain ⟨last, tail, rfl, hlast, htail⟩ := List.map_eq_cons_iff.mp htail
  obtain rfl := List.map_eq_nil_iff.mp htail
  have hletter {c : Char} (hc : c ∈ ['n', 'N']) : Text.isPadding c = false ∧ c ≠ '-' ∧ c ≠ '+' := by
    simp only [List.mem_cons, List.not_mem_nil, or_false] at hc
    rcases hc with rfl | rfl <;> decide +kernel
  obtain ⟨hfirst, hminus, hplus⟩ := hletter (mem_of_toLower (by rfl) hfirst)
  have hlast := (hletter (mem_of_toLower (by rfl) hlast)).1
  rw [Text.trim_append hbefore hafter ?_ (by simpa using hlast) (by simp)]
  · simp only [List.mem_cons, List.not_mem_nil, or_false] at hmark
    obtain rfl | rfl | rfl := hmark
    · unfold sign
      simp [hminus, hplus]
    · rfl
    · rfl
  · simp only [List.mem_cons, List.not_mem_nil, or_false] at hmark
    obtain rfl | rfl | rfl := hmark
    · simpa using hfirst
    · exact fun c hc => (Option.some.inj hc) ▸ by decide +kernel
    · exact fun c hc => (Option.some.inj hc) ▸ by decide +kernel

/-- The texts that are read as no number are the spellings of its name. -/
theorem real_eq_nan_iff {text : String} : real text = .ok .nan ↔ SpellsNan text := by
  have hread : real text = .ok .nan ↔
      (sign (Text.trim Text.isPadding text.toList)).2.map Char.toLower = ['n', 'a', 'n'] := by
    unfold real
    rcases sign (Text.trim Text.isPadding text.toList) with ⟨negative, body⟩
    have hname : named? body negative = some .nan ↔ body.map Char.toLower = ['n', 'a', 'n'] :=
      named?_eq_nan_iff
    rw [← hname]
    dsimp only
    cases hnamed : named? body negative with
    | some x => simp
    | none =>
        cases hmagnitude : magnitude? negative body with
        | some x =>
            have hne : x ≠ .nan := fun heq => magnitude?_ne_nan _ _ (heq ▸ hmagnitude)
            simpa using hne
        | none => simp
  rw [hread]
  constructor
  · intro hname
    obtain ⟨before, after, htext, hbefore, hafter⟩ := Text.trim_spec Text.isPadding text.toList
    obtain ⟨mark, hmark, htrimmed⟩ := sign_spec (Text.trim Text.isPadding text.toList)
    rw [htrimmed] at htext
    exact ⟨before, mark, _, after, htext, hbefore, hafter, hmark, hname⟩
  · rintro ⟨before, mark, name, after, htext, hbefore, hafter, hmark, hname⟩
    rw [htext, name_of_spelling hbefore hafter hmark hname]
    exact hname

end Numeral

end SupplyGauge
