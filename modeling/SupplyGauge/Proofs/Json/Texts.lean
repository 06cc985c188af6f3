import Mathlib.Tactic.SplitIfs
import SupplyGauge.Proofs.Json.Grammar

/-! # Texts are read as they were written

A text is written in printable ASCII: characters that have a short escape by it, others by
their UTF-16 units. Readers find the same units, and join them to the same characters.
-/

namespace SupplyGauge.Json

/-! ## Escapes of units -/

theorem hexValue?_hexDigit {n : Nat} (h : n < 16) : hexValue? (Text.hexDigit n) = some n := by
  have hall : ∀ n < 16, hexValue? (Text.hexDigit n) = some n := by decide +kernel
  exact hall n h

theorem hexUnit?_hex {u : Nat} (h : u < 65536) :
    hexUnit? (Text.hexDigit (u / 16 / 16 / 16 % 16)) (Text.hexDigit (u / 16 / 16 % 16))
      (Text.hexDigit (u / 16 % 16)) (Text.hexDigit (u % 16)) = some u := by
  unfold hexUnit?
  rw [hexValue?_hexDigit (Nat.mod_lt _ (by decide)), hexValue?_hexDigit (Nat.mod_lt _ (by decide)),
    hexValue?_hexDigit (Nat.mod_lt _ (by decide)), hexValue?_hexDigit (Nat.mod_lt _ (by decide))]
  refine congrArg some ?_
  omega

section Units

variable {text rest : List Char} {later : List Nat}

theorem readUnits16_unit {u : Nat} (h : u < 65536) (htext : readUnits16 text = some (later, rest)) :
    readUnits16 ('\\' :: 'u' :: Text.hex 4 u ++ text) = some (u :: later, rest) := by
  simp only [Text.hex, List.nil_append, List.cons_append]
  rw [readUnits16, hexUnit?_hex h, htext]
  rfl

theorem readUnits16_units {units : List Nat} (h : ∀ u ∈ units, u < 65536)
    (htext : readUnits16 text = some (later, rest)) :
    readUnits16 ((units.flatMap fun u => '\\' :: 'u' :: Text.hex 4 u) ++ text) =
      some (units ++ later, rest) := by
  induction units with
  | nil => exact htext
  | cons u units ih =>
      rw [List.flatMap_cons, List.append_assoc]
      have hlater : ∀ v ∈ units, v < 65536 := fun v hv => h v (List.mem_cons_of_mem _ hv)
      exact readUnits16_unit (h u List.mem_cons_self) (ih hlater)

theorem readUnits16_short {c : Char} {unit : Nat} (h : shortEscape? c = some unit)
    (htext : readUnits16 text = some (later, rest)) :
    readUnits16 ('\\' :: c :: text) = some (unit :: later, rest) := by
  -- `u` is no short escape, so the case of four digits does not come first
  rw [readUnits16.eq_4, h, htext]
  · rfl
  · rintro a b d e rest rfl
    contradiction

theorem readUnits16_plain {c : Char} (hquote : c ≠ '"') (hescape : c ≠ '\\') (h : 32 ≤ c.toNat)
    (htext : readUnits16 text = some (later, rest)) :
    readUnits16 (c :: text) = some (units16 c ++ later, rest) := by
  rw [readUnits16.eq_5, if_neg (by simp [hescape, h]), htext]
  · rfl
  · exact hquote
  · exact fun _ _ _ _ _ hc _ => hescape hc
  · exact fun _ _ hc _ => hescape hc

theorem toNat_valid (c : Char) :
    c.toNat < 0xD800 ∨ 0xDFFF < c.toNat ∧ c.toNat < 0x110000 := c.valid

theorem units16_lt {c : Char} : ∀ u ∈ units16 c, u < 65536 := by
  have hvalid := toNat_valid c
  intro u hu
  unfold units16 at hu
  split at hu
  next h =>
    rw [List.mem_singleton] at hu
    omega
  next h =>
    simp only [List.mem_cons, List.not_mem_nil, or_false] at hu
    omega

/-- A character is read as its units, in whatever way it is escaped. -/
theorem readUnits16_escapeChar (c : Char) (htext : readUnits16 text = some (later, rest)) :
    readUnits16 (escapeChar c ++ text) = some (units16 c ++ later, rest) := by
  unfold escapeChar
  split_ifs with hmark hfeed hreturn htab hback hform hplain
  · rcases hmark with rfl | rfl
    · exact readUnits16_short rfl htext
    · exact readUnits16_short rfl htext
  · subst hfeed
    exact readUnits16_short rfl htext
  · subst hreturn
    exact readUnits16_short rfl htext
  · subst htab
    exact readUnits16_short rfl htext
  · subst hback
    exact readUnits16_short rfl htext
  · subst hform
    exact readUnits16_short rfl htext
  · rw [not_or] at hmark
    exact readUnits16_plain hmark.1 hmark.2 hplain.1 htext
  · exact readUnits16_units units16_lt htext

end Units

/-! ## Joining units -/

/-- The units of a character are joined to the character. -/
theorem joinUnits_units16 (c : Char) (later : List Nat) :
    joinUnits (units16 c ++ later) = c :: joinUnits later := by
  have hvalid := toNat_valid c
  have hself : Char.ofNat c.toNat = c := c.ofNat_toNat
  unfold units16
  split
  next hlow =>
    have hchar : unitChar c.toNat = c := by
      unfold unitChar
      rw [if_neg, hself]
      rcases hvalid with h | h <;> omega
    cases later with
    | nil => rw [List.append_nil, joinUnits, joinUnits, hchar]
    | cons unit later =>
        have hsingle : ¬ (0xD800 ≤ c.toNat ∧ c.toNat < 0xDC00 ∧ 0xDC00 ≤ unit ∧ unit < 0xE000) := by
          rcases hvalid with h | h <;> omega
        rw [List.singleton_append, joinUnits, if_neg hsingle, hchar]
  next hhigh =>
    rw [List.cons_append, List.singleton_append, joinUnits, if_pos (by omega)]
    have hsum : 0x10000 + (0xD800 + (c.toNat - 0x10000) / 0x400 - 0xD800) * 0x400 +
        (0xDC00 + (c.toNat - 0x10000) % 0x400 - 0xDC00) = c.toNat := by omega
    rw [hsum, hself]

theorem joinUnits_flatMap (chars : List Char) : joinUnits (chars.flatMap units16) = chars := by
  induction chars with
  | nil => rfl
  | cons c chars ih => rw [List.flatMap_cons, joinUnits_units16, ih]

/-- A text between quotes is read as the text, and ends at its closing quote. -/
theorem readText_quote (s : String) (rest : List Char) :
    readText (s.toList.flatMap escapeChar ++ '"' :: rest) = some (s, rest) := by
  have hunits (chars : List Char) : readUnits16 (chars.flatMap escapeChar ++ '"' :: rest) =
      some (chars.flatMap units16, rest) := by
    induction chars with
    | nil => rfl
    | cons c chars ih =>
        rw [List.flatMap_cons, List.append_assoc]
        exact readUnits16_escapeChar c ih
  rw [readText, hunits]
  simp only [Option.bind_eq_bind, Option.bind_some, joinUnits_flatMap, String.ofList_toList]

theorem quote_toList (s : String) : (quote s).toList =
    '"' :: (s.toList.flatMap escapeChar ++ ['"']) := by
  rw [quote, String.toList_ofList]

end SupplyGauge.Json
