import SupplyGauge.Text.Utf8

/-! # Which octets are a text

The octets of a character begin with one that says how many follow, and no two characters share
their octets. So decoding octets step by step finds the only text of which they are the encoding,
and refuses octets that encode none.
-/

namespace SupplyGauge.Utf8

deriving instance DecidableEq for Lead

/-! ## One character -/

/-- What an octet says, by the number of octets that follow it. -/
theorem lead?_ofNat : ∀ n < 256, lead? (UInt8.ofNat n) =
    if n < 0x80 then some ⟨0, 0x80, 0xBF, n⟩
    else if n < 0xC2 then none
    else if n < 0xE0 then some ⟨1, 0x80, 0xBF, n - 0xC0⟩
    else if n < 0xF0 then
      some ⟨2, if n = 0xE0 then 0xA0 else 0x80, if n = 0xED then 0x9F else 0xBF, n - 0xE0⟩
    else if n < 0xF5 then
      some ⟨3, if n = 0xF0 then 0x90 else 0x80, if n = 0xF4 then 0x8F else 0xBF, n - 0xF0⟩
    else none := by
  decide +kernel

/-- Reading one octet more takes the next one, which lies in the range. -/
theorem readTails_succ_iff {tails bits used code total : Nat} {low high : UInt8}
    {rest : List UInt8} :
    readTails (tails + 1) low high bits used rest = .ok (code, total) ↔
      ∃ b more, rest = b :: more ∧ (low.toNat ≤ b.toNat ∧ b.toNat ≤ high.toNat) ∧
        readTails tails 0x80 0xBF (bits * 64 + (b.toNat - 0x80)) (used + 1) more =
          .ok (code, total) := by
  cases rest with
  | nil => simp [readTails]
  | cons b more =>
      rw [readTails]
      constructor
      · intro h
        split at h
        next hrange =>
          exact ⟨b, more, rfl, hrange.imp UInt8.le_iff_toNat_le.mp UInt8.le_iff_toNat_le.mp, h⟩
        next => contradiction
      · rintro ⟨b', more', hrest, hrange, h⟩
        obtain ⟨rfl, rfl⟩ := List.cons.inj hrest
        rw [if_pos (hrange.imp UInt8.le_iff_toNat_le.mpr UInt8.le_iff_toNat_le.mpr), h]

theorem readTails_zero_iff {bits used code total : Nat} {low high : UInt8} {rest : List UInt8} :
    readTails 0 low high bits used rest = .ok (code, total) ↔ bits = code ∧ used = total := by
  simp [readTails]

/-- A range that is narrower at two values. -/
theorem range_ite_iff {p q : Prop} [Decidable p] [Decidable q] {low low' high high' n : Nat}
    (hlow : low ≤ low') (hhigh : high' ≤ high) :
    ((if p then low' else low) ≤ n ∧ n ≤ if q then high' else high) ↔
      (low ≤ n ∧ n ≤ high) ∧ (p → low' ≤ n) ∧ (q → n ≤ high') := by
  split <;> split <;> simp_all <;> omega

section Steps

variable {b : UInt8} {rest : List UInt8} {c : Char} {used : Nat}

theorem lead?_eq {l : Option Lead} (h : lead? (UInt8.ofNat b.toNat) = l) : lead? b = l := by
  rwa [UInt8.ofNat_toNat] at h

theorem step_of_lead {l : Lead} (hl : lead? b = some l) : step b rest = .ok (c, used) ↔
    ∃ code, readTails l.tails l.low l.high l.bits 1 rest = .ok (code, used) ∧
      c = Char.ofNat code := by
  simp only [step, hl]
  constructor
  · intro h
    split at h
    next code total hread =>
      obtain ⟨rfl, rfl⟩ := Prod.mk.inj (Except.ok.inj h)
      exact ⟨code, hread, rfl⟩
    next => contradiction
  · rintro ⟨code, hread, rfl⟩
    simp only [hread]

/-- Octets that begin no character. -/
theorem step_none (h : 0x80 ≤ b.toNat ∧ b.toNat < 0xC2 ∨ 0xF5 ≤ b.toNat) :
    step b rest = .error (.badStart, 1) := by
  have hl : lead? b = none := by
    refine lead?_eq ?_
    rw [lead?_ofNat _ b.toNat_lt, if_neg (by omega)]
    rcases h with h | h
    · rw [if_pos h.2]
    · rw [if_neg (by omega), if_neg (by omega), if_neg (by omega), if_neg (by omega)]
  simp only [step, hl]

theorem step_one_iff (h : b.toNat < 0x80) :
    step b rest = .ok (c, used) ↔ c = Char.ofNat b.toNat ∧ used = 1 := by
  have hl : lead? b = some ⟨0, 0x80, 0xBF, b.toNat⟩ :=
    lead?_eq ((lead?_ofNat _ b.toNat_lt).trans (if_pos h))
  simp only [step_of_lead hl, readTails_zero_iff]
  constructor
  · rintro ⟨code, ⟨rfl, rfl⟩, rfl⟩
    exact ⟨rfl, rfl⟩
  · rintro ⟨rfl, rfl⟩
    exact ⟨_, ⟨rfl, rfl⟩, rfl⟩

theorem step_two_iff (h : 0xC2 ≤ b.toNat) (h' : b.toNat < 0xE0) :
    step b rest = .ok (c, used) ↔ ∃ b₁ more, rest = b₁ :: more ∧
      (0x80 ≤ b₁.toNat ∧ b₁.toNat ≤ 0xBF) ∧
      c = Char.ofNat ((b.toNat - 0xC0) * 64 + (b₁.toNat - 0x80)) ∧ used = 2 := by
  have hl : lead? b = some ⟨1, 0x80, 0xBF, b.toNat - 0xC0⟩ := by
    refine lead?_eq ?_
    rw [lead?_ofNat _ b.toNat_lt, if_neg (by omega), if_neg (by omega), if_pos h']
  simp only [step_of_lead hl, readTails_zero_iff, readTails_succ_iff, UInt8.reduceToNat]
  constructor
  · rintro ⟨code, ⟨b₁, more, hrest, hrange, hcode, hused⟩, hc⟩
    exact ⟨b₁, more, hrest, hrange, by rw [hc, hcode], hused.symm⟩
  · rintro ⟨b₁, more, hrest, hrange, hc, hused⟩
    exact ⟨_, ⟨b₁, more, hrest, hrange, rfl, hused.symm⟩, hc⟩

theorem step_three_iff (h : 0xE0 ≤ b.toNat) (h' : b.toNat < 0xF0) :
    step b rest = .ok (c, used) ↔ ∃ b₁ b₂ more, rest = b₁ :: b₂ :: more ∧
      ((0x80 ≤ b₁.toNat ∧ b₁.toNat ≤ 0xBF) ∧ (b.toNat = 0xE0 → 0xA0 ≤ b₁.toNat) ∧
        (b.toNat = 0xED → b₁.toNat ≤ 0x9F)) ∧
      (0x80 ≤ b₂.toNat ∧ b₂.toNat ≤ 0xBF) ∧
      c = Char.ofNat (((b.toNat - 0xE0) * 64 + (b₁.toNat - 0x80)) * 64 + (b₂.toNat - 0x80)) ∧
      used = 3 := by
  have hl : lead? b = some ⟨2, if b.toNat = 0xE0 then 0xA0 else 0x80,
      if b.toNat = 0xED then 0x9F else 0xBF, b.toNat - 0xE0⟩ := by
    refine lead?_eq ?_
    rw [lead?_ofNat _ b.toNat_lt, if_neg (by omega), if_neg (by omega), if_neg (by omega),
      if_pos h']
  simp only [step_of_lead hl, readTails_zero_iff, readTails_succ_iff, apply_ite UInt8.toNat,
    UInt8.reduceToNat]
  constructor
  · rintro ⟨code, ⟨b₁, more, hrest, hrange₁, b₂, more, rfl, hrange₂, hcode, hused⟩, hc⟩
    exact ⟨b₁, b₂, more, hrest, (range_ite_iff (by decide) (by decide)).mp hrange₁, hrange₂,
      by rw [hc, hcode], hused.symm⟩
  · rintro ⟨b₁, b₂, more, hrest, hrange₁, hrange₂, hc, hused⟩
    exact ⟨_, ⟨b₁, _, hrest, (range_ite_iff (by decide) (by decide)).mpr hrange₁, b₂, more, rfl,
      hrange₂, rfl, hused.symm⟩, hc⟩

theorem step_four_iff (h : 0xF0 ≤ b.toNat) (h' : b.toNat < 0xF5) :
    step b rest = .ok (c, used) ↔ ∃ b₁ b₂ b₃ more, rest = b₁ :: b₂ :: b₃ :: more ∧
      ((0x80 ≤ b₁.toNat ∧ b₁.toNat ≤ 0xBF) ∧ (b.toNat = 0xF0 → 0x90 ≤ b₁.toNat) ∧
        (b.toNat = 0xF4 → b₁.toNat ≤ 0x8F)) ∧
      (0x80 ≤ b₂.toNat ∧ b₂.toNat ≤ 0xBF) ∧ (0x80 ≤ b₃.toNat ∧ b₃.toNat ≤ 0xBF) ∧
      c = Char.ofNat ((((b.toNat - 0xF0) * 64 + (b₁.toNat - 0x80)) * 64 + (b₂.toNat - 0x80)) * 64 +
        (b₃.toNat - 0x80)) ∧
      used = 4 := by
  have hl : lead? b = some ⟨3, if b.toNat = 0xF0 then 0x90 else 0x80,
      if b.toNat = 0xF4 then 0x8F else 0xBF, b.toNat - 0xF0⟩ := by
    refine lead?_eq ?_
    rw [lead?_ofNat _ b.toNat_lt, if_neg (by omega), if_neg (by omega), if_neg (by omega),
      if_neg (by omega), if_pos h']
  simp only [step_of_lead hl, readTails_zero_iff, readTails_succ_iff, apply_ite UInt8.toNat,
    UInt8.reduceToNat]
  constructor
  · rintro ⟨code, ⟨b₁, more, hrest, hrange₁, b₂, more, rfl, hrange₂, b₃, more, rfl, hrange₃, hcode,
      hused⟩, hc⟩
    exact ⟨b₁, b₂, b₃, more, hrest, (range_ite_iff (by decide) (by decide)).mp hrange₁, hrange₂,
      hrange₃, by rw [hc, hcode], hused.symm⟩
  · rintro ⟨b₁, b₂, b₃, more, hrest, hrange₁, hrange₂, hrange₃, hc, hused⟩
    exact ⟨_, ⟨b₁, _, hrest, (range_ite_iff (by decide) (by decide)).mpr hrange₁, b₂, _, rfl,
      hrange₂, b₃, more, rfl, hrange₃, rfl, hused.symm⟩, hc⟩

end Steps

/-! ## Encoding a character -/

theorem toNat_ofNat {n : Nat} (h : n.isValidChar) : (Char.ofNat n).toNat = n := by
  rw [Char.ofNat, dif_pos h]
  rfl

theorem toNat_octet {n : Nat} (h : n < 256) : (UInt8.ofNat n).toNat = n := by
  rw [UInt8.toNat_ofNat', Nat.mod_eq_of_lt h]

theorem octet_eq {n : Nat} {b : UInt8} (h : n = b.toNat) : UInt8.ofNat n = b := by
  rw [h, UInt8.ofNat_toNat]

theorem encodeChar_eq (c : Char) : String.utf8EncodeChar c =
    if c.toNat ≤ 0x7F then [UInt8.ofNat c.toNat]
    else if c.toNat ≤ 0x7FF then
      [UInt8.ofNat (c.toNat / 64 % 32 + 192), UInt8.ofNat (c.toNat % 64 + 128)]
    else if c.toNat ≤ 0xFFFF then
      [UInt8.ofNat (c.toNat / 4096 % 16 + 224), UInt8.ofNat (c.toNat / 64 % 64 + 128),
        UInt8.ofNat (c.toNat % 64 + 128)]
    else
      [UInt8.ofNat (c.toNat / 262144 % 8 + 240), UInt8.ofNat (c.toNat / 4096 % 64 + 128),
        UInt8.ofNat (c.toNat / 64 % 64 + 128), UInt8.ofNat (c.toNat % 64 + 128)] := rfl

theorem encodeChar_ne_nil (c : Char) : String.utf8EncodeChar c ≠ [] := by
  rw [encodeChar_eq]
  repeat' split
  all_goals simp

/-- A step of decoding finds the character whose octets are in front, and no other one. -/
theorem step_eq_ok_iff {b : UInt8} {rest : List UInt8} {c : Char} {used : Nat} :
    step b rest = .ok (c, used) ↔ ∃ tail more, rest = tail ++ more ∧
      String.utf8EncodeChar c = b :: tail ∧ used = tail.length + 1 := by
  constructor
  · intro h
    rcases Nat.lt_or_ge b.toNat 0x80 with hb | hb
    · obtain ⟨hc, rfl⟩ := (step_one_iff hb).mp h
      have hcode : c.toNat = b.toNat := by rw [hc, toNat_ofNat (.inl (by omega))]
      refine ⟨[], rest, rfl, ?_, rfl⟩
      rw [encodeChar_eq, if_pos (by omega), octet_eq hcode]
    rcases Nat.lt_or_ge b.toNat 0xC2 with hb' | hb
    · rw [step_none (.inl ⟨hb, hb'⟩)] at h
      contradiction
    rcases Nat.lt_or_ge b.toNat 0xE0 with hb' | hb
    · obtain ⟨b₁, more, rfl, h₁, hc, rfl⟩ := (step_two_iff hb hb').mp h
      have hcode := congrArg Char.toNat hc
      rw [toNat_ofNat (.inl (by omega))] at hcode
      refine ⟨[b₁], more, rfl, ?_, rfl⟩
      rw [encodeChar_eq, if_neg (by omega), if_pos (by omega), octet_eq (b := b) (by omega),
        octet_eq (b := b₁) (by omega)]
    rcases Nat.lt_or_ge b.toNat 0xF0 with hb' | hb
    · obtain ⟨b₁, b₂, more, rfl, h₁, h₂, hc, rfl⟩ := (step_three_iff hb hb').mp h
      have hcode := congrArg Char.toNat hc
      rw [toNat_ofNat (by unfold Nat.isValidChar; omega)] at hcode
      refine ⟨[b₁, b₂], more, rfl, ?_, rfl⟩
      rw [encodeChar_eq, if_neg (by omega), if_neg (by omega), if_pos (by omega),
        octet_eq (b := b) (by omega), octet_eq (b := b₁) (by omega), octet_eq (b := b₂) (by omega)]
    rcases Nat.lt_or_ge b.toNat 0xF5 with hb' | hb
    · obtain ⟨b₁, b₂, b₃, more, rfl, h₁, h₂, h₃, hc, rfl⟩ := (step_four_iff hb hb').mp h
      have hcode := congrArg Char.toNat hc
      rw [toNat_ofNat (by unfold Nat.isValidChar; omega)] at hcode
      refine ⟨[b₁, b₂, b₃], more, rfl, ?_, rfl⟩
      rw [encodeChar_eq, if_neg (by omega), if_neg (by omega), if_neg (by omega),
        octet_eq (b := b) (by omega), octet_eq (b := b₁) (by omega), octet_eq (b := b₂) (by omega),
        octet_eq (b := b₃) (by omega)]
    · rw [step_none (.inr hb)] at h
      contradiction
  · rintro ⟨tail, more, rfl, hencode, rfl⟩
    have hvalid : c.toNat < 0xD800 ∨ 0xDFFF < c.toNat ∧ c.toNat < 0x110000 := c.valid
    have hchar {n : Nat} (h : n = c.toNat) : c = Char.ofNat n := by rw [h, Char.ofNat_toNat]
    rw [encodeChar_eq] at hencode
    split at hencode
    next h₁ =>
      obtain ⟨hb, rfl⟩ := List.cons.inj hencode
      have hb : b.toNat = c.toNat := by rw [← hb, toNat_octet (by omega)]
      exact (step_one_iff (by omega)).mpr ⟨hchar hb, rfl⟩
    split at hencode
    next h₁ h₂ =>
      obtain ⟨hb, rfl⟩ := List.cons.inj hencode
      have hb : b.toNat = c.toNat / 64 + 192 := by rw [← hb, toNat_octet (by omega)]; omega
      have hb₁ := toNat_octet (n := c.toNat % 64 + 128) (by omega)
      exact (step_two_iff (by omega) (by omega)).mpr
        ⟨_, more, rfl, by omega, hchar (by omega), rfl⟩
    split at hencode
    next h₁ h₂ h₃ =>
      obtain ⟨hb, rfl⟩ := List.cons.inj hencode
      have hb : b.toNat = c.toNat / 4096 + 224 := by rw [← hb, toNat_octet (by omega)]; omega
      have hb₁ := toNat_octet (n := c.toNat / 64 % 64 + 128) (by omega)
      have hb₂ := toNat_octet (n := c.toNat % 64 + 128) (by omega)
      exact (step_three_iff (by omega) (by omega)).mpr
        ⟨_, _, more, rfl, by omega, by omega, hchar (by omega), rfl⟩
    next h₁ h₂ h₃ =>
      obtain ⟨hb, rfl⟩ := List.cons.inj hencode
      have hb : b.toNat = c.toNat / 262144 + 240 := by rw [← hb, toNat_octet (by omega)]; omega
      have hb₁ := toNat_octet (n := c.toNat / 4096 % 64 + 128) (by omega)
      have hb₂ := toNat_octet (n := c.toNat / 64 % 64 + 128) (by omega)
      have hb₃ := toNat_octet (n := c.toNat % 64 + 128) (by omega)
      exact (step_four_iff (by omega) (by omega)).mpr
        ⟨_, _, _, more, rfl, by omega, by omega, by omega, hchar (by omega), rfl⟩

/-! ## A whole text -/

/-- Octets are listed from the place where listing begins, after those listed before. -/
theorem toList_loop (bytes : ByteArray) (i : Nat) (listed : List UInt8) :
    ByteArray.toList.loop bytes i listed = listed.reverse ++ bytes.data.toList.drop i := by
  induction hn : bytes.size - i generalizing i listed with
  | zero =>
      rw [ByteArray.toList.loop, if_neg (by omega), List.drop_eq_nil_of_le, List.append_nil]
      exact Nat.le_of_sub_eq_zero hn
  | succ n ih =>
      have hi : i < bytes.size := by omega
      have hget : bytes.get! i = bytes.data.toList.get ⟨i, hi⟩ := getElem!_pos bytes.data i hi
      rw [ByteArray.toList.loop, if_pos hi, ih _ _ (by omega), List.reverse_cons, List.append_assoc,
        hget, List.singleton_append, List.get_eq_getElem, ← List.drop_eq_getElem_cons]

theorem encode_eq (text : String) : encode text = text.toList.flatMap String.utf8EncodeChar := by
  obtain ⟨chars, rfl⟩ : ∃ chars, text = String.ofList chars := ⟨_, String.ofList_toList.symm⟩
  unfold encode String.toUTF8 ByteArray.toList
  rw [toList_loop, String.toList_ofList]
  exact List.toList_data_toByteArray

/-- Decoding gives a text exactly if the octets are those of the text. -/
theorem decodeFrom_eq_ok_iff {position : Nat} {bytes : List UInt8} {text : List Char} :
    decodeFrom position bytes = .ok text ↔ text.flatMap String.utf8EncodeChar = bytes := by
  constructor
  · intro h
    induction position, bytes using decodeFrom.induct generalizing text with
    | case1 position =>
        rw [decodeFrom] at h
        rw [← Except.ok.inj h, List.flatMap_nil]
    | case2 position b rest c used hstep later hlater ih =>
        simp only [decodeFrom, hstep, hlater] at h
        obtain ⟨tail, more, rfl, hencode, rfl⟩ := step_eq_ok_iff.mp hstep
        rw [Nat.add_sub_cancel, List.drop_left] at ih hlater
        rw [← Except.ok.inj h, List.flatMap_cons, hencode, ih hlater, List.cons_append]
    | case3 position b rest c used hstep failure hlater =>
        simp only [decodeFrom, hstep, hlater] at h
        contradiction
    | case4 position b rest fault used hstep =>
        simp only [decodeFrom, hstep] at h
        contradiction
  · rintro rfl
    induction text generalizing position with
    | nil => simp [decodeFrom]
    | cons c text ih =>
        obtain ⟨b, tail, hc⟩ := List.exists_cons_of_ne_nil (encodeChar_ne_nil c)
        rw [List.flatMap_cons, hc, List.cons_append, decodeFrom,
          step_eq_ok_iff.mpr ⟨tail, _, rfl, hc, rfl⟩]
        simp [ih]

/-- Decoding finds the text of which the octets are the encoding. -/
theorem decode_eq_ok_iff {bytes : List UInt8} {text : String} :
    decode bytes = .ok text.toList ↔ encode text = bytes := by
  rw [encode_eq]
  exact decodeFrom_eq_ok_iff

/-- Decoding fails if the octets are the encoding of no text. -/
theorem decode_eq_error_iff {bytes : List UInt8} :
    (∃ failure, decode bytes = .error failure) ↔ ∀ text, encode text ≠ bytes := by
  constructor
  · rintro ⟨failure, h⟩ text htext
    rw [decode_eq_ok_iff.mpr htext] at h
    contradiction
  · intro h
    cases hdecode : decode bytes with
    | error failure => exact ⟨failure, rfl⟩
    | ok chars =>
        rw [← String.toList_ofList (l := chars)] at hdecode
        exact absurd (decode_eq_ok_iff.mp hdecode) (h _)

end SupplyGauge.Utf8
