import SupplyGauge.Proofs.Text.Utf8

/-! # Octets that are no text

Where no character is in front of octets, the longest part with which a character could
still begin stands for one U+FFFD, or the first octet if there is no such part. Lenient
decoding is the only reading of this kind. An octet that continues no character parts what
stands before it from what stands after it, so the two can be decoded apart.
-/

namespace SupplyGauge.Utf8

/-- Octets with which the octets of some character begin. -/
def Begins (part : List UInt8) : Prop := ∃ c : Char, part <+: String.utf8EncodeChar c

/-- A part that stands for U+FFFD before the rest of the octets: no character is in front, and the
part is the longest one with which a character begins, or else a single octet. -/
structure Undecodable (part rest : List UInt8) : Prop where
  ne_nil : part ≠ []
  noCharacter : ∀ c : Char, ¬ String.utf8EncodeChar c <+: part ++ rest
  initial : Begins part ∨ part.length = 1
  longest : ∀ more, more ≠ [] → more <+: rest → ¬ Begins (part ++ more)

/-- A reading of octets as a text: characters where their octets stand, and U+FFFD for each part
that is undecodable. -/
inductive Replaced : List UInt8 → List Char → Prop
  | nil : Replaced [] []
  | character (c : Char) {rest : List UInt8} {text : List Char} (later : Replaced rest text) :
      Replaced (String.utf8EncodeChar c ++ rest) (c :: text)
  | part {part rest : List UInt8} {text : List Char} (undecodable : Undecodable part rest)
      (later : Replaced rest text) : Replaced (part ++ rest) ('\uFFFD' :: text)

/-! ## The part that a failed step covers -/

/-- Whatever the first range is, some octets complete a character. -/
theorem exists_readTails {low high : UInt8} (hrange : low ≤ high) (tails bits used : Nat) :
    ∃ more code total, readTails tails low high bits used more = .ok (code, total) := by
  induction tails generalizing low high bits used with
  | zero => exact ⟨[], bits, used, rfl⟩
  | succ tails ih =>
      have hrange' : (0x80 : UInt8) ≤ 0xBF := by decide
      obtain ⟨more, code, total, h⟩ := ih hrange' (bits * 64 + (low.toNat - 0x80)) (used + 1)
      refine ⟨low :: more, code, total, readTails_succ_iff.mpr ⟨low, more, rfl, ?_, h⟩⟩
      exact ⟨Nat.le_refl _, UInt8.le_iff_toNat_le.mp hrange⟩

/-- Reading that fails has taken octets that could be completed, and with the next one they could
not. -/
theorem readTails_error {tails bits used n : Nat} {low high : UInt8} {rest : List UInt8}
    {fault : Fault} (hrange : low ≤ high)
    (h : readTails tails low high bits used rest = .error (fault, n)) :
    ∃ good bad, rest = good ++ bad ∧ n = used + good.length ∧
      (∃ more code total, readTails tails low high bits used (good ++ more) = .ok (code, total)) ∧
      ∀ b bad' more code total, bad = b :: bad' →
        readTails tails low high bits used (good ++ b :: more) ≠ .ok (code, total) := by
  induction tails generalizing low high bits used rest with
  | zero => simp [readTails] at h
  | succ tails ih =>
      cases rest with
      | nil =>
          obtain ⟨-, rfl⟩ := Prod.mk.inj (Except.error.inj h)
          exact ⟨[], [], rfl, rfl, exists_readTails hrange _ _ _, fun b bad' more _ _ hbad => by
            contradiction⟩
      | cons b rest =>
          rw [readTails] at h
          split at h
          next hb =>
            obtain ⟨good, bad, rfl, rfl, ⟨more, code, total, hgood⟩, hbad⟩ := ih (by decide) h
            have hb := hb.imp UInt8.le_iff_toNat_le.mp UInt8.le_iff_toNat_le.mp
            refine ⟨b :: good, bad, rfl, by rw [List.length_cons]; omega, ?_, ?_⟩
            · exact ⟨more, code, total, readTails_succ_iff.mpr ⟨b, _, rfl, hb, hgood⟩⟩
            · intro x bad' more code total hx hok
              obtain ⟨y, ys, hys, -, hok⟩ := readTails_succ_iff.mp hok
              obtain ⟨rfl, rfl⟩ := List.cons.inj hys
              exact hbad x bad' more code total hx hok
          next hb =>
            obtain ⟨-, rfl⟩ := Prod.mk.inj (Except.error.inj h)
            refine ⟨[], b :: rest, rfl, rfl, exists_readTails hrange _ _ _, ?_⟩
            intro x bad' more code total hx hok
            obtain ⟨rfl, rfl⟩ := List.cons.inj hx
            obtain ⟨y, ys, hys, hy, -⟩ := readTails_succ_iff.mp hok
            obtain ⟨rfl, rfl⟩ := List.cons.inj hys
            exact hb (hy.imp UInt8.le_iff_toNat_le.mpr UInt8.le_iff_toNat_le.mpr)

theorem range_of_lead {b : UInt8} {l : Lead} (h : lead? b = some l) : l.low ≤ l.high := by
  have hranges : ∀ n < 256, ∀ l ∈ lead? (UInt8.ofNat n), l.low ≤ l.high := by decide +kernel
  exact hranges b.toNat b.toNat_lt l (by rwa [UInt8.ofNat_toNat])

/-- A character whose octets begin with these is found by a step. -/
theorem step_of_begins {b : UInt8} {tail : List UInt8} (h : Begins (b :: tail)) :
    ∃ more c used, step b (tail ++ more) = .ok (c, used) := by
  obtain ⟨c, more, hc⟩ := h
  refine ⟨more, c, (tail ++ more).length + 1, step_eq_ok_iff.mpr ⟨tail ++ more, [], ?_, ?_, rfl⟩⟩
  · rw [List.append_nil]
  · rw [← hc, List.cons_append]

/-- A step that fails covers an undecodable part. -/
theorem undecodable_of_step {b : UInt8} {rest : List UInt8} {fault : Fault} {n : Nat}
    (h : step b rest = .error (fault, n)) :
    ∃ good bad, rest = good ++ bad ∧ n = good.length + 1 ∧ Undecodable (b :: good) bad := by
  have hnone (c : Char) : ¬ String.utf8EncodeChar c <+: b :: rest := by
    rintro ⟨more, hc⟩
    obtain ⟨x, tail, hx⟩ := List.exists_cons_of_ne_nil (encodeChar_ne_nil c)
    rw [hx, List.cons_append] at hc
    obtain ⟨rfl, rfl⟩ := List.cons.inj hc
    rw [step_eq_ok_iff.mpr ⟨tail, more, rfl, hx, rfl⟩] at h
    contradiction
  cases hlead : lead? b with
  | none =>
      have hn : n = 1 := by
        simp only [step, hlead] at h
        exact (Prod.mk.inj (Except.error.inj h)).2.symm
      refine ⟨[], rest, rfl, hn, List.cons_ne_nil _ _, hnone, .inr rfl, fun more _ _ hbegins => ?_⟩
      obtain ⟨more', c, used, hstep⟩ := step_of_begins hbegins
      simp [step, hlead] at hstep
  | some l =>
      have hread : readTails l.tails l.low l.high l.bits 1 rest = .error (fault, n) := by
        simp only [step, hlead] at h
        split at h
        next => contradiction
        next hread => rw [hread, Except.error.inj h]
      obtain ⟨good, bad, rfl, rfl, ⟨more, code, total, hgood⟩, hbad⟩ :=
        readTails_error (range_of_lead hlead) hread
      refine ⟨good, bad, rfl, Nat.add_comm _ _, List.cons_ne_nil _ _, hnone, .inl ?_, ?_⟩
      · -- what completes the part ends a character, which does not end within the part
        have hstep : step b (good ++ more) = .ok (Char.ofNat code, total) :=
          (step_of_lead hlead).mpr ⟨code, hgood, rfl⟩
        obtain ⟨tail, more', hmore, hencode, -⟩ := step_eq_ok_iff.mp hstep
        refine ⟨Char.ofNat code, ?_⟩
        rw [hencode, List.cons_prefix_cons]
        refine ⟨rfl, (List.prefix_or_prefix_of_prefix (List.prefix_append good more)
          ⟨more', hmore.symm⟩).resolve_right fun htail => hnone (Char.ofNat code) ?_⟩
        rw [hencode, List.cons_prefix_cons]
        exact ⟨rfl, htail.trans (List.prefix_append good bad)⟩
      · intro next hne hnext hbegins
        obtain ⟨x, xs, rfl⟩ := List.exists_cons_of_ne_nil hne
        obtain ⟨bad', rfl⟩ := hnext
        rw [List.cons_append] at hbegins
        obtain ⟨more', c, used, hstep⟩ := step_of_begins hbegins
        obtain ⟨code', hread', -⟩ := (step_of_lead hlead).mp hstep
        rw [List.append_assoc, List.cons_append] at hread'
        exact hbad x (xs ++ bad') (xs ++ more') _ _ List.cons_append hread'

/-! ## Lenient decoding -/

/-- Of two undecodable parts in front of the same octets, neither is longer. -/
theorem Undecodable.prefix_of_append_eq {part rest part' rest' : List UInt8}
    (h : Undecodable part rest) (h' : Undecodable part' rest')
    (heq : part ++ rest = part' ++ rest') : part' <+: part := by
  rcases List.prefix_or_prefix_of_prefix ⟨rest, rfl⟩ ⟨rest', heq.symm⟩ with hpart | hpart
  · obtain ⟨more, rfl⟩ := hpart
    by_cases hmore : more = []
    · simp [hmore]
    · rw [List.append_assoc] at heq
      have hrest := List.append_cancel_left heq
      rcases h'.initial with hbegins | hsingle
      · exact absurd hbegins (h.longest more hmore ⟨rest', hrest.symm⟩)
      · have := List.length_pos_iff.mpr h.ne_nil
        have := List.length_pos_iff.mpr hmore
        rw [List.length_append] at hsingle
        omega
  · exact hpart

theorem Undecodable.eq_of_append_eq {part rest part' rest' : List UInt8}
    (h : Undecodable part rest) (h' : Undecodable part' rest')
    (heq : part ++ rest = part' ++ rest') : part = part' ∧ rest = rest' := by
  have hpart : part = part' := (h'.prefix_of_append_eq h heq.symm).eq_of_length_le
    (h.prefix_of_append_eq h' heq).length_le
  exact ⟨hpart, List.append_cancel_left (hpart ▸ heq)⟩

theorem replaced_decodeLenient (bytes : List UInt8) : Replaced bytes (decodeLenient bytes) := by
  induction bytes using decodeLenient.induct with
  | case1 =>
      rw [decodeLenient]
      exact .nil
  | case2 b rest c used hstep ih =>
      obtain ⟨tail, more, rfl, hencode, rfl⟩ := step_eq_ok_iff.mp hstep
      rw [decodeLenient, hstep]
      rw [Nat.add_sub_cancel, List.drop_left] at ih
      simp only [Nat.add_sub_cancel, List.drop_left]
      rw [← List.cons_append, ← hencode]
      exact .character c ih
  | case3 b rest fault used hstep ih =>
      obtain ⟨good, bad, rfl, rfl, hpart⟩ := undecodable_of_step hstep
      rw [decodeLenient, hstep]
      rw [Nat.add_sub_cancel, List.drop_left] at ih
      simp only [Nat.add_sub_cancel, List.drop_left]
      rw [← List.cons_append]
      exact .part hpart ih

theorem Replaced.decodeLenient_eq {bytes : List UInt8} {text : List Char}
    (h : Replaced bytes text) : decodeLenient bytes = text := by
  induction h with
  | nil => rw [decodeLenient]
  | @character c rest text _ ih =>
      obtain ⟨b, tail, hc⟩ := List.exists_cons_of_ne_nil (encodeChar_ne_nil c)
      rw [hc, List.cons_append, decodeLenient, step_eq_ok_iff.mpr ⟨tail, rest, rfl, hc, rfl⟩]
      simp only [Nat.add_sub_cancel, List.drop_left, ih]
  | @part part rest text hpart _ ih =>
      obtain ⟨b, tail, rfl⟩ := List.exists_cons_of_ne_nil hpart.ne_nil
      rw [List.cons_append, decodeLenient]
      cases hstep : step b (tail ++ rest) with
      | ok found =>
          obtain ⟨tail', more, hmore, hencode, -⟩ := step_eq_ok_iff.mp hstep
          refine absurd ?_ (hpart.noCharacter found.1)
          rw [hencode, List.cons_append, hmore, List.cons_prefix_cons]
          exact ⟨rfl, List.prefix_append _ _⟩
      | error fault =>
          obtain ⟨good, bad, heq, hn, hpart'⟩ := undecodable_of_step hstep
          obtain ⟨hgood, hbad⟩ := hpart.eq_of_append_eq hpart' (congrArg (b :: ·) heq)
          obtain rfl := (List.cons.inj hgood).2
          simp only [hn, Nat.add_sub_cancel, List.drop_left, ih]

/-- Octets have one reading, and lenient decoding finds it. -/
theorem replaced_iff {bytes : List UInt8} {text : List Char} :
    Replaced bytes text ↔ decodeLenient bytes = text :=
  ⟨Replaced.decodeLenient_eq, fun h => h ▸ replaced_decodeLenient bytes⟩

theorem decodeLenient_eq_nil_iff {bytes : List UInt8} : decodeLenient bytes = [] ↔ bytes = [] := by
  rw [← replaced_iff]
  constructor
  · intro h
    cases h
    rfl
  · rintro rfl
    exact .nil

/-- What is read is a character whose octets stand there, or U+FFFD. -/
theorem infix_of_mem_decodeLenient {bytes : List UInt8} {c : Char} (hc : c ∈ decodeLenient bytes) :
    c = '\uFFFD' ∨ String.utf8EncodeChar c <:+: bytes := by
  have h := replaced_decodeLenient bytes
  generalize decodeLenient bytes = text at h hc
  induction h with
  | nil => contradiction
  | @character c' rest text _ ih =>
      rcases List.mem_cons.mp hc with rfl | hc
      · exact .inr (List.prefix_append _ _).isInfix
      · exact (ih hc).imp_right fun h => h.trans (List.suffix_append _ _).isInfix
  | @part part rest text _ _ ih =>
      rcases List.mem_cons.mp hc with rfl | hc
      · exact .inl rfl
      · exact (ih hc).imp_right fun h => h.trans (List.suffix_append _ _).isInfix

/-! ## Octets that continue no character -/

/-- Octets that can stand after the first octet of a character only. -/
def Continues (b : UInt8) : Prop := 0x80 ≤ b.toNat ∧ b.toNat ≤ 0xBF

theorem continues_ofNat (n : Nat) : Continues (UInt8.ofNat (n % 64 + 128)) := by
  unfold Continues
  rw [toNat_octet (by omega)]
  omega

theorem continues_of_mem_tail {c : Char} {b x : UInt8} {tail : List UInt8}
    (h : String.utf8EncodeChar c = b :: tail) (hx : x ∈ tail) : Continues x := by
  rw [encodeChar_eq] at h
  repeat' split at h
  all_goals
    obtain ⟨-, rfl⟩ := List.cons.inj h
    simp only [List.mem_cons, List.not_mem_nil, or_false] at hx
  · rcases hx with rfl
    exact continues_ofNat _
  · rcases hx with rfl | rfl <;> exact continues_ofNat _
  · rcases hx with rfl | rfl | rfl <;> exact continues_ofNat _

/-- Octets before which a character can end, for they begin with none that continues it. -/
def Parted (following : List UInt8) : Prop := ∀ b ∈ following.head?, ¬ Continues b

/-- What two parts begin with ends in the first one, or goes on into the second one. -/
theorem prefix_append_cases {part front following : List UInt8} (h : part <+: front ++ following) :
    part <+: front ∨ ∃ more, more ≠ [] ∧ part = front ++ more ∧ more <+: following := by
  rcases List.prefix_or_prefix_of_prefix h (List.prefix_append front following) with
    hshort | ⟨more, rfl⟩
  · exact .inl hshort
  · by_cases hmore : more = []
    · exact .inl (by simp [hmore])
    · exact .inr ⟨more, hmore, rfl, (List.prefix_append_right_inj front).mp h⟩

/-- A character that begins goes no further than to an octet that continues none. -/
theorem Parted.not_begins {part more following : List UInt8} (h : Parted following)
    (hpart : part ≠ []) (hmore : more ≠ []) (hbegin : more <+: following) :
    ¬ Begins (part ++ more) := by
  rintro ⟨c, rest, hc⟩
  obtain ⟨b, tail, rfl⟩ := List.exists_cons_of_ne_nil hpart
  obtain ⟨x, xs, rfl⟩ := List.exists_cons_of_ne_nil hmore
  obtain ⟨following', rfl⟩ := hbegin
  refine h x rfl (continues_of_mem_tail hc.symm ?_)
  simp

theorem Undecodable.append {part rest following : List UInt8} (h : Undecodable part rest)
    (hparted : Parted following) : Undecodable part (rest ++ following) where
  ne_nil := h.ne_nil
  noCharacter c hc := by
    have hfront : part ++ rest ≠ [] := List.append_ne_nil_of_left_ne_nil h.ne_nil rest
    rw [← List.append_assoc] at hc
    rcases prefix_append_cases hc with hshort | ⟨more, hne, hc, hmore⟩
    · exact h.noCharacter c hshort
    · exact hparted.not_begins hfront hne hmore ⟨c, hc ▸ List.prefix_refl _⟩
  initial := h.initial
  longest more hne hmore := by
    have hfront : part ++ rest ≠ [] := List.append_ne_nil_of_left_ne_nil h.ne_nil rest
    rcases prefix_append_cases hmore with hshort | ⟨more', hne', rfl, hmore'⟩
    · exact h.longest more hne hshort
    · rw [← List.append_assoc]
      exact hparted.not_begins hfront hne' hmore'

/-- Octets can be decoded apart where the second ones begin with none that continues a
character. -/
theorem decodeLenient_append {bytes following : List UInt8} (h : Parted following) :
    decodeLenient (bytes ++ following) = decodeLenient bytes ++ decodeLenient following := by
  refine replaced_iff.mp ?_
  have hbytes := replaced_decodeLenient bytes
  generalize decodeLenient bytes = text at hbytes
  induction hbytes with
  | nil => exact replaced_decodeLenient following
  | character c _ ih =>
      rw [List.append_assoc]
      exact .character c ih
  | part hpart _ ih =>
      rw [List.append_assoc]
      exact .part (hpart.append h) ih

theorem parted_encode (text : String) : Parted (encode text) := by
  intro b hb
  rw [encode_eq] at hb
  cases htext : text.toList with
  | nil =>
      rw [htext] at hb
      contradiction
  | cons c rest =>
      obtain ⟨x, tail, hc⟩ := List.exists_cons_of_ne_nil (encodeChar_ne_nil c)
      rw [htext, List.flatMap_cons, hc] at hb
      obtain rfl : x = b := by simpa using hb
      -- an octet that continues a character is the first one of none
      intro hcontinues
      have hstep := step_eq_ok_iff.mpr ⟨tail, [], (List.append_nil _).symm, hc, rfl⟩
      rw [step_none (.inl ⟨hcontinues.1, Nat.lt_of_le_of_lt hcontinues.2 (by decide)⟩)] at hstep
      contradiction

theorem decodeLenient_encode (text : String) : decodeLenient (encode text) = text.toList := by
  rw [encode_eq, ← replaced_iff]
  induction text.toList with
  | nil => exact .nil
  | cons c rest ih =>
      rw [List.flatMap_cons]
      exact .character c ih

end SupplyGauge.Utf8
