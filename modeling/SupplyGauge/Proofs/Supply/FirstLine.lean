import SupplyGauge.Proofs.Supply.Collection
import SupplyGauge.Proofs.Text.Replacement

/-! # The first line of an attribute file

An attribute is the first line of its file, decoded leniently. No line terminator is part
of a character, so the octets before the first one are decoded as if nothing stood behind
them, whatever stands there and however the line itself ends.
-/

namespace SupplyGauge.Supply

open Files (Path Tree)
open Utf8 (Replaced Parted decodeLenient)

/-- The octets with which a line ends. -/
def lineEnds : List (List UInt8) := [[0x0A], [0x0D], [0x0D, 0x0A]]

/-- Octets among which no line ends. -/
def Unended (line : List UInt8) : Prop := ∀ b ∈ line, b ≠ 0x0A ∧ b ≠ 0x0D

/-- A content whose first line is given: the line alone, or the line with a terminator and anything
behind it. -/
def StartsWith (content line : List UInt8) : Prop :=
  content = line ∨ ∃ terminator ∈ lineEnds, ∃ rest, content = line ++ terminator ++ rest

/-! ## Octets and lines -/

/-- Every content has a first line. -/
theorem exists_startsWith (content : List UInt8) :
    ∃ line, Unended line ∧ StartsWith content line := by
  induction content with
  | nil => exact ⟨[], by simp [Unended], .inl rfl⟩
  | cons b content ih =>
      by_cases hb : b = 0x0A ∨ b = 0x0D
      · refine ⟨[], by simp [Unended], .inr ⟨[b], ?_, content, rfl⟩⟩
        rcases hb with rfl | rfl <;> simp [lineEnds]
      · obtain ⟨line, hline, hstarts⟩ := ih
        refine ⟨b :: line, List.forall_mem_cons.mpr ⟨not_or.mp hb, hline⟩, ?_⟩
        rcases hstarts with rfl | ⟨terminator, hterminator, rest, rfl⟩
        · exact .inl rfl
        · exact .inr ⟨terminator, hterminator, rest, rfl⟩

/-- A character of one octet that does not stand there is not read. -/
theorem not_mem_decodeLenient {line : List UInt8} {c : Char} {b : UInt8}
    (hc : String.utf8EncodeChar c = [b]) (hvalid : c ≠ '\uFFFD') (hb : b ∉ line) :
    c ∉ decodeLenient line := by
  intro hmem
  rcases Utf8.infix_of_mem_decodeLenient hmem with hother | hstands
  · exact hvalid hother
  · rw [hc] at hstands
    exact hb (hstands.subset List.mem_cons_self)

/-- Octets among which no line ends are read as a text in which none ends. -/
theorem decodeLenient_unended {line : List UInt8} (h : Unended line) {c : Char}
    (hc : c ∈ decodeLenient line) : c ≠ '\n' ∧ c ≠ '\r' := by
  constructor
  · rintro rfl
    exact not_mem_decodeLenient (by decide) (by decide) (fun hb => (h 0x0A hb).1 rfl) hc
  · rintro rfl
    exact not_mem_decodeLenient (by decide) (by decide) (fun hb => (h 0x0D hb).2 rfl) hc

theorem firstLine_unended {line : List UInt8} (h : Unended line) (more : List Char) :
    Text.firstLine (decodeLenient line ++ more) =
      decodeLenient line ++ Text.firstLine more := by
  refine List.takeWhile_append_of_pos fun c hc => ?_
  obtain ⟨hfeed, hreturn⟩ := decodeLenient_unended h hc
  simp [hfeed, hreturn]

/-- A terminator is read as a character that ends a line, whatever follows it. -/
theorem firstLine_terminator {terminator : List UInt8} (h : terminator ∈ lineEnds)
    (rest : List UInt8) : Parted (terminator ++ rest) ∧
      Text.firstLine (decodeLenient (terminator ++ rest)) = [] := by
  have hone {b : UInt8} (hb : b.toNat < 0x80)
      (hc : (Char.ofNat b.toNat != '\n' && Char.ofNat b.toNat != '\r') = false)
      (rest : List UInt8) :
      Parted (b :: rest) ∧ Text.firstLine (decodeLenient (b :: rest)) = [] := by
    constructor
    · intro x hx
      obtain rfl : b = x := Option.some.inj hx
      exact fun hcontinues => Nat.not_lt.mpr hcontinues.1 hb
    · rw [decodeLenient, (Utf8.step_one_iff hb).mpr ⟨rfl, rfl⟩, Text.firstLine, List.takeWhile_cons,
        hc]
      rfl
  simp only [lineEnds, List.mem_cons, List.not_mem_nil, or_false] at h
  rcases h with rfl | rfl | rfl
  · exact hone (by decide) (by decide) rest
  · exact hone (by decide) (by decide) rest
  · exact hone (by decide) (by decide) (0x0A :: rest)

/-- The first line of a decoded content is its first line decoded. -/
theorem firstLine_decodeLenient {content line : List UInt8} (hline : Unended line)
    (h : StartsWith content line) :
    Text.firstLine (decodeLenient content) = decodeLenient line := by
  rcases h with rfl | ⟨terminator, hterminator, rest, rfl⟩
  · simpa [Text.firstLine] using firstLine_unended hline []
  · obtain ⟨hparted, hends⟩ := firstLine_terminator hterminator rest
    rw [List.append_assoc, Utf8.decodeLenient_append hparted, firstLine_unended hline, hends,
      List.append_nil]

/-! ## Attributes -/

variable {files : Tree} {device : Path} {name : String} {content line : List UInt8}

/-- What is read of a file with a given first line. -/
theorem readText_of_read (hread : files.read (device.join (.ofString name)) = .ok content)
    (hline : Unended line) (h : StartsWith content line) :
    readText files device name =
      if line = [] then .error (.access (.empty (device.join (.ofString name))))
      else .ok (String.ofList (decodeLenient line)) := by
  unfold readText
  simp only [hread, pure_bind, firstLine_decodeLenient hline h]
  by_cases hempty : line = []
  · rw [if_pos hempty, Utf8.decodeLenient_eq_nil_iff.mpr hempty]
    rfl
  · rw [if_neg hempty]
    split
    next hnil => exact absurd (Utf8.decodeLenient_eq_nil_iff.mp hnil) hempty
    next => rfl

/-- Only the first line of an attribute file counts. Whatever terminator and whatever octets follow
it, reading has the outcome that it has for a file with the line alone: the only reading of the
line's octets in which U+FFFD stands for each undecodable part, or an error if the line is empty.
So an attribute is never empty, no line ends in it, each of its characters stands in the line or is
U+FFFD, none is a surrogate, and whatever characters the line ends with are kept. -/
theorem readText_first_line (device : Path) (name : String) :
    let path := device.join (.ofString name)
    (∀ (files files' : Tree) (line terminator rest : List UInt8), Unended line →
      terminator ∈ lineEnds → files.read path = .ok (line ++ terminator ++ rest) →
      files'.read path = .ok line →
        readText files device name = readText files' device name ∧
        (line = [] → readText files device name = .error (.access (.empty path))) ∧
        (line ≠ [] → ∃ text, readText files device name = .ok text ∧
          ∀ chars, Replaced line chars ↔ chars = text.toList)) ∧
    ∀ (files : Tree) (content : List UInt8) (text : String), files.read path = .ok content →
      readText files device name = .ok text →
        ∃ line, Unended line ∧ StartsWith content line ∧ Replaced line text.toList ∧ text ≠ "" ∧
          (∀ c ∈ text.toList, c ≠ '\n' ∧ c ≠ '\r' ∧ ¬ (0xD800 ≤ c.toNat ∧ c.toNat ≤ 0xDFFF) ∧
            (c = '\uFFFD' ∨ String.utf8EncodeChar c <:+: line)) ∧
          ∀ start kept, line = start ++ Utf8.encode kept →
            ∃ before, Replaced start before ∧ text.toList = before ++ kept.toList := by
  intro path
  constructor
  · intro files files' line terminator rest hline hterminator hread hread'
    have hlong := readText_of_read hread hline (.inr ⟨terminator, hterminator, rest, rfl⟩)
    have halone := readText_of_read hread' hline (.inl rfl)
    refine ⟨by rw [hlong, halone], fun hempty => by rw [hlong, if_pos hempty], fun hne => ?_⟩
    refine ⟨_, by rw [hlong, if_neg hne], fun chars => ?_⟩
    rw [Utf8.replaced_iff, String.toList_ofList, eq_comm]
  · intro files content text hread htext
    obtain ⟨line, hline, hstarts⟩ := exists_startsWith content
    rw [readText_of_read hread hline hstarts] at htext
    split at htext
    next => contradiction
    next hne =>
      obtain rfl := Except.ok.inj htext
      rw [String.toList_ofList]
      refine ⟨line, hline, hstarts, Utf8.replaced_decodeLenient line, fun hempty => ?_,
        fun c hc => ?_, fun start kept hkept => ?_⟩
      · have hnil := congrArg String.toList hempty
        rw [String.toList_ofList] at hnil
        exact hne (Utf8.decodeLenient_eq_nil_iff.mp hnil)
      · obtain ⟨hfeed, hreturn⟩ := decodeLenient_unended hline hc
        have hvalid : c.toNat < 0xD800 ∨ 0xDFFF < c.toNat ∧ c.toNat < 0x110000 := c.valid
        exact ⟨hfeed, hreturn, by omega, Utf8.infix_of_mem_decodeLenient hc⟩
      · refine ⟨decodeLenient start, Utf8.replaced_decodeLenient start, ?_⟩
        rw [hkept, Utf8.decodeLenient_append (Utf8.parted_encode kept), Utf8.decodeLenient_encode]

/-- A battery whose model name is two letters and a tab, with a torn character between them, before
what is given. -/
def tornBefore (more : List UInt8) : Tree where
  nodes := [
    (["BAT0"], .directory),
    (["BAT0", "model_name"], .file ([0x58, 0xE2, 0x82, 0x59, 0x09] ++ more))]
  home := []

/-- A carriage return and a continuing octet behind the name change nothing, and the tab stays. -/
theorem readText_first_line_torn :
    let device := Path.ofString "BAT0"
    let path := device.join (.ofString "model_name")
    let line : List UInt8 := [0x58, 0xE2, 0x82, 0x59, 0x09]
    (tornBefore [0x0D, 0xAC, 0x0A]).read path = .ok (line ++ [0x0D] ++ [0xAC, 0x0A]) ∧
      (tornBefore []).read path = .ok line ∧
      readText (tornBefore [0x0D, 0xAC, 0x0A]) device "model_name" =
        readText (tornBefore []) device "model_name" ∧
      ∃ text, readText (tornBefore [0x0D, 0xAC, 0x0A]) device "model_name" = .ok text ∧
        text ≠ "" ∧ text.toList = ['X', '\uFFFD', 'Y', '\t'] := by
  intro device path line
  have hread : (tornBefore [0x0D, 0xAC, 0x0A]).read path =
      .ok (line ++ [0x0D] ++ [0xAC, 0x0A]) := eq_ok_of_toOption (by decide +kernel)
  have halone : (tornBefore []).read path = .ok line := eq_ok_of_toOption (by decide +kernel)
  obtain ⟨hfirst, hwhole⟩ := readText_first_line device "model_name"
  have hline : Unended line := by simp [Unended, line]
  obtain ⟨hsame, -, htext⟩ := hfirst _ _ line [0x0D] [0xAC, 0x0A] hline (by decide) hread halone
  obtain ⟨text, htext, hreading⟩ := htext (by decide)
  obtain ⟨-, -, -, -, hne, -⟩ := hwhole _ _ text hread htext
  refine ⟨hread, halone, hsame, text, htext, hne, ((hreading _).mp ?_).symm⟩
  rw [Utf8.replaced_iff]
  decide +kernel

end SupplyGauge.Supply
