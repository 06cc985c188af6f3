import Mathlib.Data.List.Nodup
import SupplyGauge.CommandLine.Program
import SupplyGauge.Proofs.Number.Integers
import SupplyGauge.Proofs.Supply.FirstLine

/-! # Integers from the file to the printed line

An attribute file whose first line is the decimal text of an integer up to 2^53 is read as this
integer, and the value is written with the same digits. So a cycle that is printed shows them at
the end of the line of their device and attribute.
-/

namespace SupplyGauge

namespace Metric

theorem valueText_of_integer {x : Binary64} {n : Int} (h : x.integer? = some n) :
    valueText x = Decimal.text n := by
  cases x with
  | nan | infinite => contradiction
  | finite negative m s canonical =>
      unfold valueText
      simp only [h]
      rfl

/-- The line of a sample ends with its value. -/
theorem Sample.exists_line (s : Sample) :
    ∃ before, s.line = before ++ " " ++ valueText s.value := by
  refine ⟨String.ofList (s.description.name.toList ++
    '\x7b' :: (labelsText (s.description.labelNames.zip s.descriptor.values) ++ ['\x7d'])), ?_⟩
  rw [← String.toList_inj]
  simp [line]

end Metric

namespace Supply

open Files (Path Tree)
open SupplyGauge.Metric (Sample)

/-- Whether the first line of a file is the decimal text of an integer. -/
def Gives (files : Tree) (path : Path) (n : Int) : Prop :=
  ∃ content, files.read path = .ok content ∧ StartsWith content (Utf8.encode (Decimal.text n))

/-- Whether a cycle shows a value with a text: there is a sample of the attribute of the device, and
each such sample has the value and a line that ends with the text. -/
structure Collector.Shows (c : Collector) (files : Tree) (device : Path) (a : Attribute)
    (x : Binary64) (text : String) : Prop where
  sampled : ∃ s ∈ (c.safeCollect files).2.samples,
    s.device = some device ∧ s.description = a.description c.settings.namespace_
  shown : ∀ s ∈ (c.safeCollect files).2.samples, s.device = some device →
    s.description = a.description c.settings.namespace_ →
      s.value = x ∧ ∃ before, s.line = before ++ " " ++ text

/-! ## Readings -/

variable {n : Int}

theorem isBare_text (n : Int) : isBare (Decimal.text n) = true := by
  have hchars := Decimal.forall_mem_ofInt (p := fun c => Text.isBlank c = false ∧ c ≠ '_')
    (by decide +kernel) (by decide +kernel) n
  have hunderscore : '_' ∉ Decimal.ofInt n := fun hmem => (hchars _ hmem).2 rfl
  rw [isBare, Decimal.text, String.toList_ofList,
    Numeral.trim_of_none fun c hc => (hchars c hc).1]
  simpa using hunderscore

/-- No line ends within the text of an integer. -/
theorem unended_text (n : Int) : Unended (Utf8.encode (Decimal.text n)) := by
  have hchars := Decimal.forall_mem_ofInt
    (p := fun c => ∀ b ∈ String.utf8EncodeChar c, b ≠ 0x0A ∧ b ≠ 0x0D)
    (by decide +kernel) (by decide +kernel) n
  intro b hb
  rw [Utf8.encode_eq, Decimal.text, String.toList_ofList] at hb
  obtain ⟨c, hc, hb⟩ := List.mem_flatMap.mp hb
  exact hchars c hc b hb

theorem encode_text_ne_nil (n : Int) : Utf8.encode (Decimal.text n) ≠ [] := by
  intro hnil
  rw [← Utf8.decodeLenient_eq_nil_iff, Utf8.decodeLenient_encode, Decimal.text,
    String.toList_ofList] at hnil
  exact Decimal.ofInt_ne_nil n hnil

theorem Gives.firstLine_eq {files : Tree} {path : Path} (h : Gives files path n) :
    firstLine files path = Decimal.text n := by
  obtain ⟨content, hread, hstarts⟩ := h
  rw [firstLine, hread]
  simp only [firstLine_decodeLenient (unended_text n) hstarts, Utf8.decodeLenient_encode,
    String.ofList_toList]

theorem Gives.readText_eq {files : Tree} {device : Path} {name : String}
    (h : Gives files (device.join (.ofString name)) n) :
    readText files device name = .ok (Decimal.text n) := by
  obtain ⟨content, hread, hstarts⟩ := h
  rw [readText_of_read hread (unended_text n) hstarts, if_neg (encode_text_ne_nil n),
    Utf8.decodeLenient_encode, String.ofList_toList]

theorem Gives.readNumber_eq {files : Tree} {device : Path} {name : String}
    (h : Gives files (device.join (.ofString name)) n) (hn : n.natAbs ≤ twoTo 53) :
    readNumber files device name = .ok (.ofInt n) := by
  unfold readNumber
  simp only [h.readText_eq, isBare_text, bind, Except.bind, if_true, Numeral.real_text hn,
    Except.mapError]

theorem numberOf_text (hn : n.natAbs ≤ twoTo 53) : numberOf (Decimal.text n) = .ofInt n := by
  rw [numberOf, if_pos (isBare_text n), Numeral.real_text hn, Except.toOption, Option.getD_some]

theorem gaugeOf_numeric (files : Tree) (device : Path) {a : Attribute} (h : a.category = none) :
    gaugeOf files device a = numberOf (firstLine files (device.child a.name)) := by
  unfold gaugeOf
  rw [h]

/-! ## Cycles -/

/-- Attributes have different descriptions. -/
theorem description_injective {namespace_ : String} {a b : Attribute} (ha : a ∈ attributes)
    (hb : b ∈ attributes) (h : a.description namespace_ = b.description namespace_) : a = b := by
  have hhelps : (attributes.map (·.help)).Nodup := by decide
  exact List.inj_on_of_nodup_map hhelps ha hb (congrArg (·.help) h)

theorem mem_samplesOf {namespace_ : String} {files : Tree} {device : Path} {s : Sample} :
    s ∈ samplesOf namespace_ files device ↔ ∃ a ∈ attributes, s =
      { description := a.description namespace_, value := gaugeOf files device a,
        descriptor := labelsOf files device, device := some device } := by
  simp [samplesOf, eq_comm]

/-- A cycle shows the gauge of each attribute of a device that it retains. -/
theorem Collector.shows_gauge (c : Collector) {files : Tree} {names : List String} {name : String}
    {a : Attribute} (henum : Enumerable files (classDirectory c.root) names)
    (hretains : c.Retains files names name) (ha : a ∈ attributes) :
    c.Shows files ((classDirectory c.root).child name) a
      (gaugeOf files ((classDirectory c.root).child name) a)
      (Metric.valueText (gaugeOf files ((classDirectory c.root).child name) a)) := by
  have hsamples := congrArg Result.samples (c.safeCollect_eq henum)
  dsimp only at hsamples
  constructor
  · rw [hsamples]
    exact ⟨_, List.mem_flatMap.mpr ⟨name, c.mem_retained.mpr hretains,
      mem_samplesOf.mpr ⟨a, ha, rfl⟩⟩, rfl, rfl⟩
  · rw [hsamples]
    intro s hs hdevice hdescription
    obtain ⟨other, -, hs⟩ := List.mem_flatMap.mp hs
    obtain ⟨b, hb, rfl⟩ := mem_samplesOf.mp hs
    obtain rfl := description_injective hb ha hdescription
    rw [Option.some.injEq] at hdevice
    dsimp only at hdevice ⊢
    rw [← hdevice]
    exact ⟨rfl, Sample.exists_line _⟩

/-! ## Printed cycles -/

section Printing

open CommandLine (Session Surroundings)

theorem printed_lines (lines : List String) (s : Session) :
    (lines.foldl Session.print s).printed.toList =
      s.printed.toList ++ lines.flatMap (·.toList ++ ['\n']) := by
  induction lines generalizing s with
  | nil => simp
  | cons line lines ih =>
      rw [List.foldl_cons, ih, Session.print]
      simp

/-- A cycle that succeeds is printed in lines, one for each sample. -/
theorem printed_collectOnce (s : Session) (w : Surroundings) {settings : Config.Settings}
    {c : Collector} (hc : Collector.ofSettings settings.supply = .ok c)
    (hr : (c.safeCollect s.paper.files).2.error = none) :
    (s.collectOnce w settings).2.printed.toList = s.printed.toList ++
      (c.safeCollect s.paper.files).2.samples.flatMap fun x => x.line.toList ++ ['\n'] := by
  unfold Session.collectOnce
  rw [hc]
  rcases hcycle : c.safeCollect s.paper.files with ⟨log, r⟩
  rw [hcycle] at hr
  dsimp only at hr ⊢
  rw [hcycle]
  dsimp only
  rw [hr]
  dsimp only
  rw [printed_lines, List.flatMap_map]
  rfl

end Printing

/-- An integer of at most 2^53 loses nothing between the attribute file and the output. Its double
is exactly the integer, and is written as its decimal text. A file whose first line is this text is
read as the double. If the file is a numeric attribute of a device that a cycle retains, every
sample of this attribute and device has the double and a line that ends with the text; and what a
single cycle prints are the lines of its samples. -/
theorem integers_lossless {n : Int} (hn : n.natAbs ≤ twoTo 53) :
    (Binary64.ofInt n).quanta? = some (n * twoTo Binary64.quantumExponent) ∧
      Metric.valueText (.ofInt n) = Decimal.text n ∧
      (∀ files device name, Gives files (device.join (.ofString name)) n →
        readNumber files device name = .ok (.ofInt n)) ∧
      ∀ (c : Collector) (files : Tree) (names : List String) (name : String) (a : Attribute),
        Enumerable files (classDirectory c.root) names → c.Retains files names name →
        a ∈ attributes → a.category = none →
        Gives files (((classDirectory c.root).child name).child a.name) n →
          c.Shows files ((classDirectory c.root).child name) a (.ofInt n) (Decimal.text n) ∧
          ∀ (s : CommandLine.Session) (w : CommandLine.Surroundings) (settings : Config.Settings),
            Collector.ofSettings settings.supply = .ok c → s.paper.files = files →
              (s.collectOnce w settings).2.printed.toList = s.printed.toList ++
                (c.safeCollect files).2.samples.flatMap fun x => x.line.toList ++ ['\n'] := by
  have htext : Metric.valueText (.ofInt n) = Decimal.text n :=
    Metric.valueText_of_integer (Binary64.integer?_ofInt hn)
  refine ⟨Binary64.quanta?_ofInt hn, htext, fun files device name h => h.readNumber_eq hn, ?_⟩
  intro c files names name a henum hretains ha hnumeric hgives
  constructor
  · have hgauge : gaugeOf files ((classDirectory c.root).child name) a = .ofInt n := by
      rw [gaugeOf_numeric _ _ hnumeric, hgives.firstLine_eq, numberOf_text hn]
    have hshows := c.shows_gauge henum hretains ha
    rwa [hgauge, htext] at hshows
  · rintro s w settings hc rfl
    refine printed_collectOnce s w hc ?_
    rw [c.safeCollect_eq henum]

example : (Binary64.ofInt (twoTo 53 + 1)).integer? = some (twoTo 53 : Int) := by decide +kernel

/-- A line with the least integer, ended by two characters. -/
def strainedCurrent : List UInt8 :=
  [0x2D, 0x39, 0x30, 0x30, 0x37, 0x31, 0x39, 0x39, 0x32, 0x35, 0x34, 0x37, 0x34, 0x30, 0x39, 0x39,
    0x32, 0x0D, 0x0A]

/-- A battery that draws the least integer. -/
def strained : Tree where
  nodes := [
    (["s"], .directory),
    (["s", "class"], .directory),
    (["s", "class", "power_supply"], .directory),
    (["s", "class", "power_supply", "BAT0"], .directory),
    (["s", "class", "power_supply", "BAT0", "current_now"], .file strainedCurrent)]
  home := []

/-- The least integer is read and shown with its sign and all its digits. -/
theorem integers_lossless_strained :
    let n : Int := -9007199254740992
    let device := (classDirectory shelfCollector.root).child "BAT0"
    n.natAbs ≤ twoTo 53 ∧ readNumber strained device "current_now" = .ok (.ofInt n) ∧
      shelfCollector.Shows strained device ⟨"current_now", "Current in µA.", none⟩ (.ofInt n)
        "-9007199254740992" := by
  intro n device
  have hn : n.natAbs ≤ twoTo 53 := by decide
  have htext : Decimal.text n = "-9007199254740992" := by decide +kernel
  have ha : ⟨"current_now", "Current in µA.", none⟩ ∈ attributes := by simp [attributes]
  have hgives : Gives strained (device.child "current_now") n := by
    refine ⟨strainedCurrent, eq_ok_of_toOption (by decide +kernel),
      .inr ⟨[0x0D, 0x0A], by decide, [], ?_⟩⟩
    rw [htext]
    decide +kernel
  have henum : Enumerable strained (classDirectory shelfCollector.root) ["BAT0"] := by
    refine ⟨eq_ok_of_toOption (by decide +kernel), fun name hname _ => ⟨true, ?_⟩⟩
    obtain rfl := List.mem_singleton.mp hname
    exact eq_ok_of_toOption (by decide +kernel)
  have hretains : shelfCollector.Retains strained ["BAT0"] "BAT0" :=
    ⟨by decide, isNumbered_iff.mp (by decide +kernel), eq_ok_of_toOption (by decide +kernel),
      by decide +kernel, by decide +kernel⟩
  obtain ⟨-, -, hread, hcycle⟩ := integers_lossless hn
  have hshows := (hcycle _ _ _ _ _ henum hretains ha rfl hgives).1
  rw [htext] at hshows
  refine ⟨hn, hread _ _ _ ?_, hshows⟩
  rwa [(plain_names.1 _ ha).join]

end Supply

end SupplyGauge
