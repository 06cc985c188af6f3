import Mathlib.Algebra.Order.BigOperators.Group.List
import Mathlib.Algebra.Order.Group.Nat
import SupplyGauge.Proofs.Config.Boundaries

/-! # Strings and their escapes

What stands between the quotes of a string is read twice: the token pattern looks for the closing
quote, and the replacement of escapes looks for backslashes. The first one lets a backslash take
any character with it, the second one only a character of the same line. Still both split the
string at the same places, into characters that stand for themselves and pairs of a backslash and
the character after it, and there is no other way to split it.
-/

namespace SupplyGauge.Config

/-- A part of a string as it is written: a character, or a backslash and the character after it. -/
inductive StringPart where
  | plain (c : Char)
  | pair (c : Char)
  deriving DecidableEq, Repr

namespace StringPart

def written : StringPart → List Char
  | plain c => [c]
  | pair c => ['\\', c]

/-- What a part stands for. A pair that is no known escape stands for both of its characters. -/
def image : StringPart → List Char
  | plain c => [c]
  | pair c => match escape? c with
    | some d => [d]
    | none => ['\\', c]

theorem flatMap_plain (c : Char) (parts : List StringPart) :
    (plain c :: parts).flatMap written = c :: parts.flatMap written := rfl

theorem flatMap_pair (c : Char) (parts : List StringPart) :
    (pair c :: parts).flatMap written = '\\' :: c :: parts.flatMap written := rfl

/-- Whether a part is no backslash that stands alone. -/
def Proper : StringPart → Prop
  | plain c => c ≠ '\\'
  | pair _ => True

/-- Whether a part may stand between quotes of a kind. -/
def Fits (quote : Char) : StringPart → Prop
  | plain c => c ≠ quote ∧ c ≠ '\\' ∧ c ≠ '\n'
  | pair _ => True

/-- What the replacement of the escapes in one line leaves of a part. -/
def replaced (f : List Char → List Char) : StringPart → List Char
  | plain c => [c]
  | pair c => if c = '\n' then ['\\', c] else f ['\\', c]

theorem Fits.proper {quote : Char} {p : StringPart} (h : p.Fits quote) : p.Proper := by
  cases p with
  | plain c => exact h.2.1
  | pair c => trivial

/-- The parts that fit are those that the token pattern takes in one round. -/
theorem fits_iff {quote : Char} (p : StringPart) (rest : List Char) :
    p.Fits quote ↔ (Shape.stringPart quote).rest? (p.written ++ rest) = some rest := by
  cases p with
  | pair c => simp [Fits, written, Shape.stringPart, Shape.char, Shape.any]
  | plain c =>
      rw [Shape.stringPart, Shape.rest?_either, written, List.singleton_append, Shape.rest?_one,
        Shape.char, Shape.rest?_seq_one]
      by_cases hslash : c = '\\'
      · subst hslash
        cases rest <;> simp [Fits, Shape.any, Shape.rest?, Shape.rests]
      · simp [Fits, hslash]

/-! ## One way to split a string -/

theorem written_ne_nil (p : StringPart) : p.written ≠ [] := by
  cases p <;> simp [written]

/-- The first part of a text shows in its first two characters. -/
theorem written_append_inj {p p' : StringPart} {rest rest' : List Char} (hp : p.Proper)
    (hp' : p'.Proper) (h : p.written ++ rest = p'.written ++ rest') : p = p' ∧ rest = rest' := by
  cases p <;> cases p' <;> simp only [written, List.cons_append, List.nil_append,
    List.cons.injEq] at h
  case plain.plain => exact ⟨congrArg plain h.1, h.2⟩
  case plain.pair => exact absurd h.1 hp
  case pair.plain => exact absurd h.1.symm hp'
  case pair.pair => exact ⟨congrArg pair h.2.1, h.2.2⟩

/-- Parts are determined by what is written. -/
theorem eq_of_written_eq {parts parts' : List StringPart} (hproper : ∀ p ∈ parts, p.Proper)
    (hproper' : ∀ p ∈ parts', p.Proper)
    (h : parts.flatMap written = parts'.flatMap written) : parts = parts' := by
  induction parts generalizing parts' with
  | nil =>
      cases parts' with
      | nil => rfl
      | cons p' parts' => simp [written_ne_nil] at h
  | cons p parts ih =>
      cases parts' with
      | nil => simp [written_ne_nil] at h
      | cons p' parts' =>
          obtain ⟨hp, hparts⟩ := List.forall_mem_cons.mp hproper
          obtain ⟨hp', hparts'⟩ := List.forall_mem_cons.mp hproper'
          obtain ⟨rfl, hlater⟩ := written_append_inj hp hp' h
          rw [ih hparts hparts' hlater]

/-! ## What a string stands for -/

/-- A part stands for no more characters than it is written with. -/
theorem length_image_le (p : StringPart) : p.image.length ≤ p.written.length := by
  cases p with
  | plain c => exact Nat.le_refl _
  | pair c => cases h : escape? c <;> simp [image, written, h]

theorem image_eq_written_iff (p : StringPart) :
    p.image = p.written ↔ ∀ c, p = pair c → escape? c = none := by
  cases p with
  | plain c => simp [image, written]
  | pair c => cases h : escape? c <;> simp [image, written, h]

/-- Parts stand for what is written only if each of them does: an escape would leave it shorter. -/
theorem flatMap_image_eq_iff (parts : List StringPart) :
    parts.flatMap image = parts.flatMap written ↔ ∀ c, pair c ∈ parts → escape? c = none := by
  induction parts with
  | nil => simp
  | cons p parts ih =>
      have hlater : (parts.flatMap image).length ≤ (parts.flatMap written).length := by
        simp only [List.length_flatMap]
        exact List.sum_le_sum fun p _ => p.length_image_le
      have hhead : p.image = p.written ∧ parts.flatMap image = parts.flatMap written ↔
          p.image ++ parts.flatMap image = p.written ++ parts.flatMap written := by
        refine ⟨fun ⟨hp, hparts⟩ => by rw [hp, hparts], fun h => ?_⟩
        have hlength := congrArg List.length h
        have hp := p.length_image_le
        simp only [List.length_append] at hlength
        exact List.append_inj h (by omega)
      rw [List.flatMap_cons, List.flatMap_cons, ← hhead, image_eq_written_iff, ih]
      simp only [List.mem_cons]
      exact ⟨fun ⟨hp, hparts⟩ c hc => hc.elim (fun h => hp c h.symm) (hparts c),
        fun h => ⟨fun c hc => h c (.inl hc.symm), fun c hc => h c (.inr hc)⟩⟩

end StringPart

/-! ## The closing quote -/

open StringPart (written image replaced)

theorem extent_string_iff {c : Char} {rest : List Char} {n : Nat} :
    extent c rest = .ok (.string, n + 1) ↔
      (c = '"' ∨ c = '\'') ∧ stringEnd? c rest = some n := by
  constructor
  · intro h
    unfold extent at h
    split at h
    next => simp at h
    split at h
    next => (repeat' split at h) <;> simp at h
    split at h
    next hquote =>
      split at h
      next m hend =>
        obtain ⟨-, hn⟩ := Prod.mk.inj (Except.ok.inj h)
        exact ⟨hquote, hend.trans (congrArg some (Nat.succ.inj hn))⟩
      next => contradiction
    all_goals (repeat' split at h) <;> simp at h
  · rintro ⟨hquote, hend⟩
    have hother : c ≠ '#' ∧ c ≠ '/' := by rcases hquote with rfl | rfl <;> decide
    unfold extent
    rw [if_neg hother.1, if_neg hother.2, if_pos hquote, hend]

/-- The search for the closing quote takes parts that fit up to the quote. -/
theorem exists_parts_of_stringEnd? {quote : Char} {text : List Char} {n : Nat}
    (h : stringEnd? quote text = some n) :
    ∃ (parts : List StringPart) (rest : List Char), (∀ p ∈ parts, p.Fits quote) ∧
      text = parts.flatMap written ++ quote :: rest ∧ n = (parts.flatMap written).length + 1 := by
  induction text using stringEnd?.induct quote generalizing n with
  | case1 => contradiction
  | case2 c text ih =>
      obtain ⟨m, hm, rfl⟩ := Option.map_eq_some_iff.mp h
      obtain ⟨parts, rest, hfits, rfl, rfl⟩ := ih hm
      exact ⟨.pair c :: parts, rest, List.forall_mem_cons.mpr ⟨trivial, hfits⟩, rfl, rfl⟩
  | case3 text hne =>
      rw [stringEnd?.eq_3 _ _ _ hne, if_pos rfl] at h
      exact ⟨[], text, by simp, rfl, (Option.some.inj h).symm⟩
  | case4 c text hne hquote hstop =>
      rw [stringEnd?.eq_3 _ _ _ hne, if_neg hquote, if_pos hstop] at h
      contradiction
  | case5 c text hne hquote hgo ih =>
      rw [stringEnd?.eq_3 _ _ _ hne, if_neg hquote, if_neg hgo] at h
      obtain ⟨m, hm, rfl⟩ := Option.map_eq_some_iff.mp h
      obtain ⟨parts, rest, hfits, rfl, rfl⟩ := ih hm
      exact ⟨.plain c :: parts, rest,
        List.forall_mem_cons.mpr ⟨⟨hquote, not_or.mp hgo⟩, hfits⟩, rfl, rfl⟩

theorem stringEnd?_cons {quote c : Char} (hc : c ≠ '\\') (rest : List Char) :
    stringEnd? quote (c :: rest) = if c = quote then some 1
      else if c = '\\' ∨ c = '\n' then none else (stringEnd? quote rest).map (· + 1) :=
  stringEnd?.eq_3 _ _ _ fun _ _ hslash _ => hc hslash

/-- Among parts that fit there is no quote to end at. -/
theorem stringEnd?_written {quote : Char} (hquote : quote ≠ '\\') {parts : List StringPart}
    (hfits : ∀ p ∈ parts, p.Fits quote) (rest : List Char) :
    stringEnd? quote (parts.flatMap written ++ quote :: rest) =
      some ((parts.flatMap written).length + 1) := by
  induction parts with
  | nil =>
      rw [List.flatMap_nil, List.nil_append, stringEnd?_cons hquote, if_pos rfl]
      rfl
  | cons p parts ih =>
      obtain ⟨hp, hparts⟩ := List.forall_mem_cons.mp hfits
      cases p with
      | pair c =>
          rw [StringPart.flatMap_pair, List.cons_append, List.cons_append, stringEnd?, ih hparts]
          rfl
      | plain c =>
          rw [StringPart.flatMap_plain, List.cons_append, stringEnd?_cons hp.2.1, if_neg hp.1,
            if_neg (not_or.mpr hp.2), ih hparts]
          rfl

/-- A lexeme is a string exactly if it consists of parts that fit between two quotes. -/
theorem match_string_iff {text rest : List Char} :
    firstMatch (text ++ rest) = some (some .string, rest) ↔
      ∃ (quote : Char) (parts : List StringPart), (quote = '"' ∨ quote = '\'') ∧
        (∀ p ∈ parts, p.Fits quote) ∧ text = quote :: (parts.flatMap written ++ [quote]) := by
  constructor
  · intro h
    obtain ⟨quote, body, rfl, hextent⟩ := extent_of_match (l := ⟨.string, text⟩) rfl h
    obtain ⟨hquote, hend⟩ := extent_string_iff.mp hextent
    obtain ⟨parts, later, hfits, hbody, hlength⟩ := exists_parts_of_stringEnd? hend
    refine ⟨quote, parts, hquote, hfits, congrArg _ ?_⟩
    rw [← List.singleton_append, ← List.append_assoc] at hbody
    exact (List.append_inj hbody (by simpa using hlength)).1
  · rintro ⟨quote, parts, hquote, hfits, rfl⟩
    have hne : quote ≠ '\\' := by rcases hquote with rfl | rfl <;> decide
    refine match_of_extent (extent_string_iff.mpr ⟨hquote, ?_⟩)
    simpa using stringEnd?_written hne hfits rest

/-! ## The replacement of escapes -/

namespace Shape

/-- A text in which the matches of an expression are replaced. They are looked for from the left,
each one behind the match before it, and none is empty. -/
def substitute (e : Shape) (f : List Char → List Char) (text : List Char) : List Char :=
  match text with
  | [] => []
  | c :: later =>
    match e.rest? (c :: later) with
    | none => c :: substitute e f later
    | some rest =>
      if rest.length ≤ later.length then
        f ((c :: later).take (later.length + 1 - rest.length)) ++ substitute e f rest
      else c :: substitute e f later
termination_by text.length

/-- A backslash and a character of the same line. -/
def escape : Shape := seq (char '\\') (one (· != '\n'))

variable {e : Shape} {f : List Char → List Char}

theorem substitute_of_none {c : Char} {rest : List Char} (h : e.rest? (c :: rest) = none) :
    e.substitute f (c :: rest) = c :: e.substitute f rest := by
  rw [substitute, h]

theorem substitute_of_match {part rest : List Char} (hpart : part ≠ [])
    (h : e.rest? (part ++ rest) = some rest) :
    e.substitute f (part ++ rest) = f part ++ e.substitute f rest := by
  obtain ⟨c, later, rfl⟩ := List.exists_cons_of_ne_nil hpart
  rw [List.cons_append] at h ⊢
  rw [substitute, h]
  have hlength : (later ++ rest).length + 1 - rest.length = (c :: later).length := by
    simp only [List.length_append, List.length_cons]
    omega
  dsimp only
  rw [if_pos (by simp), hlength, ← List.cons_append, List.take_left]

/-- A backslash that no character follows, and any other character, stays. -/
theorem substitute_escape_single {c : Char} {rest : List Char}
    (h : ∀ d later, c = '\\' → rest = d :: later → False) :
    escape.substitute f (c :: rest) = c :: escape.substitute f rest := by
  refine substitute_of_none ?_
  rw [escape, char, rest?_seq_one]
  split
  next hc =>
    cases rest with
    | nil => rfl
    | cons d later => exact (h d later (by simpa using hc) rfl).elim
  next => rfl

theorem substitute_escape_pair (c : Char) (rest : List Char) :
    escape.substitute f ('\\' :: c :: rest) =
      (StringPart.pair c).replaced f ++ escape.substitute f rest := by
  rw [replaced]
  split
  next hc =>
    -- the search goes on at the line feed, which is no backslash
    have hnone : escape.rest? ('\\' :: c :: rest) = none := by simp [escape, char, hc]
    rw [substitute_of_none hnone,
      substitute_escape_single fun _ _ hslash _ => absurd (hc.symm.trans hslash) (by decide)]
    rfl
  next hc =>
    have hmatch : escape.rest? (['\\', c] ++ rest) = some rest := by simp [escape, char, hc]
    exact substitute_of_match (by simp) hmatch

/-- The escapes in a text are among the pairs that it splits into: all those that do not go on in
the next line. -/
theorem substitute_written (f : List Char → List Char) {parts : List StringPart}
    (hproper : ∀ p ∈ parts, p.Proper) :
    escape.substitute f (parts.flatMap written) = parts.flatMap (replaced f) := by
  induction parts with
  | nil => rw [List.flatMap_nil, List.flatMap_nil, substitute]
  | cons p parts ih =>
      obtain ⟨hp, hparts⟩ := List.forall_mem_cons.mp hproper
      rw [List.flatMap_cons, List.flatMap_cons, ← ih hparts]
      cases p with
      | plain c => exact substitute_escape_single fun _ _ hc _ => hp hc
      | pair c => exact substitute_escape_pair c _

end Shape

/-- What a match of an escape is replaced by. -/
def translated : List Char → List Char
  | ['\\', c] => match escape? c with
    | some d => [d]
    | none => ['\\', c]
  | text => text

/-- A pair that goes on in the next line is no known escape, so it does not matter that it is left
as it is. -/
theorem replaced_translated : replaced translated = image := by
  funext p
  cases p with
  | plain c => rfl
  | pair c =>
      rw [replaced]
      split
      next hc =>
        rw [hc]
        rfl
      next => rfl

/-- A text is unescaped by replacing its escapes, whether it comes from a string or not. -/
theorem substitute_translated (text : List Char) :
    Shape.escape.substitute translated text = unescape text := by
  induction text using unescape.induct with
  | case1 c rest d hc ih =>
      rw [Shape.substitute_escape_pair, replaced_translated, ih, image, unescape, hc]
      rfl
  | case2 c rest hc ih =>
      rw [Shape.substitute_escape_pair, replaced_translated, ih, image, unescape, hc]
      rfl
  | case3 c rest h ih => rw [Shape.substitute_escape_single h, ih, unescape.eq_2 _ _ h]
  | case4 => rw [Shape.substitute, unescape]

/-! ## The value of a string -/

theorem unescape_written {parts : List StringPart} (hproper : ∀ p ∈ parts, p.Proper) :
    unescape (parts.flatMap written) = parts.flatMap image := by
  rw [← substitute_translated, Shape.substitute_written _ hproper, replaced_translated]

/-- A string that the token pattern accepts splits into parts that fit between its quotes, and in no
other way into single characters without a backslash and pairs. The replacement of escapes meets
just these pairs, those before a line feed excepted. The token has what the parts stand for, in
order; and it has what is written if and only if no pair is a known escape. -/
theorem string_splits {text rest : List Char}
    (h : firstMatch (text ++ rest) = some (some .string, rest)) :
    ∃ (quote : Char) (parts : List StringPart), (quote = '"' ∨ quote = '\'') ∧
      text = quote :: (parts.flatMap written ++ [quote]) ∧ (∀ p ∈ parts, p.Fits quote) ∧
      (∀ others : List StringPart, (∀ p ∈ others, p.Proper) →
        others.flatMap written = parts.flatMap written → others = parts) ∧
      (∀ f, Shape.escape.substitute f (parts.flatMap written) = parts.flatMap (replaced f)) ∧
      Lexeme.symbol? ⟨.string, text⟩ =
        .ok (some (.string (String.ofList (parts.flatMap image)))) ∧
      (Lexeme.symbol? ⟨.string, text⟩ =
          .ok (some (.string (String.ofList (parts.flatMap written)))) ↔
        ∀ c, .pair c ∈ parts → escape? c = none) := by
  obtain ⟨quote, parts, hquote, hfits, rfl⟩ := match_string_iff.mp h
  have hproper : ∀ p ∈ parts, p.Proper := fun p hp => (hfits p hp).proper
  have hsymbol : Lexeme.symbol? ⟨.string, quote :: (parts.flatMap written ++ [quote])⟩ =
      .ok (some (.string (String.ofList (parts.flatMap image)))) := by
    rw [Lexeme.symbol?, List.drop_succ_cons, List.drop_zero, List.dropLast_concat,
      unescape_written hproper]
  refine ⟨quote, parts, hquote, rfl, hfits,
    fun others hothers hsame => StringPart.eq_of_written_eq hothers hproper hsame,
    fun f => Shape.substitute_written f hproper, hsymbol, ?_⟩
  rw [hsymbol, ← StringPart.flatMap_image_eq_iff, Except.ok.injEq, Option.some.injEq,
    Symbol.string.injEq, String.ofList_inj]

/-- A string with a pair that is no escape, one that goes on in the next line, the other quote, and
three pairs before the closing quote. -/
def knotted : List StringPart :=
  [.pair 'd', .plain '+', .pair '\n', .plain '\'', .pair '\\', .pair '"', .pair '\\']

/-- The string ends at the first quote that no backslash takes, though another quote follows, and
only the last three pairs are replaced. -/
theorem string_splits_knotted :
    let text := '"' :: (knotted.flatMap written ++ ['"'])
    firstMatch (text ++ ['"', ';']) = some (some .string, ['"', ';']) ∧
      Lexeme.symbol? ⟨.string, text⟩ = .ok (some (.string "\\d+\\\n'\\\"\\")) := by
  intro text
  have hfits : ∀ p ∈ knotted, p.Fits '"' := by simp [knotted, StringPart.Fits]
  have hmatch : firstMatch (text ++ ['"', ';']) = some (some .string, ['"', ';']) :=
    match_string_iff.mpr ⟨'"', knotted, .inl rfl, hfits, rfl⟩
  obtain ⟨quote, parts, -, htext, -, hunique, -, hsymbol, -⟩ := string_splits hmatch
  obtain ⟨rfl, hbody⟩ := List.cons.inj htext
  obtain rfl := hunique knotted (fun p hp => (hfits p hp).proper) (List.append_cancel_right hbody)
  exact ⟨hmatch, hsymbol⟩

end SupplyGauge.Config
