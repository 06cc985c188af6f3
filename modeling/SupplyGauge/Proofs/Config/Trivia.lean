import Mathlib.Data.List.TakeWhile
import SupplyGauge.Proofs.Config.Boundaries
import SupplyGauge.Proofs.Config.Unlined

/-! # Comments and white space

Comments and white space may stand between tokens, and what is read does not depend on them. A row
of white space, a comment between `/*` and `*/` and a comment up to the end of its line can be put
in front of any token, and at the end of a text, and the same tokens are read. There is one
exception: where a text ends within a comment that has no end of its line, what is put there goes
on with the comment, up to the end of the first line. So a comment of several lines is then not one.
-/

namespace SupplyGauge.Config

open Text (isDigit isBlank)

/-- White space, a comment with its own end, or one with the end of its line. -/
inductive Trivia : List Char → Prop
  | space {text : List Char} (hne : text ≠ []) (hblank : ∀ c ∈ text, isBlank c = true) : Trivia text
  | block {body : List Char} (hbody : ¬ ['*', '/'] <:+: body) :
      Trivia ('/' :: '*' :: (body ++ ['*', '/']))
  | line {body : List Char} (hbody : '\n' ∉ body) : Trivia ('#' :: (body ++ ['\n']))

/-! ## Lexemes of trivia -/

/-- White space begins nothing else. -/
theorem blank_spec {c : Char} (h : isBlank c = true) : c ≠ '#' ∧ c ≠ '/' ∧ ¬ (c = '"' ∨ c = '\'') ∧
    isDigit c = false ∧ isNamePart c = false ∧ ¬ (c = '{' ∨ c = '}' ∨ c = ';') ∧ c ≠ '.' := by
  have hne {d : Char} (hd : isBlank d = false) : c ≠ d := by
    rintro rfl
    rw [h] at hd
    contradiction
  have hdigit : isDigit c = false := Bool.eq_false_iff.mpr fun hdigit => by
    rw [Text.isBlank_of_isDigit hdigit] at h
    contradiction
  have hname : isNamePart c = false := by
    refine Bool.eq_false_iff.mpr fun hname => ?_
    rw [isNamePart, Bool.or_eq_true, Bool.or_eq_true, isNameStart_iff, Bool.and_eq_true,
      decide_eq_true_eq, decide_eq_true_eq, beq_iff_eq] at hname
    rcases hname with ((hletter | rfl) | hrange) | rfl
    · rw [isLetter_iff] at hletter
      rw [Text.isBlank_ascii (by omega), decide_eq_true_eq] at h
      omega
    · contradiction
    · have hcode : 48 ≤ c.toNat ∧ c.toNat ≤ 57 := hrange
      rw [Text.isBlank_ascii (by omega), decide_eq_true_eq] at h
      omega
    · contradiction
  refine ⟨hne (by decide), hne (by decide), ?_, hdigit, hname, ?_, hne (by decide)⟩
  · rintro (rfl | rfl) <;> contradiction
  · rintro (rfl | rfl | rfl) <;> contradiction

theorem extent_blank {c : Char} (h : isBlank c = true) (rest : List Char) :
    extent c rest = .ok (.space, countWhile isBlank rest + 1) := by
  obtain ⟨hline, hslash, hquote, hdigit, hname, hmark, -⟩ := blank_spec h
  have hstart : isNameStart c = false := by
    refine Bool.eq_false_iff.mpr fun hstart => ?_
    simp [isNamePart, hstart] at hname
  unfold extent
  rw [if_neg hline, if_neg hslash, if_neg hquote, hdigit, if_neg Bool.false_ne_true, hstart,
    if_neg Bool.false_ne_true, if_neg hmark, if_pos h]

/-- A row of white space ends where something else begins. -/
theorem extent_spaces {c : Char} {text rest : List Char} (h : ∀ d ∈ c :: text, isBlank d = true)
    (hrest : NoneAhead isBlank rest) :
    extent c (text ++ rest) = .ok (.space, text.length + 1) := by
  rw [extent_blank (h c List.mem_cons_self),
    countWhile_append (fun d hd => h d (List.mem_cons_of_mem c hd)) hrest]

theorem blank_of_extent {c : Char} {text rest : List Char}
    (h : extent c (text ++ rest) = .ok (.space, text.length + 1)) :
    ∀ d ∈ c :: text, isBlank d = true := by
  have hc : isBlank c = true := by
    by_contra hblank
    unfold extent at h
    repeat' split at h
    all_goals simp_all
  rw [extent_blank hc] at h
  have hlength : countWhile isBlank (text ++ rest) = text.length := by simpa using h
  exact List.forall_mem_cons.mpr ⟨hc, (all_of_countWhile hlength).1⟩

theorem extent_line {body rest : List Char} (hbody : '\n' ∉ body)
    (hrest : NoneAhead (· != '\n') rest) :
    extent '#' (body ++ rest) = .ok (.comment, body.length + 1) := by
  have hall : ∀ c ∈ body, (c != '\n') = true := by
    intro c hc
    rw [bne_iff_ne]
    rintro rfl
    exact hbody hc
  unfold extent
  rw [if_pos rfl, countWhile_append hall hrest]

theorem commentEnd?_body {body : List Char} (h : ¬ ['*', '/'] <:+: body) (rest : List Char) :
    commentEnd? (body ++ '*' :: '/' :: rest) = some (body.length + 2) := by
  induction body with
  | nil => rfl
  | cons c body ih =>
      have hne (later : List Char) (hc : c = '*')
          (hlater : body ++ '*' :: '/' :: rest = '/' :: later) : False := by
        subst hc
        cases body with
        | nil => simp at hlater
        | cons d body =>
            obtain ⟨rfl, -⟩ := List.cons.inj hlater
            exact h ⟨[], body, rfl⟩
      rw [List.cons_append, commentEnd?.eq_2 _ _ hne,
        ih fun hinfix => h (List.infix_cons hinfix)]
      rfl

theorem extent_block {body : List Char} (h : ¬ ['*', '/'] <:+: body) (rest : List Char) :
    extent '/' (('*' :: (body ++ ['*', '/'])) ++ rest) =
      .ok (.comment, ('*' :: (body ++ ['*', '/'])).length + 1) := by
  have hend : commentEnd? (body ++ ['*', '/'] ++ rest) = some (body.length + 2) := by
    rw [List.append_assoc]
    exact commentEnd?_body h rest
  unfold extent
  rw [if_neg (by decide), if_pos rfl, List.cons_append]
  simp only [hend]
  simp

theorem Lexeme.readable_trivia {l : Lexeme} (h : l.isTrivia = true) : l.Readable := by
  obtain ⟨kind, text⟩ := l
  cases kind <;> first | exact ⟨none, rfl⟩ | contradiction

/-- A lexeme of a kind that carries no token is read. -/
theorem Lexes.read_trivia {c : Char} {body rest left : List Char} {kind : LexemeKind}
    {ls : List Lexeme} (hextent : extent c (body ++ rest) = .ok (kind, body.length + 1))
    (hkind : (⟨kind, c :: body⟩ : Lexeme).isTrivia = true) (hrest : Lexes rest ls left) :
    Lexes (c :: body ++ rest) (⟨kind, c :: body⟩ :: ls) left :=
  .read rfl (match_of_extent hextent) (Lexeme.readable_trivia hkind) hrest

/-- Trivia is read as lexemes that carry no token, if no white space follows. -/
theorem Trivia.lexes {trivia rest : List Char} (h : Trivia trivia)
    (hrest : NoneAhead isBlank rest) :
    ∃ ls, Lexes (trivia ++ rest) ls rest ∧ ∀ l ∈ ls, l.isTrivia = true := by
  cases h with
  | space hne hblank =>
      obtain ⟨c, text, rfl⟩ := List.exists_cons_of_ne_nil hne
      have hlexes := Lexes.read_trivia (extent_spaces hblank hrest) rfl (.stop rest)
      exact ⟨_, hlexes, by simp [Lexeme.isTrivia]⟩
  | block hbody =>
      exact ⟨_, .read_trivia (extent_block hbody rest) rfl (.stop rest), by simp [Lexeme.isTrivia]⟩
  | @line body hbody =>
      have hblank : ∀ c ∈ ['\n'], isBlank c = true := List.forall_mem_singleton.mpr (by decide)
      have hextent : extent '\n' ([] ++ rest) = .ok (.space, 1) := extent_spaces hblank hrest
      have hfeed : Lexes (['\n'] ++ rest) _ rest := .read_trivia hextent rfl (.stop rest)
      have hline := Lexes.read_trivia (extent_line hbody (by simp [NoneAhead])) rfl hfeed
      have htext : '#' :: (body ++ ['\n']) ++ rest = '#' :: body ++ (['\n'] ++ rest) := by simp
      exact ⟨_, htext ▸ hline, by simp [Lexeme.isTrivia]⟩

/-- White space at the end of a text, if there is any, carries no token. -/
theorem lexes_blank {text : List Char} (h : ∀ c ∈ text, isBlank c = true) :
    ∃ ls, Lexes text ls [] ∧ ∀ l ∈ ls, l.isTrivia = true := by
  cases text with
  | nil => exact ⟨[], .stop [], by simp⟩
  | cons c text =>
      have hlexes := (Trivia.space (List.cons_ne_nil c text) h).lexes (noneAhead_nil isBlank)
      rwa [List.append_nil] at hlexes

/-- Nothing but white space goes on with trivia in front of it. -/
theorem Trivia.head_spec {trivia : List Char} (h : Trivia trivia) (rest : List Char) :
    ∀ c ∈ (trivia ++ rest).head?, isDigit c = false ∧ isNamePart c = false ∧ c ≠ '.' ∧
      (isBlank c = true → ∀ d ∈ trivia, isBlank d = true) := by
  cases h with
  | space hne hblank =>
      obtain ⟨c, text, rfl⟩ := List.exists_cons_of_ne_nil hne
      intro d hd
      obtain rfl : c = d := by simpa using hd
      obtain ⟨-, -, -, hdigit, hname, -, hpoint⟩ := blank_spec (hblank c List.mem_cons_self)
      exact ⟨hdigit, hname, hpoint, fun _ => hblank⟩
  | block =>
      intro c hc
      obtain rfl : '/' = c := by simpa using hc
      exact ⟨by decide +kernel, by decide, by decide, fun h => absurd h (by decide)⟩
  | line =>
      intro c hc
      obtain rfl : '#' = c := by simpa using hc
      exact ⟨by decide +kernel, by decide, by decide, fun h => absurd h (by decide)⟩

/-! ## Parts of a reading -/

theorem Lexes.append {text mid left : List Char} {ls ls' : List Lexeme} (h : Lexes text ls mid)
    (h' : Lexes mid ls' left) : Lexes text (ls ++ ls') left := by
  induction h with
  | stop => exact h'
  | read htext hmatch hread _ ih => exact .read htext hmatch hread (ih h')

theorem Lexes.split {text left : List Char} {ls ls' : List Lexeme}
    (h : Lexes text (ls ++ ls') left) : ∃ mid, Lexes text ls mid ∧ Lexes mid ls' left := by
  induction ls generalizing text with
  | nil => exact ⟨text, .stop text, h⟩
  | cons l ls ih =>
      cases h with
      | read htext hmatch hread hrest =>
          obtain ⟨mid, hfirst, hlater⟩ := ih hrest
          exact ⟨mid, .read htext hmatch hread hfirst, hlater⟩

theorem Lexes.text_ne_nil {text left : List Char} {l : Lexeme} {ls : List Lexeme}
    (h : Lexes text (l :: ls) left) : l.text ≠ [] := by
  cases h with
  | read htext hmatch hread hrest =>
      obtain ⟨c, body, hl, -⟩ := extent_of_match htext hmatch
      simp [hl]

theorem extent_point (rest : List Char) : extent '.' rest = .error (.unexpected '.') := by
  have hdigit : isDigit '.' = false := by decide +kernel
  unfold extent
  rw [if_neg (by decide), if_neg (by decide), if_neg (by decide), hdigit, if_neg Bool.false_ne_true]
  rfl

/-- What begins with a lexeme begins with no point. -/
theorem Lexes.noneAhead_point {text left : List Char} {l : Lexeme} {ls : List Lexeme}
    (h : Lexes text (l :: ls) left) : NoneAhead (· == '.') text := by
  cases h with
  | read htext hmatch hread hrest =>
      obtain ⟨c, body, hl, hextent⟩ := extent_of_match htext hmatch
      rw [htext, hl]
      intro d hd
      obtain rfl : c = d := by simpa using hd
      refine Bool.eq_false_iff.mpr fun hc => ?_
      rw [beq_iff_eq] at hc
      subst hc
      rw [extent_point] at hextent
      contradiction

/-- Lexemes stay the same when what follows them begins with the same character. -/
theorem Lexes.congr {text mid mid' : List Char} {ls : List Lexeme} (h : Lexes (text ++ mid) ls mid)
    (hhead : mid.head? = mid'.head?) (hpoint : NoneAhead (· == '.') mid) :
    Lexes (text ++ mid') ls mid' := by
  induction ls generalizing text with
  | nil =>
      have htext : text = [] := by simpa using h.text_eq
      exact htext ▸ .stop mid'
  | cons l ls ih =>
      cases h with
      | @read _ rest _ _ _ htext hmatch hread hrest =>
          obtain ⟨c, body, hl, hextent⟩ := extent_of_match htext hmatch
          have hafter := hrest.text_eq
          obtain rfl : text = l.text ++ ls.flatMap Lexeme.text := by
            rw [hafter, ← List.append_assoc] at htext
            exact List.append_cancel_right htext
          obtain rfl : rest = ls.flatMap Lexeme.text ++ mid := hafter
          have hsame : (ls.flatMap Lexeme.text ++ mid).head? =
              (ls.flatMap Lexeme.text ++ mid').head? := by
            rw [List.head?_append, List.head?_append, hhead]
          have hstop : NoneAhead (· == '.') (ls.flatMap Lexeme.text ++ mid) := by
            cases ls with
            | nil => exact hpoint
            | cons => exact hrest.noneAhead_point
          rw [List.append_assoc, hl]
          have hextent' := extent_congr hextent (.of_head?_eq hsame hstop c l.kind)
          exact .read (by rw [hl]) (match_of_extent hextent') hread (ih hrest)

/-! ## Trivia put between lexemes -/

/-- The lexemes that carry tokens. -/
def speaking (ls : List Lexeme) : List Lexeme := ls.filter (!·.isTrivia)

theorem speaking_append (ls ls' : List Lexeme) :
    speaking (ls ++ ls') = speaking ls ++ speaking ls' := List.filter_append ls ls'

theorem speaking_trivia {ls : List Lexeme} (h : ∀ l ∈ ls, l.isTrivia = true) :
    speaking ls = [] := by
  simpa [speaking] using h

/-- Whether a lexeme is a comment up to the end of a line. -/
def Lexeme.IsLine (l : Lexeme) : Prop := l.text.head? = some '#'

/-- Trivia that follows a lexeme is read for itself, or goes on with white space. -/
theorem Lexes.single_insert {l : Lexeme} {rest trivia : List Char}
    (h : Lexes (l.text ++ rest) [l] rest) (hline : ¬ l.IsLine) (hrest : NoneAhead isBlank rest)
    (htrivia : Trivia trivia) : ∃ ls, Lexes (l.text ++ (trivia ++ rest)) ls rest ∧
      speaking ls = speaking [l] := by
  obtain ⟨c, body, hl, hextent⟩ : ∃ c body, l.text = c :: body ∧
      extent c (body ++ rest) = .ok (l.kind, body.length + 1) := by
    cases h with
    | read htext hmatch hread hstop =>
        cases hstop
        exact extent_of_match htext hmatch
  have hread : l.Readable := by
    cases h
    assumption
  have hhead := htrivia.head_spec rest
  rw [hl, List.cons_append]
  by_cases hspace : l.kind = .space ∧ ∀ c ∈ trivia, isBlank c = true
  · -- the two rows of white space are one
    obtain ⟨hkind, hblank⟩ := hspace
    rw [hkind] at hextent
    have hall : ∀ d ∈ c :: (body ++ trivia), isBlank d = true := by
      rw [← List.cons_append]
      exact List.forall_mem_append.mpr ⟨blank_of_extent hextent, hblank⟩
    have hlonger := extent_spaces hall hrest
    have hlexes := Lexes.read_trivia hlonger rfl (.stop rest)
    refine ⟨_, by simpa using hlexes, ?_⟩
    simp [speaking, Lexeme.isTrivia, hkind]
  · obtain ⟨ls, hlexes, hsilent⟩ := htrivia.lexes hrest
    have hletter (d : Char) (hd : isNamePart d = false) : isLetter d = false := by
      refine Bool.eq_false_iff.mpr fun hletter => ?_
      simp [isNamePart, isNameStart, hletter] at hd
    have hends : EndsAlike c l.kind rest (trivia ++ rest) := by
      refine ⟨fun _ d hd => (hhead d hd).1, fun _ d hd => hletter d (hhead d hd).2.1,
        fun _ d hd => (hhead d hd).2.1, fun d hd => ?_, fun hc => ?_, fun hkind _ d hd => ?_⟩
      · simpa using (hhead d hd).2.2.1
      · exact absurd (by rw [Lexeme.IsLine, hl, hc]; rfl) hline
      · exact Bool.eq_false_iff.mpr fun hblank => hspace ⟨hkind, (hhead d hd).2.2.2 hblank⟩
    have hextent' := extent_congr hextent hends
    refine ⟨l :: ls,
      .read (by rw [hl, List.cons_append]) (match_of_extent hextent') hread hlexes, ?_⟩
    have hsplit : l :: ls = [l] ++ ls := rfl
    rw [hsplit, speaking_append, speaking_trivia hsilent, List.append_nil]

/-- What is put after the last lexeme of a text does not change those before it. -/
theorem Lexes.replace_last {before after : List Char} {init : List Lexeme} {l : Lexeme}
    (h : Lexes (before ++ after) (init ++ [l]) after) : Lexes (l.text ++ after) [l] after ∧
      ∀ rest ls left, Lexes (l.text ++ rest) ls left →
        Lexes (before ++ rest) (init ++ ls) left := by
  obtain ⟨mid, hinit, hlast⟩ := h.split
  obtain rfl : mid = l.text ++ after := by simpa using hlast.text_eq
  refine ⟨hlast, fun rest ls left hrest => ?_⟩
  obtain rfl : before = init.flatMap Lexeme.text ++ l.text := by
    have htext := h.text_eq
    rw [List.flatMap_append, List.flatMap_singleton] at htext
    exact List.append_cancel_right htext
  have hhead : (l.text ++ after).head? = (l.text ++ rest).head? := by
    obtain ⟨c, body, hl⟩ := List.exists_cons_of_ne_nil hlast.text_ne_nil
    rw [hl]
    rfl
  rw [List.append_assoc] at hinit ⊢
  exact (hinit.congr hhead hlast.noneAhead_point).append hrest

/-- Trivia may be put between lexemes if the one in front of it has its own end. -/
theorem Lexes.insert {before after trivia : List Char} {ls : List Lexeme}
    (h : Lexes (before ++ after) ls after) (hline : ∀ l ∈ ls.getLast?, ¬ l.IsLine)
    (hafter : NoneAhead isBlank after) (htrivia : Trivia trivia) :
    ∃ ls', Lexes (before ++ (trivia ++ after)) ls' after ∧ speaking ls' = speaking ls := by
  rcases List.eq_nil_or_concat ls with rfl | ⟨init, l, rfl⟩
  · have hbefore : before = [] := by simpa using h.text_eq
    obtain ⟨ls', hlexes, hsilent⟩ := htrivia.lexes hafter
    exact ⟨ls', hbefore ▸ hlexes, speaking_trivia hsilent⟩
  · rw [List.concat_eq_append] at *
    obtain ⟨hlast, hreplace⟩ := h.replace_last
    obtain ⟨ls', hlexes, hsame⟩ := hlast.single_insert (hline l (by simp)) hafter htrivia
    exact ⟨init ++ ls', hreplace _ _ _ hlexes, by rw [speaking_append, hsame, ← speaking_append]⟩

/-- A comment that goes on to the end of its line goes on with what is put there, up to the next
line feed. -/
theorem Lexes.single_line {l : Lexeme} {rest : List Char} (h : Lexes (l.text ++ rest) [l] rest)
    (hline : l.IsLine) : l.isTrivia = true ∧ NoneAhead (· != '\n') rest ∧ ∀ inserted,
      Lexes (l.text ++ inserted) [⟨.comment, l.text ++ inserted.takeWhile (· != '\n')⟩]
        (inserted.dropWhile (· != '\n')) := by
  cases h with
  | read htext hmatch hread hstop =>
      cases hstop
      obtain ⟨c, body, hl, hextent⟩ := extent_of_match htext hmatch
      obtain rfl : c = '#' := by simpa [Lexeme.IsLine, hl] using hline
      have hlength : l.kind = .comment ∧ countWhile (· != '\n') (body ++ rest) = body.length := by
        unfold extent at hextent
        rw [if_pos rfl] at hextent
        obtain ⟨hkind, hn⟩ := Prod.mk.inj (Except.ok.inj hextent)
        exact ⟨hkind.symm, Nat.succ.inj hn⟩
      obtain ⟨hbody, hrest⟩ := all_of_countWhile hlength.2
      refine ⟨by simp [Lexeme.isTrivia, hlength.1], hrest, fun inserted => ?_⟩
      have hall : '\n' ∉ body ++ inserted.takeWhile (· != '\n') := by
        intro hfeed
        have hinserted : ∀ c ∈ inserted.takeWhile (· != '\n'), (c != '\n') = true :=
          List.all_eq_true.mp List.all_takeWhile
        rcases List.mem_append.mp hfeed with hfeed | hfeed
        · exact absurd (hbody _ hfeed) (by decide)
        · exact absurd (hinserted _ hfeed) (by decide)
      have hextent := extent_line hall (noneAhead_dropWhile _ inserted)
      have hlexes := Lexes.read_trivia hextent rfl (.stop _)
      rw [hl, List.cons_append, List.cons_append]
      simpa using hlexes

/-! ## Tokens -/

theorem filter_located (read : List Char) (ls : List Lexeme) :
    ((located read ls).filter fun p => !p.2.isTrivia).map Prod.snd = speaking ls := by
  induction ls generalizing read with
  | nil => rfl
  | cons l ls ih =>
      rw [located, List.filter_cons, speaking, List.filter_cons]
      split
      next => rw [List.map_cons, ih]; rfl
      next => exact ih _

theorem exhausted_of_stuckAt_nil {fault : LexFault} : ¬ StuckAt [] fault := by
  intro h
  cases h with
  | unreadable htext hmatch hfault =>
      have hnil : firstMatch [] = none := by decide
      rw [hnil] at hmatch
      contradiction

/-- A text that falls into lexemes is read to its end, with a token for each lexeme that carries
one. -/
theorem Tokens.reads_lexes {text : List Char} {ls : List Lexeme} (h : Lexes text ls []) :
    (∃ e, (Tokens.ofText text).ending = .ok e) ∧
      List.Forall₂ Carries ((located [] ls).filter fun p => !p.2.isTrivia)
        (Tokens.ofText text).tokens := by
  obtain ⟨ls', left, hlexes, hcarries, hending⟩ := reads_from [] text
  have hstart : Tokens.at (.behind []) text = Tokens.ofText text := rfl
  rw [hstart] at hcarries hending
  have hexhausted : Exhausted left := by
    split at hending
    next => exact hending.1 ▸ exhausted_nil
    next => exact hending.1.exhausted
  obtain rfl : ls' = ls := (h.isPrefix exhausted_nil hlexes).eq_of_length_le
    (hlexes.isPrefix hexhausted h).length_le
  obtain rfl : left = [] := by
    have htext := hlexes.text_eq.symm.trans h.text_eq
    exact List.append_cancel_left htext
  refine ⟨?_, hcarries⟩
  split at hending
  next e he => exact ⟨e, he⟩
  next => exact absurd hending.1 exhausted_of_stuckAt_nil

theorem Tokens.exists_lexes {text : List Char} {e : Place}
    (h : (Tokens.ofText text).ending = .ok e) : ∃ ls, Lexes text ls [] := by
  obtain ⟨ls, left, hlexes, -, hending⟩ := reads_from [] text
  have hstart : Tokens.at (.behind []) text = Tokens.ofText text := rfl
  rw [hstart, h] at hending
  exact ⟨ls, hending.1 ▸ hlexes⟩

/-- The symbols of a text are what its lexemes say. -/
theorem Tokens.symbols_of_lexes {text : List Char} {ls : List Lexeme} (h : Lexes text ls []) :
    ((Tokens.ofText text).tokens.map Token.symbol).map (fun s => Except.ok (some s)) =
      (speaking ls).map Lexeme.symbol? := by
  have hcarries := (reads_lexes h).2
  rw [← filter_located [], List.map_map, List.map_map]
  generalize (Tokens.ofText text).tokens = tokens at hcarries ⊢
  generalize (located [] ls).filter (fun p => !p.2.isTrivia) = carrying at hcarries ⊢
  induction hcarries with
  | nil => rfl
  | cons hcarry _ ih =>
      rw [List.map_cons, List.map_cons, ih, Function.comp, Function.comp, hcarry.1]

theorem Tokens.symbols_congr {text text' : List Char} {ls ls' : List Lexeme} (h : Lexes text ls [])
    (h' : Lexes text' ls' []) (hsame : speaking ls' = speaking ls) :
    (Tokens.ofText text').tokens.map Token.symbol =
      (Tokens.ofText text).tokens.map Token.symbol := by
  have hinjective : Function.Injective fun s : Symbol => (Except.ok (some s) :
      Except LexFault (Option Symbol)) := fun s s' heq => by simpa using heq
  refine List.map_injective_iff.mpr hinjective ?_
  rw [symbols_of_lexes h', symbols_of_lexes h, hsame]

/-! ## Places -/

theorem Place.behind_append_ne {read text : List Char} (h : text ≠ []) :
    behind (read ++ text) ≠ behind read := by
  intro hsame
  obtain ⟨hline, hcolumn⟩ := Place.mk.inj hsame
  have hfeed : ∀ c ∈ text.reverse, (c != '\n') = true := by
    rw [List.count_append] at hline
    have hnone : '\n' ∉ text := List.count_eq_zero.mp (by omega)
    intro c hc
    rw [bne_iff_ne]
    rintro rfl
    exact hnone (List.mem_reverse.mp hc)
  rw [List.reverse_append, List.takeWhile_append_of_pos hfeed, List.length_append,
    List.length_reverse] at hcolumn
  exact h (List.eq_nil_of_length_eq_zero (by omega))

/-- A place is one position in a text only. -/
theorem Place.behind_injective {before before' after after' : List Char}
    (htext : before ++ after = before' ++ after')
    (h : Place.behind before = Place.behind before') : before = before' := by
  rcases List.append_eq_append_iff.mp htext with ⟨between, rfl, -⟩ | ⟨between, rfl, -⟩
  all_goals
    by_cases hbetween : between = []
    · rw [hbetween, List.append_nil]
  · exact absurd h.symm (behind_append_ne hbetween)
  · exact absurd h (behind_append_ne hbetween)

theorem mem_located {read before : List Char} {l : Lexeme} {ls : List Lexeme}
    (h : (before, l) ∈ located read ls) :
    ∃ init later, ls = init ++ l :: later ∧ before = read ++ init.flatMap Lexeme.text := by
  induction ls generalizing read with
  | nil => simp [located] at h
  | cons l' ls ih =>
      rcases List.mem_cons.mp h with hfirst | hlater
      · obtain ⟨rfl, rfl⟩ := Prod.mk.inj hfirst
        exact ⟨[], ls, rfl, by simp⟩
      · obtain ⟨init, later, rfl, rfl⟩ := ih hlater
        exact ⟨l' :: init, later, rfl, by simp⟩

theorem exists_carrying {ps : List (List Char × Lexeme)} {ts : List Token} {t : Token}
    (h : List.Forall₂ Carries ps ts) (ht : t ∈ ts) : ∃ p ∈ ps, Carries p t := by
  induction h with
  | nil => simp at ht
  | cons hcarry _ ih =>
      rcases List.mem_cons.mp ht with rfl | hlater
      · exact ⟨_, List.mem_cons_self, hcarry⟩
      · obtain ⟨p, hp, hcarries⟩ := ih hlater
        exact ⟨p, List.mem_cons_of_mem _ hp, hcarries⟩

/-- A token, or the end of a text, stands where a lexeme ends, and no white space begins there. -/
theorem Tokens.split_at {before after : List Char} {e : Place}
    (h : (Tokens.ofText (before ++ after)).ending = .ok e)
    (hplace : after = [] ∨
      ∃ t ∈ (Tokens.ofText (before ++ after)).tokens, t.place = .behind before) :
    ∃ ls ls', Lexes (before ++ after) ls after ∧ Lexes after ls' [] ∧ NoneAhead isBlank after := by
  obtain ⟨ls, hlexes⟩ := exists_lexes h
  rcases hplace with rfl | ⟨t, ht, hplace⟩
  · exact ⟨ls, [], hlexes, .stop [], noneAhead_nil _⟩
  · have hcarries := (reads_lexes hlexes).2
    obtain ⟨⟨read, l⟩, hmem, hcarry⟩ := exists_carrying hcarries ht
    obtain ⟨hmem, htrivia⟩ := List.mem_filter.mp hmem
    obtain ⟨init, later, rfl, rfl⟩ := mem_located hmem
    obtain ⟨mid, hinit, hlater⟩ := hlexes.split
    have htext := hinit.text_eq
    have hsame : before = init.flatMap Lexeme.text :=
      Place.behind_injective htext (hplace.symm.trans hcarry.2)
    obtain rfl : after = mid := by
      rw [← hsame] at htext
      exact List.append_cancel_left htext
    refine ⟨init, l :: later, hinit, hlater, ?_⟩
    cases hlater with
    | read htext hmatch hread hrest =>
        obtain ⟨c, body, hl, hextent⟩ := extent_of_match htext hmatch
        intro d hd
        obtain rfl : c = d := by simpa [htext, hl] using hd
        refine Bool.eq_false_iff.mpr fun hblank => ?_
        rw [extent_blank hblank] at hextent
        have hkind : l.kind = .space := (Prod.mk.inj (Except.ok.inj hextent)).1.symm
        simp [Lexeme.isTrivia, hkind] at htrivia

/-! ## Texts with trivia put in -/

/-- Whether a text is read to its end and says the same as another one. -/
def SaysSame (text text' : List Char) : Prop :=
  (∃ e, (Tokens.ofText text').ending = .ok e) ∧
    (Tokens.ofText text').tokens.map Token.symbol = (Tokens.ofText text).tokens.map Token.symbol

theorem SaysSame.of_lexes {text text' : List Char} {ls ls' : List Lexeme} (h : Lexes text ls [])
    (h' : Lexes text' ls' []) (hsame : speaking ls' = speaking ls) : SaysSame text text' :=
  ⟨(Tokens.reads_lexes h').1, Tokens.symbols_congr h h' hsame⟩

/-- Whether a text ends within a comment that goes on to the end of its line. -/
def EndsInLine (text : List Char) : Prop :=
  ∃ ls l, Lexes text (ls ++ [l]) [] ∧ l.IsLine

/-- Whether trivia is a comment with its own end that has several lines. -/
def SpansLines (trivia : List Char) : Prop := trivia.head? = some '/' ∧ '\n' ∈ trivia

/-- What comes after the first line of trivia is white space, but for a comment of several lines. -/
theorem Trivia.blank_dropWhile {trivia : List Char} (h : Trivia trivia)
    (hlines : ¬ SpansLines trivia) : ∀ c ∈ trivia.dropWhile (· != '\n'), isBlank c = true := by
  cases h with
  | space hne hblank => exact fun c hc => hblank c ((List.dropWhile_sublist _).subset hc)
  | @block body hbody =>
      have hnil : ('/' :: '*' :: (body ++ ['*', '/'])).dropWhile (· != '\n') = [] := by
        rw [List.dropWhile_eq_nil_iff]
        intro c hc
        rw [bne_iff_ne]
        rintro rfl
        exact hlines ⟨rfl, hc⟩
      rw [hnil]
      simp
  | @line body hbody =>
      have hall : ∀ c ∈ '#' :: body, (c != '\n') = true := by
        intro c hc
        rw [bne_iff_ne]
        rintro rfl
        exact hbody (by simpa using hc)
      rw [← List.cons_append, List.dropWhile_append_of_pos hall]
      exact List.forall_mem_singleton.mpr (by decide)

/-- Where a text ends within a comment of one line, what is put there is read from its first line
feed on. -/
theorem EndsInLine.lexes {text : List Char} (h : EndsInLine text) (inserted : List Char) :
    ∃ ls ls', Lexes text ls [] ∧ speaking ls' = speaking ls ∧
      Lexes (text ++ inserted) ls' (inserted.dropWhile (· != '\n')) := by
  obtain ⟨init, l, hlexes, hline⟩ := h
  rw [← List.append_nil text] at hlexes
  obtain ⟨hlast, hreplace⟩ := hlexes.replace_last
  obtain ⟨htrivia, -, hinserted⟩ := hlast.single_line hline
  refine ⟨_, _, by simpa using hlexes, ?_, hreplace _ _ _ (hinserted inserted)⟩
  have hsilent : speaking [l] = [] := speaking_trivia (by simpa using htrivia)
  rw [speaking_append, speaking_append, hsilent]
  rfl

/-- Trivia may be put in where a token begins or where the text ends, with one exception. -/
theorem Tokens.saysSame_insert {before after trivia : List Char} {e : Place}
    (h : (Tokens.ofText (before ++ after)).ending = .ok e)
    (hplace : after = [] ∨ ∃ t ∈ (Tokens.ofText (before ++ after)).tokens, t.place = .behind before)
    (htrivia : Trivia trivia) (hlines : ¬ (after = [] ∧ EndsInLine before ∧ SpansLines trivia)) :
    SaysSame (before ++ after) (before ++ trivia ++ after) := by
  obtain ⟨ls, later, hlexes, hlater, hblank⟩ := split_at h hplace
  by_cases hline : ∀ l ∈ ls.getLast?, ¬ l.IsLine
  · obtain ⟨ls', hlexes', hsame⟩ := hlexes.insert hline hblank htrivia
    rw [List.append_assoc]
    refine .of_lexes (hlexes.append hlater) (hlexes'.append hlater) ?_
    rw [speaking_append, speaking_append, hsame]
  · push Not at hline
    obtain ⟨l, hl, hline⟩ := hline
    obtain ⟨init, rfl⟩ := List.getLast?_eq_some_iff.mp hl
    -- only the end of the text can stop such a comment, since no token begins with a line feed
    obtain rfl : after = [] := by
      have hstop := (hlexes.replace_last.1.single_line hline).2.1
      cases after with
      | nil => rfl
      | cons c after =>
          obtain rfl : c = '\n' := by simpa [NoneAhead] using hstop
          simp [NoneAhead] at hblank
          contradiction
    rw [List.append_nil] at hlexes ⊢
    rw [List.append_nil]
    have hends : EndsInLine before := ⟨init, l, hlexes, hline⟩
    obtain ⟨ls, ls', hbefore, hsame, hinserted⟩ := hends.lexes trivia
    obtain ⟨tail, htail, hsilent⟩ := lexes_blank
      (htrivia.blank_dropWhile fun hspans => hlines ⟨rfl, hends, hspans⟩)
    refine .of_lexes hbefore (hinserted.append htail) ?_
    rw [speaking_append, hsame, speaking_trivia hsilent, List.append_nil]

/-- A comment of several lines that is put in where a text ends within a comment of one line is
read on from its second line, and has no effect only if there is nothing but trivia. -/
theorem Tokens.saysSame_insert_iff {text inserted : List Char} (h : EndsInLine text) :
    SaysSame text (text ++ inserted) ↔
      (∃ e, (Tokens.ofText (inserted.dropWhile (· != '\n'))).ending = .ok e) ∧
        (Tokens.ofText (inserted.dropWhile (· != '\n'))).tokens = [] := by
  obtain ⟨ls, ls', hlexes, hsame, hinserted⟩ := h.lexes inserted
  constructor
  · rintro ⟨⟨e, he⟩, hsymbols⟩
    obtain ⟨all, hall⟩ := exists_lexes he
    obtain ⟨later, rfl⟩ := hall.isPrefix exhausted_nil hinserted
    obtain ⟨mid, hfirst, hlater⟩ := hall.split
    obtain rfl : mid = inserted.dropWhile (· != '\n') :=
      List.append_cancel_left (hfirst.text_eq.symm.trans hinserted.text_eq)
    refine ⟨(reads_lexes hlater).1, ?_⟩
    have hwhole := symbols_of_lexes hall
    rw [hsymbols, symbols_of_lexes hlexes, speaking_append, hsame] at hwhole
    have hnone : speaking later = [] := by simpa using hwhole
    have htail := symbols_of_lexes hlater
    rw [hnone] at htail
    simpa using htail
  · rintro ⟨⟨e, he⟩, hnone⟩
    obtain ⟨later, hlater⟩ := exists_lexes he
    have htail := symbols_of_lexes hlater
    rw [hnone] at htail
    have hspeaking : speaking later = [] := by simpa using htail.symm
    refine .of_lexes hlexes (hinserted.append hlater) ?_
    rw [speaking_append, hsame, hspeaking, List.append_nil]

/-- Trivia may be put in wherever a token begins and at the end of a text: the same symbols are
read, and the same document up to lines. Only where a text ends within a comment of one line and a
comment of several lines is put there, what is put there counts from its first line feed on. -/
theorem Tokens.ofText_insert {before after trivia : List Char} {e : Place}
    (h : (Tokens.ofText (before ++ after)).ending = .ok e)
    (hplace : after = [] ∨ ∃ t ∈ (Tokens.ofText (before ++ after)).tokens, t.place = .behind before)
    (htrivia : Trivia trivia) :
    (¬ (after = [] ∧ EndsInLine before ∧ SpansLines trivia) →
      SaysSame (before ++ after) (before ++ trivia ++ after) ∧
      ∀ filename, (Document.ofText filename (before ++ trivia ++ after)).toOption.map
          Document.unlined =
        (Document.ofText filename (before ++ after)).toOption.map Document.unlined) ∧
    (after = [] → EndsInLine before →
      (SaysSame (before ++ after) (before ++ trivia ++ after) ↔
        (∃ e, (Tokens.ofText (trivia.dropWhile (· != '\n'))).ending = .ok e) ∧
          (Tokens.ofText (trivia.dropWhile (· != '\n'))).tokens = [])) := by
  refine ⟨fun hlines => ?_, ?_⟩
  · have hsame := saysSame_insert h hplace htrivia hlines
    obtain ⟨⟨e', h'⟩, hsymbols⟩ := hsame
    exact ⟨⟨⟨e', h'⟩, hsymbols⟩, Document.ofText_congr h h' hsymbols⟩
  · rintro rfl hends
    rw [List.append_nil, List.append_nil]
    exact saysSame_insert_iff hends

/-- A text that ends within a comment of one line. -/
def remarked : List Char := "a;#c".toList

/-- A comment of two lines. -/
def twoLines : List Char := "/*\n*/".toList

theorem trivia_twoLines : Trivia twoLines := by
  have hbody : ¬ ['*', '/'] <:+: ['\n'] := by decide
  exact .block hbody

theorem ofText_remarked : Tokens.ofText remarked =
    ⟨[⟨.identifier "a", ⟨1, 1⟩⟩, ⟨.semicolon, ⟨1, 2⟩⟩], .ok ⟨1, 5⟩⟩ := by
  have hlexemes : lexemes remarked = _ := lexemes_read .identifier 'a' []
    (lexemes_read .punctuation ';' [] (lexemes_read .comment '#' ['c'] lexemes_nil rfl) rfl) rfl
  unfold Tokens.ofText
  rw [hlexemes]
  rfl

/-- What is put in after the comment that the text ends with goes on with it, so that the second
line of what is put in is no comment. -/
theorem Tokens.ofText_remarked_twoLines : (Tokens.ofText remarked).ending = .ok ⟨1, 5⟩ ∧
    Trivia twoLines ∧
    (Tokens.ofText (remarked ++ twoLines)).ending = .error ⟨.unexpected '*', ⟨2, 1⟩⟩ := by
  have hstop : lexemes ['*', '/'] = ([], some (.unexpected '*')) := by
    have hextent : extent '*' ['/'] = .error (.unexpected '*') := by decide +kernel
    rw [lexemes, hextent]
  have hlexemes : lexemes (remarked ++ twoLines) = _ := lexemes_read .identifier 'a' []
    (lexemes_read .punctuation ';' [] (lexemes_read .comment '#' ['c', '/', '*']
      (lexemes_read .space '\n' [] hstop rfl) rfl) rfl) rfl
  refine ⟨by rw [ofText_remarked], trivia_twoLines, ?_⟩
  unfold Tokens.ofText
  rw [hlexemes]
  rfl

/-- The same comment may stand in front of the semicolon. -/
theorem Tokens.ofText_insert_remarked :
    SaysSame remarked "a/*\n*/;#c".toList ∧
      (Document.ofText "c.conf" "a/*\n*/;#c".toList).toOption.map Document.unlined =
        (Document.ofText "c.conf" remarked).toOption.map Document.unlined := by
  have hend : (Tokens.ofText (['a'] ++ [';', '#', 'c'])).ending = .ok ⟨1, 5⟩ :=
    congrArg Tokens.ending ofText_remarked
  have hplace : ∃ t ∈ (Tokens.ofText (['a'] ++ [';', '#', 'c'])).tokens,
      t.place = .behind ['a'] := by
    have htokens : (Tokens.ofText (['a'] ++ [';', '#', 'c'])).tokens = _ :=
      congrArg Tokens.tokens ofText_remarked
    rw [htokens]
    exact ⟨⟨.semicolon, ⟨1, 2⟩⟩, by simp, rfl⟩
  obtain ⟨hsame, -⟩ := Tokens.ofText_insert hend (.inr hplace) trivia_twoLines
  obtain ⟨hsame, hdocument⟩ := hsame fun h => List.cons_ne_nil _ _ h.1
  exact ⟨hsame, hdocument "c.conf"⟩

end SupplyGauge.Config
