import Mathlib.Logic.Function.Basic
import SupplyGauge.Config.Parser

/-! # The grammar of settings documents

A document is a sequence of items. A directive is a name, values and a semicolon; a
block is a name, perhaps a word as its label, and items between braces. A derivation
says which item each token belongs to, and where the token stands. The grammar is not
ambiguous: a derivation can be told from its tokens.
-/

namespace SupplyGauge.Config

/-- A name without quotes, or a quoted string. -/
inductive Word where
  | bare (name : String)
  | quoted (s : String)
  deriving DecidableEq

def Word.symbol : Word → Symbol
  | .bare name => .identifier name
  | .quoted s => .string s

def Word.text : Word → String
  | .bare name => name
  | .quoted s => s

/-- What may stand among the values of a directive. -/
inductive Literal where
  | word (w : Word)
  | number (v : Quantity)
  | duration (v : Quantity)
  | boolean (b : Bool)
  deriving DecidableEq

def Literal.symbol : Literal → Symbol
  | .word w => w.symbol
  | .number v => .number v
  | .duration v => .duration v
  | .boolean b => .boolean b

def Literal.value : Literal → Scalar
  | .word w => .text w.text
  | .number v => v.scalar
  | .duration v => v.scalar
  | .boolean b => .flag b

def Literal.token (literal : Literal × Place) : Token := ⟨literal.1.symbol, literal.2⟩

def Literal.valuesOf (literals : List (Literal × Place)) : List Scalar :=
  literals.map fun v => v.1.value

/-- A derivation of an item. It keeps the places of all its tokens. -/
inductive Item where
  | directive (name : String) (place : Place) (values : List (Literal × Place)) (semicolon : Place)
  | block (type : String) (place : Place) (label : Option (Word × Place)) (openBrace : Place)
      (items : List Item) (closeBrace : Place)

/-- The values that stand in the place of a label: none, or one word. -/
def labelValues (label : Option (Word × Place)) : List (Literal × Place) :=
  label.toList.map fun (w, place) => (.word w, place)

mutual

/-- The tokens from which an item is derived. -/
def Item.tokens : Item → List Token
  | .directive name place values semicolon =>
    ⟨.identifier name, place⟩ :: (values.map Literal.token ++ [⟨.semicolon, semicolon⟩])
  | .block type place label openBrace items closeBrace =>
    ⟨.identifier type, place⟩ :: ((labelValues label).map Literal.token ++
      ⟨.openBrace, openBrace⟩ :: (Item.tokensOf items ++ [⟨.closeBrace, closeBrace⟩]))

/-- The tokens from which a sequence of items is derived. -/
def Item.tokensOf : List Item → List Token
  | [] => []
  | item :: rest => item.tokens ++ Item.tokensOf rest

end

/-- The directive that an item stands for, if it is one. Its line is that of its name. -/
def Item.directive? : Item → Option Directive
  | .directive name place values _ => some ⟨name, Literal.valuesOf values, place.line⟩
  | .block .. => none

def Item.directivesOf (items : List Item) : List Directive := items.filterMap Item.directive?

mutual

/-- The block that an item stands for, if it is one. Its line is that of its name. -/
def Item.block? : Item → Option Block
  | .directive .. => none
  | .block type place label _ items _ =>
    some (.mk type (label.map fun w => w.1.text) place.line (Item.directivesOf items)
      (Item.blocksOf items))

def Item.blocksOf : List Item → List Block
  | [] => []
  | item :: rest => item.block?.toList ++ Item.blocksOf rest

end

/-- The document that a derivation stands for: its directives and its blocks, in order. -/
def Document.ofItems (filename : String) (items : List Item) : Document :=
  ⟨filename, Item.directivesOf items, Item.blocksOf items⟩

theorem Item.tokensOf_append (items later : List Item) :
    tokensOf (items ++ later) = tokensOf items ++ tokensOf later := by
  induction items with
  | nil => rfl
  | cons item items ih => simp [tokensOf, ih]

theorem Item.blocksOf_append (items later : List Item) :
    blocksOf (items ++ later) = blocksOf items ++ blocksOf later := by
  induction items with
  | nil => rfl
  | cons item items ih => simp [blocksOf, ih]

theorem Item.directivesOf_append (items later : List Item) :
    directivesOf (items ++ later) = directivesOf items ++ directivesOf later :=
  List.filterMap_append

/-- A literal is a symbol that has a value, and its value is that of the symbol. -/
@[simp] theorem Literal.value?_symbol (literal : Literal) :
    literal.symbol.value? = some literal.value := by
  rcases literal with (_ | _) | _ | _ | _ <;> rfl

theorem Literal.symbol_injective : Function.Injective Literal.symbol := by
  rintro ((_ | _) | _ | _ | _) ((_ | _) | _ | _ | _) h <;> simp_all [Literal.symbol, Word.symbol]

theorem Literal.token_injective : Function.Injective Literal.token := by
  rintro ⟨literal, place⟩ ⟨literal', place'⟩ h
  obtain ⟨hsymbol, hplace⟩ := Token.mk.inj h
  exact Prod.ext (Literal.symbol_injective hsymbol) hplace

theorem labelValues_injective : Function.Injective labelValues := by
  rintro (_ | ⟨w, place⟩) (_ | ⟨w', place'⟩) h <;> simp_all [labelValues]

/-- Values end at the first token that is none. -/
theorem values_cancel {values values' : List (Literal × Place)} {t t' : Token}
    {rest rest' : List Token} (ht : t.symbol.value? = none) (ht' : t'.symbol.value? = none)
    (h : values.map Literal.token ++ t :: rest = values'.map Literal.token ++ t' :: rest') :
    values = values' ∧ t = t' ∧ rest = rest' := by
  induction values generalizing values' with
  | nil =>
      cases values' with
      | nil => simpa using h
      | cons v' values' =>
          obtain ⟨rfl, -⟩ := List.cons.inj h
          simp [Literal.token] at ht
  | cons v values ih =>
      cases values' with
      | nil =>
          obtain ⟨rfl, -⟩ := List.cons.inj h
          simp [Literal.token] at ht'
      | cons v' values' =>
          obtain ⟨hv, hrest⟩ := List.cons.inj h
          obtain ⟨rfl, hends⟩ := ih hrest
          exact ⟨congrArg (· :: values) (Literal.token_injective hv), hends⟩

/-- Whether no item begins with the first of some tokens. -/
def BeginsNone (tokens : List Token) : Prop :=
  ∀ t ∈ tokens.head?, ∀ name, t.symbol ≠ .identifier name

theorem Item.tokens_eq_cons (item : Item) :
    ∃ name place rest, item.tokens = ⟨.identifier name, place⟩ :: rest := by
  cases item with
  | directive name place => exact ⟨name, place, _, by rw [Item.tokens]⟩
  | block type place => exact ⟨type, place, _, by rw [Item.tokens]⟩

mutual

/-- An item can be told from its tokens and those that follow. -/
theorem Item.tokens_cancel (item item' : Item) (rest rest' : List Token)
    (h : item.tokens ++ rest = item'.tokens ++ rest') : item = item' ∧ rest = rest' := by
  cases item with
  | directive name place values semicolon =>
      cases item' with
      | directive name' place' values' semicolon' =>
          simp only [Item.tokens, List.cons_append, List.append_assoc, List.nil_append,
            List.cons.injEq, Token.mk.injEq, Symbol.identifier.injEq] at h
          obtain ⟨⟨rfl, rfl⟩, htail⟩ := h
          obtain ⟨rfl, hends, rfl⟩ := values_cancel rfl rfl htail
          exact ⟨by rw [(Token.mk.inj hends).2], rfl⟩
      | block type' place' label' openBrace' items' closeBrace' =>
          -- after the same values a semicolon would have to be a brace
          simp only [Item.tokens, List.cons_append, List.append_assoc, List.nil_append,
            List.cons.injEq] at h
          obtain ⟨-, hends, -⟩ := values_cancel rfl rfl h.2
          simp at hends
  | block type place label openBrace items closeBrace =>
      cases item' with
      | directive name' place' values' semicolon' =>
          simp only [Item.tokens, List.cons_append, List.append_assoc, List.nil_append,
            List.cons.injEq] at h
          obtain ⟨-, hends, -⟩ := values_cancel rfl rfl h.2
          simp at hends
      | block type' place' label' openBrace' items' closeBrace' =>
          simp only [Item.tokens, List.cons_append, List.append_assoc, List.nil_append,
            List.cons.injEq, Token.mk.injEq, Symbol.identifier.injEq] at h
          obtain ⟨⟨rfl, rfl⟩, htail⟩ := h
          obtain ⟨hlabel, hopen, hbody⟩ := values_cancel rfl rfl htail
          obtain rfl := labelValues_injective hlabel
          obtain ⟨-, rfl⟩ := Token.mk.inj hopen
          obtain ⟨rfl, hclose⟩ := Item.tokensOf_cancel items items' _ _
            (by simp [BeginsNone]) (by simp [BeginsNone]) hbody
          obtain ⟨hends, rfl⟩ := List.cons.inj hclose
          exact ⟨by rw [(Token.mk.inj hends).2], rfl⟩

/-- Items can be told from their tokens and those that follow, with which no item begins. -/
theorem Item.tokensOf_cancel (items items' : List Item) (rest rest' : List Token)
    (hrest : BeginsNone rest) (hrest' : BeginsNone rest')
    (h : tokensOf items ++ rest = tokensOf items' ++ rest') : items = items' ∧ rest = rest' := by
  match items, items' with
  | [], [] => exact ⟨rfl, h⟩
  | [], item' :: _ =>
      obtain ⟨name, place, more, hitem⟩ := item'.tokens_eq_cons
      simp only [tokensOf, hitem, List.nil_append, List.cons_append] at h
      simp [h, BeginsNone] at hrest
  | item :: _, [] =>
      obtain ⟨name, place, more, hitem⟩ := item.tokens_eq_cons
      simp only [tokensOf, hitem, List.nil_append, List.cons_append] at h
      simp [← h, BeginsNone] at hrest'
  | item :: items, item' :: items' =>
      simp only [tokensOf, List.append_assoc] at h
      obtain ⟨rfl, hitems⟩ := Item.tokens_cancel item item' _ _ h
      obtain ⟨rfl, hends⟩ := Item.tokensOf_cancel items items' rest rest' hrest hrest' hitems
      exact ⟨rfl, hends⟩

end

/-- No tokens have two derivations. -/
theorem Item.tokensOf_injective : Function.Injective tokensOf := by
  intro items items' h
  have hnone : BeginsNone [] := by simp [BeginsNone]
  exact (tokensOf_cancel items items' [] [] hnone hnone (by rw [h])).1

end SupplyGauge.Config
