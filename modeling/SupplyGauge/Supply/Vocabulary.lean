import SupplyGauge.Number.Binary64
/-! # Categories

Some attributes are words of a fixed vocabulary. The place of a word in its
vocabulary is its code; words outside it get the code of the first one, which is
`Unknown` in every vocabulary.
-/

namespace SupplyGauge.Supply

/-- Attributes reported as categories. -/
inductive Category where
  | chargeType
  | health
  | status
  deriving DecidableEq, Repr

/-- Name of the attribute that a category belongs to. -/
def Category.name : Category → String
  | .chargeType => "charge_type"
  | .health => "health"
  | .status => "status"

def Category.all : List Category := [.chargeType, .health, .status]

def Category.ofName? (name : String) : Option Category :=
  all.find? (·.name == name)

/-- The words of a category in the order of their codes. -/
def Category.words : Category → List String
  | .chargeType => ["Unknown", "N/A", "Trickle", "Fast"]
  | .health => ["Unknown", "Good", "Overheat", "Dead", "Over voltage", "Unspecified failure",
      "Cold", "Watchdog timer expire", "Safety timer expire"]
  | .status => ["Unknown", "Charging", "Discharging", "Not charging", "Full"]

/-- Gives a key a value: in its place if the key is there, at the end if it is new. -/
def assign {α : Type} (key : String) (value : α) : List (String × α) → List (String × α)
  | [] => [(key, value)]
  | (k, v) :: rest => if k = key then (k, value) :: rest else (k, v) :: assign key value rest

/-- Codes of words: a repeated word keeps its first place and its last code. -/
def codesFrom (n : Nat) (assigned : List (String × Binary64)) :
    List String → List (String × Binary64)
  | [] => assigned
  | w :: rest => codesFrom (n + 1) (assign w (.ofInt n) assigned) rest

def codes (words : List String) : List (String × Binary64) := codesFrom 0 [] words

def Category.code (k : Category) (text : String) : Binary64 :=
  ((codes k.words).lookup text).getD .zero

end SupplyGauge.Supply
