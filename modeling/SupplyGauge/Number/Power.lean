/-! # Powers of two and ten

Significands are shifted by powers of two, and decimals by powers of ten.
-/

namespace SupplyGauge

def twoTo (n : Nat) : Nat := Nat.pow 2 n

def tenTo (n : Nat) : Nat := Nat.pow 10 n

theorem twoTo_pos (n : Nat) : 0 < twoTo n := Nat.two_pow_pos n

theorem tenTo_pos (n : Nat) : 0 < tenTo n := Nat.pow_pos (by decide)

theorem one_lt_twoTo {n : Nat} (h : n ≠ 0) : 1 < twoTo n := Nat.one_lt_two_pow h

end SupplyGauge
