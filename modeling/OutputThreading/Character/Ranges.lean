/-!
# Sets of characters given by ranges of code points

A class of characters is written down as a list of closed ranges.  Only code points beyond ASCII
are listed in such tables; the ASCII members of each class are spelled out where the class is
defined.
-/

namespace OutputThreading
namespace Character

/-- A set of code points: every pair stands for all numbers from its first to its second one. -/
abbrev Ranges := List (Nat × Nat)

/-- The character's code point lies in one of the ranges. -/
def Ranges.has (ranges : Ranges) (c : Char) : Bool :=
  ranges.any fun range => range.1 ≤ c.toNat && c.toNat ≤ range.2

theorem Ranges.has_eq_true_iff (ranges : Ranges) (c : Char) :
    ranges.has c = true ↔ ∃ range ∈ ranges, range.1 ≤ c.toNat ∧ c.toNat ≤ range.2 := by
  simp [Ranges.has]

end Character
end OutputThreading
