import Mathlib.Order.Defs.LinearOrder
import StyledTiles.Decision

/-!
# The order of decisions

No is below unknown, and unknown is below yes. A decision that is higher up is one to keep more: where a
feature with a decision stays, one with a higher decision stays too, whatever is done with the unknown.
-/
namespace StyledTiles.Decision

def rank : Decision → Nat
  | .no => 0
  | .unknown => 1
  | .yes => 2

instance : LE Decision where
  le d e := d.rank ≤ e.rank

instance (d e : Decision) : Decidable (d ≤ e) := inferInstanceAs (Decidable (d.rank ≤ e.rank))

theorem le_refl (d : Decision) : d ≤ d := Nat.le_refl d.rank

theorem no_le (d : Decision) : .no ≤ d := by cases d <;> decide

theorem le_yes (d : Decision) : d ≤ .yes := by cases d <;> decide

theorem le_no_iff {d : Decision} : d ≤ .no ↔ d = .no := by cases d <;> decide

theorem yes_le_iff {d : Decision} : .yes ≤ d ↔ d = .yes := by cases d <;> decide

theorem unknown_le_iff {d : Decision} : .unknown ≤ d ↔ d = .yes ∨ d = .unknown := by
  cases d <;> decide

/-- A decision is known by whether it is yes and whether it is no. -/
theorem eq_of_ends {d e : Decision} (hyes : d = .yes ↔ e = .yes) (hno : d = .no ↔ e = .no) : d = e := by
  cases d with
  | yes => exact (hyes.mp rfl).symm
  | no => exact (hno.mp rfl).symm
  | unknown =>
    cases e with
    | yes => exact hyes.mpr rfl
    | no => exact hno.mpr rfl
    | unknown => rfl

theorem le_antisymm {d e : Decision} (h : d ≤ e) (h' : e ≤ d) : d = e := by
  refine eq_of_ends ⟨fun hd => ?_, fun he => ?_⟩ ⟨fun hd => ?_, fun he => ?_⟩
  · exact yes_le_iff.mp (hd ▸ h)
  · exact yes_le_iff.mp (he ▸ h')
  · exact le_no_iff.mp (hd ▸ h')
  · exact le_no_iff.mp (he ▸ h)

/-- The greater and the lesser of two decisions are those of the order. -/
instance : LinearOrder Decision where
  le_refl := le_refl
  le_trans _ _ _ := Nat.le_trans
  le_antisymm _ _ := le_antisymm
  le_total d e := Nat.le_total d.rank e.rank
  toDecidableLE := inferInstance
  toDecidableEq := inferInstance
  max := or
  min := and
  max_def d e := by cases d <;> cases e <;> rfl
  min_def d e := by cases d <;> cases e <;> rfl

/-- Whether a feature with the decision stays. -/
def stays (keepUnknown : Bool) : Decision → Bool
  | .yes => true
  | .unknown => keepUnknown
  | .no => false

theorem stays_mono {keepUnknown : Bool} {d e : Decision} (h : d ≤ e)
    (hd : d.stays keepUnknown = true) : e.stays keepUnknown = true := by
  cases d with
  | yes =>
    obtain rfl := yes_le_iff.mp h
    rfl
  | unknown =>
    rcases unknown_le_iff.mp h with rfl | rfl
    · rfl
    · exact hd
  | no => cases hd

end StyledTiles.Decision
