import Mathlib

/-! Timezone-aware datetimes and Python's rule for comparing them: two values that
share their tzinfo object are ordered by wall clock alone, any two others by instant. -/
namespace AwareClock

/-- What the comparisons and the renderings read of an aware datetime. -/
class AwareDatetime (τ : Type) where
  /-- Wall-clock reading in microseconds. -/
  wall : τ → ℤ
  /-- `utcoffset()` in microseconds. -/
  utcoffset : τ → ℤ
  /-- `datetime._cmp`. -/
  cmp : τ → τ → Ordering
  cmp_swap : ∀ a b, cmp b a = (cmp a b).swap

/-- Datetimes that a `timedelta` in microseconds can be added to, as far as the result is
representable, and that can be subtracted. -/
class DatetimeArithmetic (τ : Type) extends AwareDatetime τ where
  add : τ → ℤ → τ
  sub : τ → τ → ℤ
  sub_add : ∀ a d, sub (add a d) a = d
  cmp_add : ∀ a d, cmp a (add a d) = compare 0 d

section Operators

variable {τ : Type} [AwareDatetime τ]

open AwareDatetime

def instant (a : τ) : ℤ := wall a - utcoffset a

def lt (a b : τ) : Bool := cmp a b == .lt
def le (a b : τ) : Bool := cmp a b != .gt
def gt (a b : τ) : Bool := cmp a b == .gt
def ge (a b : τ) : Bool := cmp a b != .lt

def inWindow (lo hi t : τ) : Bool := le lo t && lt t hi

theorem cmp_self (a : τ) : cmp a a = .eq := by
  have h := cmp_swap a a
  cases hc : cmp a a <;> simp_all

@[simp] theorem lt_self (a : τ) : lt a a = false := by simp [lt,cmp_self]

theorem ge_eq_not_lt (a b : τ) : ge a b = !lt a b := rfl

theorem gt_eq_not_le (a b : τ) : gt a b = !le a b := by
  unfold gt le
  cases cmp a b <;> rfl

theorem gt_eq_lt (a b : τ) : gt a b = lt b a := by
  unfold gt lt
  rw [cmp_swap a b]
  cases cmp a b <;> rfl

theorem le_iff_not_lt (a b : τ) : le a b = true ↔ ¬lt b a = true := by
  rw [Bool.not_eq_true,← gt_eq_lt,gt_eq_not_le,Bool.not_eq_false']

theorem inWindow_eq (lo hi t : τ) : inWindow lo hi t = (!lt t lo && lt t hi) := by
  rw [inWindow,← gt_eq_lt lo t,gt_eq_not_le,Bool.not_not]

end Operators

theorem compare_self_add (t d : ℤ) : compare t (t + d) = compare 0 d := by
  rcases lt_trichotomy 0 d with hpos | rfl | hneg
  · rw [compare_lt_iff_lt.mpr hpos,compare_lt_iff_lt.mpr (by omega)]
  · rw [add_zero,compare_eq_iff_eq.mpr rfl,compare_eq_iff_eq.mpr rfl]
  · rw [compare_gt_iff_gt.mpr hneg,compare_gt_iff_gt.mpr (by omega)]

/-- A datetime whose zone is a fixed offset, as every parsed timestamp has. -/
@[ext] structure FixedTime where
  wall : ℤ
  utcoffset : ℤ
  deriving DecidableEq

instance : AwareDatetime FixedTime where
  wall := FixedTime.wall
  utcoffset := FixedTime.utcoffset
  cmp a b := compare (a.wall - a.utcoffset) (b.wall - b.utcoffset)
  cmp_swap _ _ := Std.OrientedCmp.eq_swap

instance : DatetimeArithmetic FixedTime where
  add a d := ⟨a.wall + d,a.utcoffset⟩
  sub a b := a.wall - a.utcoffset - (b.wall - b.utcoffset)
  sub_add a d := by
    show a.wall + d - a.utcoffset - (a.wall - a.utcoffset) = d
    omega
  cmp_add a d := by
    show compare (a.wall - a.utcoffset) (a.wall + d - a.utcoffset) = compare 0 d
    rw [add_sub_right_comm]
    exact compare_self_add _ d

namespace FixedTime

theorem lt_iff (a b : FixedTime) : lt a b = true ↔ instant a < instant b := by
  rw [lt,beq_iff_eq]
  exact compare_lt_iff_lt

theorem le_iff (a b : FixedTime) : le a b = true ↔ instant a ≤ instant b := by
  rw [le,bne_iff_ne]
  exact compare_le_iff_le

theorem inWindow_iff (lo hi t : FixedTime) :
    inWindow lo hi t = true ↔ instant lo ≤ instant t ∧ instant t < instant hi := by
  rw [inWindow,Bool.and_eq_true,le_iff,lt_iff]

end FixedTime

def stamp {τ : Type} [AwareDatetime τ] (a : τ) : FixedTime :=
  ⟨AwareDatetime.wall a,AwareDatetime.utcoffset a⟩

@[simp] theorem stamp_fixed (a : FixedTime) : stamp a = a := rfl

/-- The `utcoffset` of every tzinfo object, by object, wall clock and fold. -/
abbrev ZoneTable := ℕ → ℤ → Bool → ℤ

/-- A datetime with any tzinfo object; `none` is `timezone.utc`. -/
@[ext] structure ZonedTime (zones : ZoneTable) where
  wall : ℤ
  fold : Bool
  tzinfo : Option ℕ
  deriving DecidableEq

namespace ZonedTime

variable {zones : ZoneTable}

def utcoffset (a : ZonedTime zones) : ℤ :=
  match a.tzinfo with
  | none => 0
  | some zone => zones zone a.wall a.fold

def cmp (a b : ZonedTime zones) : Ordering :=
  if a.tzinfo = b.tzinfo then compare a.wall b.wall
  else compare (a.wall - a.utcoffset) (b.wall - b.utcoffset)

instance : AwareDatetime (ZonedTime zones) where
  wall := ZonedTime.wall
  utcoffset := ZonedTime.utcoffset
  cmp := ZonedTime.cmp
  cmp_swap a b := by
    by_cases h : a.tzinfo = b.tzinfo
    · rw [ZonedTime.cmp,ZonedTime.cmp,if_pos h,if_pos h.symm]
      exact Std.OrientedCmp.eq_swap
    · rw [ZonedTime.cmp,ZonedTime.cmp,if_neg h,if_neg (Ne.symm h)]
      exact Std.OrientedCmp.eq_swap

/-- Arithmetic within a zone is that of its wall clock; a sum has no fold. -/
instance : DatetimeArithmetic (ZonedTime zones) where
  add a d := ⟨a.wall + d,false,a.tzinfo⟩
  sub a b := if a.tzinfo = b.tzinfo then a.wall - b.wall
    else a.wall - a.utcoffset - (b.wall - b.utcoffset)
  sub_add a d := by
    show (if a.tzinfo = a.tzinfo then a.wall + d - a.wall else _) = d
    rw [if_pos rfl]
    omega
  cmp_add a d := by
    show (if a.tzinfo = a.tzinfo then compare a.wall (a.wall + d) else _) = compare 0 d
    rw [if_pos rfl]
    exact compare_self_add a.wall d

theorem lt_of_same {a b : ZonedTime zones} (h : a.tzinfo = b.tzinfo) :
    lt a b = true ↔ a.wall < b.wall := by
  change (ZonedTime.cmp a b == .lt) = true ↔ _
  rw [ZonedTime.cmp,if_pos h,beq_iff_eq,compare_lt_iff_lt]

theorem lt_of_distinct {a b : ZonedTime zones} (h : a.tzinfo ≠ b.tzinfo) :
    lt a b = true ↔ instant a < instant b := by
  change (ZonedTime.cmp a b == .lt) = true ↔ _
  rw [ZonedTime.cmp,if_neg h,beq_iff_eq,compare_lt_iff_lt]
  rfl

/-- The reading of an instant in UTC. -/
def atUtc (t : ℤ) : ZonedTime zones := ⟨t,false,none⟩

@[simp] theorem instant_atUtc (t : ℤ) : instant (atUtc t : ZonedTime zones) = t := sub_zero t

/-- Every comparison with a reading in UTC is one of instants. -/
theorem lt_atUtc (t : ℤ) (b : ZonedTime zones) : lt (atUtc t) b = true ↔ t < instant b := by
  by_cases h : (atUtc t : ZonedTime zones).tzinfo = b.tzinfo
  · have hoff : b.utcoffset = 0 := by
      rw [utcoffset,← h]
      rfl
    have hinstant : instant b = b.wall - b.utcoffset := rfl
    rw [lt_of_same h,hinstant,hoff,sub_zero]
    rfl
  · rw [lt_of_distinct h,instant_atUtc]

/-- Where every zone has a constant offset, wall-clock order within a zone is the order
of instants, so `FixedTime` loses nothing. -/
theorem cmp_fixed (hzones : ∀ z w w' f f', zones z w f = zones z w' f') (a b : ZonedTime zones) :
    AwareDatetime.cmp a b = AwareDatetime.cmp (stamp a) (stamp b) := by
  change ZonedTime.cmp a b = compare (a.wall - a.utcoffset) (b.wall - b.utcoffset)
  by_cases h : a.tzinfo = b.tzinfo
  · have hoff : a.utcoffset = b.utcoffset := by
      rw [utcoffset,utcoffset,h]
      cases b.tzinfo with
      | none => rfl
      | some zone => exact hzones _ _ _ _ _
    rw [ZonedTime.cmp,if_pos h,hoff]
    rcases lt_trichotomy a.wall b.wall with hlt | heq | hgt
    · rw [compare_lt_iff_lt.mpr hlt,compare_lt_iff_lt.mpr (by omega)]
    · rw [compare_eq_iff_eq.mpr heq,compare_eq_iff_eq.mpr (by omega)]
    · rw [compare_gt_iff_gt.mpr hgt,compare_gt_iff_gt.mpr (by omega)]
  · rw [ZonedTime.cmp,if_neg h]

end ZonedTime

end AwareClock
