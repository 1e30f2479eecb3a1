import Histograms.Fill
import Mathlib.Data.List.Induction
/-!
# Sorting fill arguments by role

`Fill.classify` reads a flat list of arguments into a fill. Coordinates are collected in
order; a weight and a sample each fill a slot of their own, and an argument whose slot is
already filled stops the reading with `duplicateRole`. This module states what the reading
computes in terms of the list alone.

`Fill.ofArgs` is the fill a list describes: its coordinates in order, its first weight and
its first sample. `Arg.RolesOnce` says that the list has at most one weight and at most one
sample. One step of the reading either extends `ofArgs` of the prefix by one argument, or
stops at an argument whose role the prefix already has (`Fill.push_ofArgs_of_fresh`,
`Fill.push_ofArgs_of_repeat`); the whole reading follows by induction on the prefix.

Main statements:

* `Fill.classify_of_rolesOnce` — a list with each role at most once reads as `ofArgs`.
* `Fill.classify_of_first_repeat` — the reading stops at the first argument that repeats a
  role, and names that role.
* `Arg.exists_first_repeat` — a list with a role twice has such a first repeat.
* `Fill.classify_sorts_by_role` — the three together, and that any interleaving of a fill's
  weight and sample among its coordinates reads back as that fill.
-/

namespace Histograms

namespace Arg

/-- The role an argument stands for; coordinates stand for none. -/
def role? : Arg → Option Role
  | .coord _ => none
  | .weight _ => some .weight
  | .sample _ => some .sample

/-- The coordinate an argument carries, if it is one. -/
def coord? : Arg → Option Coord
  | .coord c => some c
  | _ => none

/-- The weight an argument carries, if it is one. -/
def weight? : Arg → Option Float
  | .weight w => some w
  | _ => none

/-- The sample an argument carries, if it is one. -/
def sample? : Arg → Option (List Float)
  | .sample xs => some xs
  | _ => none

/-- The number of arguments of role `r`. -/
def roleCount (r : Role) (args : List Arg) : Nat :=
  args.countP fun a => a.role? == some r

/-- At most one weight and at most one sample. -/
def RolesOnce (args : List Arg) : Prop :=
  roleCount .weight args ≤ 1 ∧ roleCount .sample args ≤ 1

instance : DecidablePred RolesOnce := fun _ => inferInstanceAs (Decidable (_ ∧ _))

@[simp] theorem roleCount_nil (r : Role) : roleCount r [] = 0 := rfl

@[simp] theorem roleCount_append (r : Role) (l l' : List Arg) :
    roleCount r (l ++ l') = roleCount r l + roleCount r l' := by
  simp [roleCount, List.countP_append]

theorem roleCount_singleton (r : Role) (a : Arg) :
    roleCount r [a] = if a.role? = some r then 1 else 0 := by
  simp [roleCount, List.countP_singleton]

@[simp] theorem roleCount_cons (r : Role) (a : Arg) (l : List Arg) :
    roleCount r (a :: l) = roleCount r l + if a.role? = some r then 1 else 0 := by
  simp [roleCount, List.countP_cons]

/-- Plain and weighted-sample roles are never given as arguments. -/
theorem roleCount_eq_zero_of_role {r : Role} (hr : r ≠ .weight ∧ r ≠ .sample) (args : List Arg) :
    roleCount r args = 0 := by
  simp only [roleCount, List.countP_eq_zero, beq_iff_eq]
  intro a _ ha
  cases a <;> simp [role?] at ha <;> simp_all

/-- `RolesOnce` is "each role at most once", over all roles. -/
theorem rolesOnce_iff {args : List Arg} : RolesOnce args ↔ ∀ r, roleCount r args ≤ 1 := by
  refine ⟨fun ⟨hw, hs⟩ r => ?_, fun h => ⟨h .weight, h .sample⟩⟩
  cases r with
  | weight => exact hw
  | sample => exact hs
  | plain => simp [roleCount_eq_zero_of_role]
  | weightedSample => simp [roleCount_eq_zero_of_role]

theorem RolesOnce.of_append {l l' : List Arg} (h : RolesOnce (l ++ l')) : RolesOnce l := by
  rw [rolesOnce_iff] at h ⊢
  intro r
  have := h r
  simp only [roleCount_append] at this
  omega

/-- `g` reads exactly the arguments of role `r`. -/
def ReadsRole {β : Type} (r : Role) (g : Arg → Option β) : Prop :=
  ∀ a, (g a).isSome = (a.role? == some r)

theorem readsRole_weight? : ReadsRole .weight weight? := by
  intro a
  cases a <;> rfl

theorem readsRole_sample? : ReadsRole .sample sample? := by
  intro a
  cases a <;> rfl

section ReadsRole

variable {β : Type} {r : Role} {g : Arg → Option β}

/-- What a reader of one role reads from a list is as many as the list's arguments of that
role. -/
theorem ReadsRole.length_filterMap (hg : ReadsRole r g) (args : List Arg) :
    (args.filterMap g).length = roleCount r args := by
  induction args with
  | nil => rfl
  | cons a rest ih =>
    have ha := hg a
    rw [List.filterMap_cons, roleCount_cons, ← ih]
    cases hga : g a with
    | none =>
      have hr : a.role? ≠ some r := by simpa [hga] using ha
      simp [hr]
    | some b =>
      have hr : a.role? = some r := by simpa [hga] using ha.symm
      simp [hr]

/-- A reader of one role reads nothing from a list exactly when the list has no argument of
that role. -/
theorem ReadsRole.filterMap_eq_nil (hg : ReadsRole r g) {args : List Arg} :
    args.filterMap g = [] ↔ roleCount r args = 0 := by
  rw [← List.length_eq_zero_iff, hg.length_filterMap]

/-- A reader of one role reads something from a list exactly when the list has an argument of
that role. -/
theorem ReadsRole.isSome_head? (hg : ReadsRole r g) (args : List Arg) :
    (args.filterMap g).head?.isSome = decide (0 < roleCount r args) := by
  rw [← hg.length_filterMap]
  generalize args.filterMap g = l
  cases l <;> simp

end ReadsRole

/-- A list with some role twice has a first argument that repeats a role: every role is at
most once before it, and its own role is among them. -/
theorem exists_first_repeat {args : List Arg} (h : ¬ RolesOnce args) :
    ∃ pre a post r, args = pre ++ a :: post ∧ RolesOnce pre ∧ a.role? = some r ∧
      0 < roleCount r pre := by
  induction args using List.reverseRecOn with
  | nil => exact absurd ⟨Nat.zero_le 1, Nat.zero_le 1⟩ h
  | append_singleton l b ih =>
    by_cases hl : RolesOnce l
    · -- the last argument makes the first repeat
      rw [rolesOnce_iff] at h hl
      obtain ⟨r, hr⟩ := Classical.not_forall.mp h
      have hcount := hl r
      simp only [roleCount_append, roleCount_singleton] at hr
      by_cases hb : b.role? = some r
      · refine ⟨l, b, [], r, rfl, rolesOnce_iff.mpr hl, hb, ?_⟩
        rw [if_pos hb] at hr
        omega
      · rw [if_neg hb] at hr
        omega
    · obtain ⟨pre, a, post, r, rfl, hpre, ha, hr⟩ := ih hl
      exact ⟨pre, a, post ++ [b], r, by simp, hpre, ha, hr⟩

end Arg

namespace Fill

open Arg

/-- The fill a list of arguments describes: its coordinates in order, its first weight and its
first sample. -/
def ofArgs (args : List Arg) : Fill :=
  ⟨args.filterMap coord?, (args.filterMap weight?).head?, (args.filterMap sample?).head?⟩

@[simp] theorem ofArgs_nil : ofArgs [] = ofCoords [] := rfl

/-- One step of the reading, for an argument whose role the prefix does not have yet: the
fill of the prefix grows into the fill of the longer list. -/
theorem push_ofArgs_of_fresh {pre : List Arg} {a : Arg}
    (hfresh : ∀ r, a.role? = some r → roleCount r pre = 0) :
    (ofArgs pre).push a = .ok (ofArgs (pre ++ [a])) := by
  cases a with
  | coord c => simp [push, ofArgs, coord?, weight?, sample?]
  | weight w =>
    have hnone := readsRole_weight?.filterMap_eq_nil.mpr (hfresh .weight rfl)
    simp [push, ofArgs, hnone, coord?, weight?, sample?]
  | sample xs =>
    have hnone := readsRole_sample?.filterMap_eq_nil.mpr (hfresh .sample rfl)
    simp [push, ofArgs, hnone, coord?, weight?, sample?]

/-- One step of the reading, for an argument whose role the prefix already has: the reading
stops and names that role. -/
theorem push_ofArgs_of_repeat {pre : List Arg} {a : Arg} {r : Role} (ha : a.role? = some r)
    (hr : 0 < roleCount r pre) : (ofArgs pre).push a = .error (.duplicateRole r) := by
  cases a with
  | coord c => cases ha
  | weight w =>
    cases ha
    have hsome : (ofArgs pre).weight.isSome = true := by
      rw [show (ofArgs pre).weight = (pre.filterMap weight?).head? from rfl,
        readsRole_weight?.isSome_head?, decide_eq_true hr]
    simp [push, hsome]
  | sample xs =>
    cases ha
    have hsome : (ofArgs pre).sample.isSome = true := by
      rw [show (ofArgs pre).sample = (pre.filterMap sample?).head? from rfl,
        readsRole_sample?.isSome_head?, decide_eq_true hr]
    simp [push, hsome]

theorem classify_append_singleton (pre : List Arg) (a : Arg) :
    classify (pre ++ [a]) = classify pre >>= fun f => f.push a := by
  simp [classify, List.foldlM_append]

/-- **A list with each role at most once reads as the fill it describes.** By induction on
the list from its end: every prefix also has each role at most once, so each step is fresh. -/
theorem classify_of_rolesOnce {args : List Arg} (h : RolesOnce args) :
    classify args = .ok (ofArgs args) := by
  induction args using List.reverseRecOn with
  | nil => rfl
  | append_singleton pre a ih =>
    have hfresh : ∀ r, a.role? = some r → roleCount r pre = 0 := by
      intro r hr
      have hle := rolesOnce_iff.mp h r
      simp only [roleCount_append, roleCount_singleton, if_pos hr] at hle
      omega
    rw [classify_append_singleton, ih h.of_append]
    exact push_ofArgs_of_fresh hfresh

/-- **The reading stops at the first repeat.** When every role is at most once before `a` and
`a` repeats one of them, the reading fails there, naming `a`'s role, whatever follows. -/
theorem classify_of_first_repeat {pre post : List Arg} {a : Arg} {r : Role}
    (hpre : RolesOnce pre) (ha : a.role? = some r) (hr : 0 < roleCount r pre) :
    classify (pre ++ a :: post) = .error (.duplicateRole r) := by
  have hstep : classify (pre ++ [a]) = .error (.duplicateRole r) := by
    rw [classify_append_singleton, classify_of_rolesOnce hpre]
    exact push_ofArgs_of_repeat ha hr
  rw [show pre ++ a :: post = (pre ++ [a]) ++ post by simp]
  simp only [classify, List.foldlM_append] at hstep ⊢
  rw [hstep]
  rfl

/-- The arguments of a fill, interleaved in any order, describe that fill. -/
theorem ofArgs_of_interleaving {args : List Arg} {f : Fill}
    (hc : args.filterMap coord? = f.coords) (hw : args.filterMap weight? = f.weight.toList)
    (hs : args.filterMap sample? = f.sample.toList) : ofArgs args = f := by
  obtain ⟨coords, weight, sample⟩ := f
  simp only at hc hw hs
  simp only [ofArgs, hc, hw, hs]
  cases weight <;> cases sample <;> rfl

theorem rolesOnce_of_interleaving {args : List Arg} {f : Fill}
    (hw : args.filterMap weight? = f.weight.toList)
    (hs : args.filterMap sample? = f.sample.toList) : RolesOnce args := by
  have hlen : ∀ {α : Type} (o : Option α), o.toList.length ≤ 1 := fun o => by cases o <;> simp
  refine ⟨?_, ?_⟩
  · rw [← readsRole_weight?.length_filterMap, hw]
    exact hlen _
  · rw [← readsRole_sample?.length_filterMap, hs]
    exact hlen _

/-- **Sorting arguments by role.** A list of arguments reads as a fill exactly when it has at
most one weight and at most one sample; the fill then has the list's coordinates in order and
its weight and sample. Otherwise the reading fails at the first argument that repeats a role
and names that role. So any interleaving of a fill's weight and sample among its coordinates
reads back as that fill. -/
theorem classify_sorts_by_role (args : List Arg) :
    ((∃ f, classify args = .ok f) ↔ RolesOnce args) ∧
    (RolesOnce args → classify args = .ok (ofArgs args)) ∧
    (¬ RolesOnce args → ∃ pre a post r, args = pre ++ a :: post ∧ RolesOnce pre ∧
      a.role? = some r ∧ 0 < roleCount r pre ∧ classify args = .error (.duplicateRole r)) ∧
    (∀ f : Fill, args.filterMap coord? = f.coords → args.filterMap weight? = f.weight.toList →
      args.filterMap sample? = f.sample.toList → classify args = .ok f) := by
  have hfail : ¬ RolesOnce args → ∃ pre a post r, args = pre ++ a :: post ∧ RolesOnce pre ∧
      a.role? = some r ∧ 0 < roleCount r pre ∧ classify args = .error (.duplicateRole r) := by
    intro h
    obtain ⟨pre, a, post, r, rfl, hpre, ha, hr⟩ := exists_first_repeat h
    exact ⟨pre, a, post, r, rfl, hpre, ha, hr, classify_of_first_repeat hpre ha hr⟩
  refine ⟨⟨fun ⟨f, hf⟩ => ?_, fun h => ⟨_, classify_of_rolesOnce h⟩⟩,
    classify_of_rolesOnce, hfail, fun f hc hw hs => ?_⟩
  · by_contra h
    obtain ⟨pre, a, post, r, _, _, _, _, herr⟩ := hfail h
    rw [herr] at hf
    cases hf
  · rw [classify_of_rolesOnce (rolesOnce_of_interleaving hw hs), ofArgs_of_interleaving hc hw hs]

/-- The weight first, the sample last, two coordinates between them. -/
theorem classify_sorts_by_role_weight_first :
    classify [.weight 2.0, .coord (.int 1), .coord (.label "a"), .sample [5.0, 6.0]] =
      .ok ⟨[.int 1, .label "a"], some 2.0, some [5.0, 6.0]⟩ :=
  (classify_sorts_by_role _).2.2.2 ⟨[.int 1, .label "a"], some 2.0, some [5.0, 6.0]⟩ rfl rfl rfl

end Fill

end Histograms
