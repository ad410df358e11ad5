import RehashChart.Proofs.Chart.Mapping

/-! # Columns of bars

A side of a bar is rounded six times on the way to its column. All roundings keep the order of the
sides, also where the places of neighbours are the same number; and as long as the axis has an end,
they move a side by much less than a pixel.
-/

namespace RehashChart

open Binary64

namespace BarChart

open KeyPoints

/-! ## Distances -/

/-- The steps from a place, moved by `u`, to its distance from the left end of the axis. -/
structure SideDistance (i : Nat) (u f r a : Rat) : Prop where
  place : (ofNat i).HasValue f
  side : RoundsTo (f + u) r
  distance : RoundsTo (r + 1 / 2) a

namespace SideDistance

variable {i j n : Nat} {u v f g r s a b : Rat}

theorem le_of_shift (h : SideDistance i u f r a) (h' : SideDistance i v g s b) (huv : u ≤ v) :
    a ≤ b := by
  have hplace := h.place.unique h'.place
  have hside : r ≤ s := h.side.mono h'.side (by linarith)
  exact h.distance.mono h'.distance (by linarith)

theorem le_of_place (h : SideDistance i u f r a) (h' : SideDistance j v g s b) (hij : i < j)
    (hu : |u| ≤ 1 / 4) (hv : |v| ≤ 1 / 4) : a ≤ b := by
  have hu' := abs_le.mp hu
  have hv' := abs_le.mp hv
  have hside : r ≤ s := by
    rcases ofNat_apart h.place h'.place hij with hapart | ⟨rfl, hlarge⟩
    · exact h.side.mono h'.side (by linarith)
    · -- the places are one number, so large that neither side differs from it
      have hr := h.side.absorb h.place.representable (by linarith) (by linarith) (by linarith)
      have hs := h'.side.absorb h.place.representable (by linarith) (by linarith) (by linarith)
      exact (hr.trans hs.symm).le
  exact h.distance.mono h'.distance (by linarith)

theorem near (h : SideDistance i u f r a) (hi : i ≤ n) (hn : 1 ≤ n) (hu : |u| ≤ 1 / 2) :
    |a - (i + u + 1 / 2)| ≤ n / 2 ^ 48 := by
  have hir : (i : Rat) ≤ n := by exact_mod_cast hi
  have hnr : (1 : Rat) ≤ n := by exact_mod_cast hn
  have hi0 : (0 : Rat) ≤ i := by positivity
  have hu' := abs_le.mp hu
  have hf := abs_le.mp ((roundsTo_of_ofNat h.place).near_of_nonneg hi0)
  have hside : |f + u| ≤ 3 * n := by
    rw [abs_le]
    constructor <;> linarith
  have hr : |r - (f + u)| ≤ 3 * n / 2 ^ 53 + 1 / 2 ^ 64 := h.side.near.trans (by gcongr)
  have hr' := abs_le.mp hr
  have hside' := abs_le.mp hside
  have hdistance : |r + 1 / 2| ≤ 4 * n := by
    rw [abs_le]
    constructor <;> linarith
  have ha : |a - (r + 1 / 2)| ≤ 4 * n / 2 ^ 53 + 1 / 2 ^ 64 := h.distance.near.trans (by gcongr)
  have ha' := abs_le.mp ha
  rw [abs_le]
  constructor <;> linarith

end SideDistance

section Axis

variable {i j n : Nat} {m d : Rat} {x : Binary64} {u v : Rat}

theorem exists_sideDistance (hi : i ≤ n) (hm : (ofNat n).HasValue m) (hx : x.HasValue u)
    (hu : |u| ≤ 1 / 2) :
    ∃ f r a, SideDistance i u f r a ∧ (ofNat i + x - -oneHalf).HasValue a ∧ 0 ≤ a := by
  have hu' := abs_le.mp hu
  -- above every place and so large that one half more is rounded down to it
  obtain ⟨top, htop, hmtop, hlarge⟩ : ∃ top, Representable top ∧ m ≤ top ∧ 2 ^ 55 ≤ top := by
    have hlarge := representable_two_pow (k := 55) (by decide)
    rcases le_total m (2 ^ 55) with h | h
    · exact ⟨2 ^ 55, hlarge, h, le_refl _⟩
    · exact ⟨m, hm.representable, le_refl m, h⟩
  obtain ⟨f, hf, hf₀, hf₁⟩ := ofRat_between_rounded false (q := i)
    (roundsTo_self representable_zero) (roundsTo_of_ofNat hm) (abs_lt_limit representable_zero)
    (abs_lt_limit hm.representable) (by positivity) (by exact_mod_cast hi)
  rw [← ofNat_eq_ofRat] at hf
  obtain ⟨r, hr, hr₀, hr₁⟩ := ofRat_below _ (q := f + u) low_hasValue.representable htop hlarge
    (by linarith) (by linarith)
  rw [← hf.add_eq hx] at hr
  obtain ⟨s, hsub⟩ := hr.sub_eq low_hasValue
  obtain ⟨a, ha, ha₀, _⟩ := ofRat_below s (q := r - -(1 / 2)) representable_zero htop hlarge
    (by linarith) (by linarith)
  rw [← hsub] at ha
  have hdistance := hr.sub_rounds low_hasValue ha
  rw [sub_neg_eq_add] at hdistance
  exact ⟨f, r, a, ⟨hf, hf.add_rounds hx hr, hdistance⟩, ha, ha₀⟩

/-- The length of an axis with an end is the number of its places, up to rounding. -/
theorem exists_axisLength (hn : 1 ≤ n) (hm : (ofNat n).HasValue m) :
    ∃ d, (ofNat n - oneHalf - -oneHalf).HasValue d ∧ |d - n| ≤ n / 2 ^ 48 := by
  have hhalf : |(-(1 / 2) : Rat)| ≤ 1 / 2 := by rw [abs_neg, abs_of_pos (by norm_num)]
  obtain ⟨f, r, d, hdistance, hd, _⟩ := exists_sideDistance (le_refl n) hm low_hasValue hhalf
  have hnear := hdistance.near (le_refl n) hn hhalf
  rw [neg_add_cancel_right] at hnear
  exact ⟨d, hd, hnear⟩

theorem SideDistance.le_length {f r a : Rat} (h : SideDistance i u f r a) (hi : i < n)
    (hu : |u| ≤ 1 / 4) (hd : |d - n| ≤ n / 2 ^ 48) : a ≤ (1 + 1 / 2 ^ 30) * d := by
  have hir : (i : Rat) + 1 ≤ n := by exact_mod_cast hi
  have hi0 : (0 : Rat) ≤ i := by positivity
  have hu' := abs_le.mp hu
  have hd' := abs_le.mp hd
  have ha := abs_le.mp (h.near hi.le (by omega) (hu.trans (by norm_num)))
  linarith

/-! ## Shares -/

def SharesInOrder (n : Nat) (x y : Binary64) : Prop :=
  (∃ s₁ s₂, (shareOf x (-oneHalf) (ofNat n - oneHalf)).HasValue s₁ ∧
    (shareOf y (-oneHalf) (ofNat n - oneHalf)).HasValue s₂ ∧
      0 ≤ s₁ ∧ s₁ ≤ s₂ ∧ s₂ ≤ 1 + 1 / 2 ^ 30) ∨
    ofNat n = infinity false

theorem sharesInOrder_of_distances {y : Binary64} (hi : i < n) (hj : j < n) (hx : x.HasValue u)
    (hy : y.HasValue v) (hu : |u| ≤ 1 / 4) (hv : |v| ≤ 1 / 4)
    (horder : ∀ {f r a g s b}, SideDistance i u f r a → SideDistance j v g s b → a ≤ b) :
    SharesInOrder n (ofNat i + x) (ofNat j + y) := by
  rcases ofNat_finite_or n with ⟨m, hm⟩ | ⟨_, hinfinite⟩
  · have hn : 1 ≤ n := by omega
    have hnr : (1 : Rat) ≤ n := by exact_mod_cast hn
    obtain ⟨f, r, a, hleft, ha, ha₀⟩ := exists_sideDistance hi.le hm hx (hu.trans (by norm_num))
    obtain ⟨g, s, b, hright, hb, _⟩ := exists_sideDistance hj.le hm hy (hv.trans (by norm_num))
    obtain ⟨d, hd, hnear⟩ := exists_axisLength hn hm
    have hd' := abs_le.mp hnear
    exact .inl (exists_shares ha hb hd (by linarith) ha₀ (horder hleft hright)
      (hright.le_length hj hv hnear))
  · exact .inr hinfinite

theorem exists_sideShare (hi : i < n) (hm : (ofNat n).HasValue m) (hx : x.HasValue u)
    (hu : |u| ≤ 1 / 4) (hv : |v| ≤ 1 / 4) (huv : |u - v| ≤ 1 / 2 ^ 48) :
    ∃ s, (shareOf (ofNat i + x) (-oneHalf) (ofNat n - oneHalf)).HasValue s ∧ 0 ≤ s ∧
      |s - (i + v + 1 / 2) / n| ≤ 1 / 2 ^ 40 := by
  have hn : 1 ≤ n := by omega
  have hnr : (1 : Rat) ≤ n := by exact_mod_cast hn
  have hir : (i : Rat) + 1 ≤ n := by exact_mod_cast hi
  have hi0 : (0 : Rat) ≤ i := by positivity
  have hv' := abs_le.mp hv
  have huv' := abs_le.mp huv
  obtain ⟨f, r, a, hside, ha, ha₀⟩ := exists_sideDistance hi.le hm hx (hu.trans (by norm_num))
  obtain ⟨d, hd, hlength⟩ := exists_axisLength hn hm
  have hd' := abs_le.mp hlength
  have hdpos : 0 < d := by linarith
  obtain ⟨s, _, hs, _, hs₀, _⟩ := exists_shares ha ha hd hdpos ha₀ (le_refl a)
    (hside.le_length hi hu hlength)
  have hdistance := abs_le.mp (hside.near hi.le hn (hu.trans (by norm_num)))
  have hnear : |a - (i + v + 1 / 2)| ≤ n / 2 ^ 46 := by
    rw [abs_le]
    constructor <;> linarith
  exact ⟨s, hs, hs₀, quotient_near hn ha₀ (by linarith) (by linarith) hnear hlength
    (ha.div_rounds hd hdpos.ne' hs)⟩

end Axis

/-! ## Columns -/

/-- The column of a place if `n` places are spread over the columns from `first` to `last`. -/
def columnOf (n : Nat) (first last : Int) (x : Binary64) : Int :=
  pixelOf x (-oneHalf) (ofNat n - oneHalf) first last

section Columns

variable {n i j : Nat} {first last : Int} {x y : Binary64}

theorem columnOf_of_offset {k : Int}
    (hk : (ofInt (last - first) * shareOf x (-oneHalf) (ofNat n - oneHalf) +
      .ofRat false (mkRat 1 1000)).floor.toInt32 = k) (hlow : 0 ≤ k) (hhigh : k ≤ last - first) :
    columnOf n first last x = first + k := by
  unfold shareOf at hk
  unfold columnOf pixelOf
  dsimp only
  rw [hk]
  split
  · omega
  · exact if_pos (by omega)

/-- On an axis without end nothing is any part of the way. -/
theorem share_beyond {n : Nat} (hn : ofNat n = infinity false) (v : Binary64) :
    shareOf v (-oneHalf) (ofNat n - oneHalf) = nan ∨
      (shareOf v (-oneHalf) (ofNat n - oneHalf)).HasValue 0 := by
  have hlength : ofNat n - oneHalf - -oneHalf = infinity false := by
    rw [hn]
    decide +kernel
  rw [shareOf, hlength]
  cases v - -oneHalf with
  | nan => exact .inl rfl
  | infinity s => exact .inl rfl
  | finite s m e h => exact .inr (hasValue_zero _)

theorem columnOf_beyond (hn : ofNat n = infinity false) (hlast : first ≤ last)
    (hsmall : last - first ≤ 2 ^ 20) (x : Binary64) : columnOf n first last x = first := by
  have hnone := pixel_of_none (by omega : (last - first).natAbs ≤ 2 ^ 20) (share_beyond hn x)
  rw [columnOf_of_offset hnone (le_refl 0) (by omega), add_zero]

theorem columnOf_le (h : SharesInOrder n x y) (hlast : first ≤ last)
    (hsmall : last - first ≤ 2 ^ 20) :
    first ≤ columnOf n first last x ∧ columnOf n first last x ≤ columnOf n first last y ∧
      columnOf n first last y ≤ last := by
  rcases h with ⟨s₁, s₂, hs₁, hs₂, h₀, h₁, h₂⟩ | hinfinite
  · obtain ⟨k₁, k₂, hk₁, hk₂, hlow, hle, hhigh⟩ :=
      pixels_up (by omega : 0 ≤ last - first) hsmall hs₁ hs₂ h₀ h₁ h₂
    rw [columnOf_of_offset hk₁ hlow (by omega), columnOf_of_offset hk₂ (by omega) hhigh]
    omega
  · rw [columnOf_beyond hinfinite hlast hsmall, columnOf_beyond hinfinite hlast hsmall]
    exact ⟨le_refl _, le_refl _, hlast⟩

/-- On an axis with an end the column of a side is the whole part of what it should be, up to a
thousandth. -/
theorem columnOf_near {m u v : Rat} (hi : i < n) (hm : (ofNat n).HasValue m) (hx : x.HasValue u)
    (hu : |u| ≤ 1 / 4) (hv : |v| ≤ 1 / 4) (huv : |u - v| ≤ 1 / 2 ^ 48) (hlast : first ≤ last)
    (hsmall : last - first ≤ 2 ^ 20) :
    ∃ q : Rat, columnOf n first last (ofNat i + x) = first + q.floor ∧
      |q - ((last - first : Int) * ((i + v + 1 / 2) / n) + 1 / 1000)| ≤ 1 / 2 ^ 10 := by
  have hir : (i : Rat) + 1 ≤ n := by exact_mod_cast hi
  have hi0 : (0 : Rat) ≤ i := by positivity
  have hv' := abs_le.mp hv
  have hshare : (i + v + 1 / 2) / n ≤ 1 := (div_le_one (by linarith)).mpr (by linarith)
  obtain ⟨s, hs, hs₀, hnear⟩ := exists_sideShare hi hm hx hu hv huv
  obtain ⟨q, hq, hq₀, hq₁, hqnear⟩ :=
    exists_pixel (by omega : 0 ≤ last - first) hsmall hs hs₀ hnear hshare
  have hfloor : 0 ≤ q.floor := Rat.le_floor_iff.mpr (by exact_mod_cast hq₀)
  have hfloor' : q.floor < last - first + 1 := by
    rw [Rat.floor_lt_iff]
    push_cast at hq₁ ⊢
    linarith
  exact ⟨q, columnOf_of_offset hq hfloor (by omega), hqnear⟩

/-! ## Sides -/

theorem exists_halfBar :
    ∃ t, halfBar.HasValue t ∧ 1 / 8 ≤ t ∧ |t| ≤ 1 / 4 ∧ |-t| ≤ 1 / 4 ∧
      |t - 7 / 40| ≤ 1 / 2 ^ 48 := by
  have hlow : (1 / 8 : Rat) ≤ 6305039478318694 / 2 ^ 55 := by norm_num
  have hquarter : |(6305039478318694 / 2 ^ 55 : Rat)| ≤ 1 / 4 := by
    rw [abs_of_nonneg (by positivity)]
    norm_num
  refine ⟨6305039478318694 / 2 ^ 55, ⟨by decide +kernel, by decide +kernel⟩, hlow, hquarter,
    by rwa [abs_neg], ?_⟩
  rw [abs_le]
  constructor <;> norm_num

theorem bar_inOrder (hi : i < n) : SharesInOrder n (ofNat i - halfBar) (ofNat i + halfBar) := by
  obtain ⟨t, ht, hwide, hquarter, hquarter', _⟩ := exists_halfBar
  exact sharesInOrder_of_distances hi hi ht.neg ht hquarter' hquarter
    fun h h' => h.le_of_shift h' (by linarith)

theorem bars_inOrder (hij : i < j) (hj : j < n) :
    SharesInOrder n (ofNat i + halfBar) (ofNat j - halfBar) := by
  obtain ⟨t, ht, _, hquarter, hquarter', _⟩ := exists_halfBar
  exact sharesInOrder_of_distances (hij.trans hj) hj ht ht.neg hquarter hquarter'
    fun h h' => h.le_of_place h' hij hquarter hquarter'

theorem ofNat_of_near {p : Rat} (hx : x.HasValue p) (hp : |p - i| < 1 / 2) :
    (ofNat i).HasValue i := by
  rcases Nat.lt_or_ge i significands with hfew | hmany
  · exact ofNat_hasValue hfew
  · -- beyond the exact integers all numbers are integers
    have hi : (2 : Rat) ^ 53 ≤ i := by
      simp only [significands] at hmany
      exact_mod_cast hmany
    have hp' := abs_lt.mp hp
    obtain ⟨c, rfl⟩ := exists_int_of_representable hx.representable (by linarith)
    have hsame : c = i := by
      rw [← roundAway_intCast c]
      exact roundAway_eq_of_near (by exact_mod_cast hp)
    rw [hsame, Int.cast_natCast] at hx
    exact ofNat_of_representable hx.representable

theorem bar_around {p : Rat} (hi : i < n) (hx : x.HasValue p) (hp : |p - i| ≤ 1 / 8) :
    SharesInOrder n (ofNat i - halfBar) x ∧ SharesInOrder n x (ofNat i + halfBar) := by
  rcases ofNat_finite_or n with ⟨m, hm⟩ | ⟨_, hinfinite⟩
  · have hplace := ofNat_of_near hx (hp.trans_lt (by norm_num))
    have hnear := abs_le.mp hp
    obtain ⟨t, ht, hwide, hquarter, hquarter', _⟩ := exists_halfBar
    obtain ⟨f, r, a, hleft, ha, ha₀⟩ :=
      exists_sideDistance hi.le hm ht.neg (hquarter'.trans (by norm_num))
    obtain ⟨g, s, b, hright, hb, _⟩ :=
      exists_sideDistance hi.le hm ht (hquarter.trans (by norm_num))
    have hself := roundsTo_self hx.representable
    have hf := hleft.place.unique hplace
    have hg := hright.place.unique hplace
    have hr : r ≤ p := hleft.side.mono hself (by linarith)
    have hs : p ≤ s := hself.mono hright.side (by linarith)
    -- the distance of the place is rounded once, between those of the sides
    obtain ⟨sign, hsub⟩ := hx.sub_eq low_hasValue
    obtain ⟨c, hc, hac, hcb⟩ := ofRat_between_rounded sign (q := p - -(1 / 2)) hleft.distance
      hright.distance (abs_lt_limit ha.representable) (abs_lt_limit hb.representable)
      (by linarith) (by linarith)
    rw [← hsub] at hc
    have hn : 1 ≤ n := by omega
    have hnr : (1 : Rat) ≤ n := by exact_mod_cast hn
    obtain ⟨d, hd, hlength⟩ := exists_axisLength hn hm
    have hd' := abs_le.mp hlength
    have hdpos : 0 < d := by linarith
    have hend := hright.le_length hi hquarter hlength
    exact ⟨.inl (exists_shares ha hc hd hdpos ha₀ hac (hcb.trans hend)),
      .inl (exists_shares hc hb hd hdpos (ha₀.trans hac) hcb hend)⟩
  · exact ⟨.inr hinfinite, .inr hinfinite⟩
/-- A bar stands in the middle of its place and is as wide as its share of it, so the columns of its
sides should be these, and they are, up to a thousandth. -/
theorem exists_sides {m : Rat} (hi : i < n) (hm : (ofNat n).HasValue m) (hlast : first ≤ last)
    (hsmall : last - first ≤ 2 ^ 20) :
    ∃ q₁ q₂ : Rat, columnOf n first last (ofNat i - halfBar) = first + q₁.floor ∧
      columnOf n first last (ofNat i + halfBar) = first + q₂.floor ∧
      |q₁ - ((last - first : Int) * ((i + -(7 / 40) + 1 / 2) / n) + 1 / 1000)| ≤ 1 / 2 ^ 10 ∧
      |q₂ - ((last - first : Int) * ((i + 7 / 40 + 1 / 2) / n) + 1 / 1000)| ≤ 1 / 2 ^ 10 := by
  obtain ⟨t, ht, _, hquarter, hquarter', hnear⟩ := exists_halfBar
  have hshare : |(7 / 40 : Rat)| ≤ 1 / 4 := by
    rw [abs_of_pos (by norm_num)]
    norm_num
  have hnear' : |-t - -(7 / 40)| ≤ 1 / 2 ^ 48 := by rwa [neg_sub_neg, abs_sub_comm]
  obtain ⟨q₁, hq₁, hnear₁⟩ := columnOf_near (v := -(7 / 40)) hi hm ht.neg hquarter'
    (by rwa [abs_neg]) hnear' hlast hsmall
  obtain ⟨q₂, hq₂, hnear₂⟩ := columnOf_near hi hm ht hquarter hshare hnear hlast hsmall
  exact ⟨q₁, q₂, hq₁, hq₂, hnear₁, hnear₂⟩

theorem columnOf_width (hi : i < n) (hlast : first ≤ last) (hsmall : last - first ≤ 2 ^ 20) :
    |((columnOf n first last (ofNat i + halfBar) - columnOf n first last (ofNat i - halfBar) : Int)
      : Rat) - 35 / 100 * (last - first : Int) / n| < 101 / 100 := by
  rcases ofNat_finite_or n with ⟨m, hm⟩ | ⟨hmany, hinfinite⟩
  · obtain ⟨q₁, q₂, hleft, hright, hnear₁, hnear₂⟩ := exists_sides hi hm hlast hsmall
    rw [hleft, hright]
    have hwidth : ((last - first : Int) : Rat) * ((i + 7 / 40 + 1 / 2) / n) -
        (last - first : Int) * ((i + -(7 / 40) + 1 / 2) / n) =
          35 / 100 * (last - first : Int) / n := by ring
    have hq₁ := abs_le.mp hnear₁
    have hq₂ := abs_le.mp hnear₂
    have hlow₁ := Rat.floor_le q₁
    have hlow₂ := Rat.floor_le q₂
    have hhigh₁ := Rat.lt_floor_add_one q₁
    have hhigh₂ := Rat.lt_floor_add_one q₂
    push_cast at hhigh₁ hhigh₂ hwidth hq₁ hq₂ ⊢
    rw [abs_lt]
    constructor <;> linarith
  · rw [columnOf_beyond hinfinite hlast hsmall, columnOf_beyond hinfinite hlast hsmall, sub_self]
    -- there are more bars than columns, so none takes a column
    have hspan : (0 : Rat) ≤ (last - first : Int) := by exact_mod_cast by omega
    have hspan' : ((last - first : Int) : Rat) ≤ n := by
      simp only [significands] at hmany
      exact_mod_cast by omega
    have hpos : (0 : Rat) < n := by exact_mod_cast by omega
    have hshare : 35 / 100 * ((last - first : Int) : Rat) / n ≤ 35 / 100 := by
      rw [div_le_iff₀ hpos]
      linarith
    have hshare₀ : 0 ≤ 35 / 100 * ((last - first : Int) : Rat) / n := by positivity
    rw [Int.cast_zero, abs_lt]
    constructor <;> linarith

theorem columnOf_lt (hij : i < j) (hj : j < n) (hsmall : last - first ≤ 2 ^ 20)
    (hroom : 2 * n ≤ last - first) :
    columnOf n first last (ofNat i + halfBar) < columnOf n first last (ofNat j - halfBar) := by
  have hm : (ofNat n).HasValue n := ofNat_hasValue (by simp only [significands]; omega)
  obtain ⟨_, q₁, _, hright, _, hnear₁⟩ := exists_sides (hij.trans hj) hm (by omega) hsmall
  obtain ⟨q₂, _, hleft, _, hnear₂, _⟩ := exists_sides hj hm (by omega) hsmall
  rw [hright, hleft]
  have hpos : (0 : Rat) < n := by exact_mod_cast by omega
  have hroom' : 2 ≤ ((last - first : Int) : Rat) / n := by
    rw [le_div_iff₀ hpos]
    exact_mod_cast hroom
  have hplaces : (i : Rat) + 1 ≤ j := by exact_mod_cast hij
  have hgap : ((last - first : Int) : Rat) * ((j + -(7 / 40) + 1 / 2) / n) -
      (last - first : Int) * ((i + 7 / 40 + 1 / 2) / n) =
        (last - first : Int) / n * (j - i - 7 / 20) := by ring
  have hgap' : 13 / 10 ≤ ((last - first : Int) : Rat) / n * (j - i - 7 / 20) := by nlinarith
  have hq₁ := abs_le.mp hnear₁
  have hq₂ := abs_le.mp hnear₂
  have hnext : q₁.floor + 1 ≤ q₂.floor := by
    rw [Rat.le_floor_iff]
    have hlow := Rat.floor_le q₁
    push_cast at hgap hgap' hq₁ hq₂ ⊢
    linarith
  omega

theorem column_bounds (chart : BarChart) (plot : Area) (hplot : plot.left ≤ plot.right - 1)
    (hsmall : plot.right - 1 - plot.left ≤ 2 ^ 20) (hi : i < chart.slots) :
    plot.left ≤ chart.column plot (ofNat i - halfBar) ∧
      chart.column plot (ofNat i - halfBar) ≤ chart.column plot (ofNat i + halfBar) ∧
        chart.column plot (ofNat i + halfBar) ≤ plot.right - 1 :=
  columnOf_le (bar_inOrder hi) hplot hsmall

/-- What is close to the place of a bar is in a column between the sides of the bar. -/
theorem column_around (chart : BarChart) (plot : Area) (hplot : plot.left ≤ plot.right - 1)
    (hsmall : plot.right - 1 - plot.left ≤ 2 ^ 20) (hi : i < chart.slots) {p : Rat}
    (hx : x.HasValue p) (hp : |p - i| ≤ 1 / 8) :
    chart.column plot (ofNat i - halfBar) ≤ chart.column plot x ∧
      chart.column plot x ≤ chart.column plot (ofNat i + halfBar) := by
  obtain ⟨hleft, hright⟩ := bar_around hi hx hp
  exact ⟨(columnOf_le hleft hplot hsmall).2.1, (columnOf_le hright hplot hsmall).2.1⟩

end Columns

end BarChart

end RehashChart
