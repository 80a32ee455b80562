import Mosaic.Proofs.Binary.Rounding

/-!
# Packing and unpacking

The bits of a float are put together from its sign, its exponent and its mantissa without the
leading bit. A canonical float whose exponent the format has room for (`IsStorable`) comes back from
its bits as it was (`unpack_pack`), and bits whose NaN is the chosen one come back from the float
that they stand for (`pack_unpack`). Every bit pattern stands for a float that can be stored.
-/

namespace Mosaic.Binary

open Float.Model (Format UnpackedFloat)
open Float.Model.UnpackedFloat

variable {spec : Format}

/-- A canonical float whose exponent the format has room for. -/
def IsStorable (spec : Format) : UnpackedFloat → Prop
  | .finite s m e hm => IsCanonical spec (.finite s m e hm) ∧
    e + (spec.exponentBias + spec.mantissaBitsWithoutImplicit) + 1 < 2 ^ spec.exponentBits
  | _ => True

theorem IsStorable.isCanonical {u : UnpackedFloat} (h : IsStorable spec u) :
    IsCanonical spec u := by
  match u with
  | .finite .. => exact h.1
  | .zero _ | .infinity _ | .notANumber => trivial

theorem exponentBias_add_one (spec : Format) :
    spec.exponentBias + 1 = 2 ^ (spec.exponentBits - 1) :=
  Nat.sub_add_cancel (Nat.one_le_two_pow)

theorem two_pow_exponentBits (spec : Format) :
    2 ^ spec.exponentBits = 2 * (spec.exponentBias + 1) := by
  rw [exponentBias_add_one, ← pow_succ', Nat.sub_add_cancel spec.he]

/-- A full mantissa has one bit more than the field that it is stored in. -/
theorem two_pow_mantissaBits (spec : Format) :
    2 ^ spec.mantissaBits = 2 * 2 ^ spec.mantissaBitsWithoutImplicit := by
  unfold Format.mantissaBits
  rw [pow_add, pow_one]

/-- The least exponent is stored as one, and as zero for a mantissa that is not full. -/
theorem minExponent_biased (spec : Format) :
    spec.minExponent + (spec.exponentBias + spec.mantissaBitsWithoutImplicit) = 1 := by
  have hpos : 0 < 2 ^ (spec.exponentBits - 1) := by positivity
  unfold Format.minExponent Format.exponentBias Format.mantissaBits
  push_cast [hpos]
  ring

/-! ## The three fields of a packed float -/

theorem unpackSign_packComponents {sign exponent mantissa} :
    unpackSign (packComponents spec sign exponent mantissa) = sign.toBitVec := by
  ext i hi
  have hzero : i = 0 := by omega
  unfold unpackSign
  simp [packComponents, BitVec.getElem_append, BitVec.getLsbD_append, hzero]

theorem ofBitVec_toBitVec (s : Sign) : Sign.ofBitVec s.toBitVec = s := by
  cases s <;> rfl

theorem exists_toBitVec (b : BitVec 1) : ∃ s : Sign, s.toBitVec = b := by
  rcases BitVec.eq_zero_or_eq_one b with rfl | rfl
  · exact ⟨.positive, rfl⟩
  · exact ⟨.negative, rfl⟩

/-- Every packed float is put together from its fields. -/
theorem exists_components (b : BitVec spec.numBits) :
    ∃ s x f, b = packComponents spec s x f := by
  obtain ⟨s, hs⟩ := exists_toBitVec (unpackSign b)
  refine ⟨s, unpackExponent b, unpackMantissa b, ?_⟩
  ext i hi
  rw [packComponents, hs]
  unfold unpackSign
  simp [unpackMantissa, unpackExponent, BitVec.getElem_append]
  rw [← BitVec.getLsbD_eq_getElem]
  split_ifs <;> congr 1 <;> omega

theorem one_append_toNat {n : Nat} (f : BitVec n) : (1#1 ++ f).toNat = 2 ^ n + f.toNat := by
  rw [BitVec.toNat_append, BitVec.toNat_ofNat, pow_one, Nat.mod_eq_of_lt one_lt_two,
    ← Nat.shiftLeft_add_eq_or_of_lt f.isLt, Nat.one_shiftLeft]

/-- The largest exponent is all ones. -/
theorem ne_neg_one_iff {n : Nat} {x : BitVec n} : x ≠ -1#_ ↔ x.toNat + 1 < 2 ^ n := by
  have hlt := x.isLt
  rw [Ne, ← BitVec.toNat_inj, BitVec.neg_one_eq_allOnes, BitVec.toNat_allOnes]
  omega

theorem ne_zero_iff {n : Nat} {x : BitVec n} : x ≠ 0#_ ↔ 0 < x.toNat := by
  rw [Ne, ← BitVec.toNat_inj, BitVec.toNat_ofNat, Nat.zero_mod]
  omega

theorem zero_ne_neg_one (spec : Format) : 0#(spec.exponentBits) ≠ -1#_ := by
  rw [ne_neg_one_iff, BitVec.toNat_ofNat, Nat.zero_mod]
  exact Nat.one_lt_two_pow spec.he.ne'

theorem two_pow_add_pos (n k : Nat) : 0 < 2 ^ n + k :=
  Nat.add_pos_left (Nat.two_pow_pos n) k

variable {s : Sign} {x : BitVec spec.exponentBits} {f : BitVec spec.mantissaBitsWithoutImplicit}

/-- The four kinds of floats, told apart by the fields. -/
theorem unpack_packComponents :
    UnpackedFloat.unpack spec (packComponents spec s x f) =
      if x = -1#_ then if f = 0#_ then .infinity s else .notANumber
      else if x = 0#_ then
        if h : f = 0#_ then .zero s
        else .finite s f.toNat
          (x.toNat - (spec.exponentBias + spec.mantissaBitsWithoutImplicit) + 1) (ne_zero_iff.mp h)
      else .finite s (1#1 ++ f).toNat
        (x.toNat - (spec.exponentBias + spec.mantissaBitsWithoutImplicit))
        ((two_pow_add_pos _ _).trans_eq (one_append_toNat f).symm) := by
  have hs : Sign.ofBitVec (unpackSign (packComponents spec s x f)) = s := by
    rw [unpackSign_packComponents, ofBitVec_toBitVec]
  have hx : unpackExponent (packComponents spec s x f) = x := unpackExponent_packComponents
  have hf : unpackMantissa (packComponents spec s x f) = f := unpackMantissa_packComponents
  -- the proofs inside the floats depend on the fields, so these are replaced everywhere at once
  generalize packComponents spec s x f = b at hs hx hf ⊢
  subst hs hx hf
  rfl

theorem unpack_special : UnpackedFloat.unpack spec (packComponents spec s (-1#_) f) =
    if f = 0#_ then .infinity s else .notANumber := by
  rw [unpack_packComponents, if_pos rfl]

theorem unpack_zero : UnpackedFloat.unpack spec (packComponents spec s 0#_ 0#_) = .zero s := by
  rw [unpack_packComponents, if_neg (zero_ne_neg_one spec), if_pos rfl, dif_pos rfl]

theorem unpack_subnormal (hf : 0 < f.toNat) :
    UnpackedFloat.unpack spec (packComponents spec s 0#_ f) =
      .finite s f.toNat spec.minExponent hf := by
  have hexp : ((0#(spec.exponentBits)).toNat : Int) -
      (spec.exponentBias + spec.mantissaBitsWithoutImplicit) + 1 = spec.minExponent := by
    have := minExponent_biased spec
    simp
    omega
  rw [unpack_packComponents, if_neg (zero_ne_neg_one spec), if_pos rfl,
    dif_neg (ne_zero_iff.mpr hf), finite.injEq]
  exact ⟨rfl, rfl, hexp⟩

theorem unpack_normal (htop : x ≠ -1#_) (hzero : x ≠ 0#_) :
    UnpackedFloat.unpack spec (packComponents spec s x f) =
      .finite s (2 ^ spec.mantissaBitsWithoutImplicit + f.toNat)
        (x.toNat - (spec.exponentBias + spec.mantissaBitsWithoutImplicit))
        (two_pow_add_pos _ _) := by
  rw [unpack_packComponents, if_neg htop, if_neg hzero, finite.injEq]
  exact ⟨rfl, one_append_toNat f, rfl⟩

/-! ## Packing -/

theorem pack_finite {m : Nat} {e : Int} (hm : 0 < m)
    (hroom : e + (spec.exponentBias + spec.mantissaBitsWithoutImplicit) + 1 <
      2 ^ spec.exponentBits) :
    UnpackedFloat.pack spec (.finite s m e hm) =
      if m.log2 = spec.mantissaBitsWithoutImplicit then
        packComponents spec s
          (BitVec.ofNat _ (e + (spec.exponentBias + spec.mantissaBitsWithoutImplicit)).toNat)
          (BitVec.ofNat _ m)
      else packComponents spec s 0#_ (BitVec.ofNat _ m) := by
  have hfits : ¬2 ^ spec.exponentBits ≤
      (e + (spec.exponentBias + spec.mantissaBitsWithoutImplicit)).toNat + 1 := by
    have hpos : 1 < 2 ^ spec.exponentBits := Nat.one_lt_two_pow spec.he.ne'
    have hcast : ((2 ^ spec.exponentBits : Nat) : Int) = 2 ^ spec.exponentBits := by push_cast; rfl
    omega
  have hbits : m.log2 + 1 = spec.mantissaBits ↔ m.log2 = spec.mantissaBitsWithoutImplicit := by
    unfold Format.mantissaBits
    omega
  unfold UnpackedFloat.pack
  simp only [add_assoc, if_neg hfits, hbits]

theorem pack_subnormal {m : Nat} (hm : 0 < m) (hlt : m < 2 ^ spec.mantissaBitsWithoutImplicit)
    (hroom : 2 < 2 ^ spec.exponentBits) :
    UnpackedFloat.pack spec (.finite s m spec.minExponent hm) =
      packComponents spec s 0#_ (BitVec.ofNat _ m) := by
  have hlog : m.log2 < spec.mantissaBitsWithoutImplicit := (Nat.log2_lt hm.ne').mpr hlt
  rw [pack_finite hm, if_neg hlog.ne]
  rw [minExponent_biased]
  exact_mod_cast hroom

theorem pack_normal {m : Nat} {n : Nat} (hlow : 2 ^ spec.mantissaBitsWithoutImplicit ≤ m)
    (hhigh : m < 2 ^ spec.mantissaBits) (hn : n + 1 < 2 ^ spec.exponentBits) :
    UnpackedFloat.pack spec
        (.finite s m (n - (spec.exponentBias + spec.mantissaBitsWithoutImplicit))
          ((Nat.two_pow_pos _).trans_le hlow)) =
      packComponents spec s (BitVec.ofNat _ n) (BitVec.ofNat _ m) := by
  have hm : m ≠ 0 := ((Nat.two_pow_pos _).trans_le hlow).ne'
  have hlog : m.log2 = spec.mantissaBitsWithoutImplicit := by
    have h1 := (Nat.le_log2 hm).mpr hlow
    have h2 := (Nat.log2_lt hm).mpr hhigh
    unfold Format.mantissaBits at h2
    omega
  rw [pack_finite, if_pos hlog, sub_add_cancel, Int.toNat_natCast]
  rw [sub_add_cancel]
  exact_mod_cast hn

/-- A float that can be stored is a subnormal or a normal one. -/
theorem IsStorable.subnormal_or_normal {m : Nat} {e : Int} {hm : 0 < m}
    (h : IsStorable spec (.finite s m e hm)) :
    (m < 2 ^ spec.mantissaBitsWithoutImplicit ∧ e = spec.minExponent ∧ 2 < 2 ^ spec.exponentBits) ∨
      (2 ^ spec.mantissaBitsWithoutImplicit ≤ m ∧ m < 2 ^ spec.mantissaBits ∧
        ∃ n : Nat, 0 < n ∧ n + 1 < 2 ^ spec.exponentBits ∧
          e = n - (spec.exponentBias + spec.mantissaBitsWithoutImplicit)) := by
  obtain ⟨⟨hhigh, hmin, hfull⟩, hroom⟩ := h
  have hbiased := minExponent_biased spec
  have hcast : ((2 ^ spec.exponentBits : Nat) : Int) = 2 ^ spec.exponentBits := by push_cast; rfl
  rcases lt_or_ge m (2 ^ spec.mantissaBitsWithoutImplicit) with hlt | hge
  · have heq : e = spec.minExponent := by
      by_contra hne
      exact absurd (hfull (lt_of_le_of_ne hmin (Ne.symm hne))) (not_le.mpr hlt)
    subst heq
    exact .inl ⟨hlt, rfl, by omega⟩
  · refine .inr ⟨hge, hhigh,
      (e + (spec.exponentBias + spec.mantissaBitsWithoutImplicit)).toNat, ?_, ?_, ?_⟩ <;> omega

theorem quiet_ne_zero (spec : Format) :
    (1#(spec.mantissaBitsWithoutImplicit) <<< (spec.mantissaBitsWithoutImplicit - 1)) ≠ 0#_ := by
  have hlt : 2 ^ (spec.mantissaBitsWithoutImplicit - 1) < 2 ^ spec.mantissaBitsWithoutImplicit :=
    Nat.pow_lt_pow_right one_lt_two (Nat.sub_one_lt spec.hm.ne')
  rw [ne_zero_iff, BitVec.toNat_shiftLeft, BitVec.toNat_ofNat,
    Nat.mod_eq_of_lt (Nat.one_lt_two_pow spec.hm.ne'), Nat.one_shiftLeft, Nat.mod_eq_of_lt hlt]
  positivity

/-- The fraction of a full mantissa is what stands beside its implicit bit. -/
theorem implicit_add_ofNat {m : Nat} (hlow : 2 ^ spec.mantissaBitsWithoutImplicit ≤ m)
    (hhigh : m < 2 ^ spec.mantissaBits) :
    2 ^ spec.mantissaBitsWithoutImplicit +
      (BitVec.ofNat spec.mantissaBitsWithoutImplicit m).toNat = m := by
  obtain ⟨k, rfl⟩ := Nat.exists_eq_add_of_le hlow
  have hk : k < 2 ^ spec.mantissaBitsWithoutImplicit := by
    rw [two_pow_mantissaBits] at hhigh
    omega
  rw [BitVec.toNat_ofNat, Nat.add_mod_left, Nat.mod_eq_of_lt hk]

/-- Packing loses nothing of a float that can be stored. -/
theorem unpack_pack {u : UnpackedFloat} (h : IsStorable spec u) :
    UnpackedFloat.unpack spec (UnpackedFloat.pack spec u) = u := by
  match u with
  | .zero s => exact unpack_zero
  | .infinity s => exact unpack_special.trans (if_pos rfl)
  | .notANumber => exact unpack_special.trans (if_neg (quiet_ne_zero spec))
  | .finite s m e hm =>
    obtain ⟨hlt, rfl, hroom⟩ | ⟨hlow, hhigh, n, hpos, hn, rfl⟩ := h.subnormal_or_normal
    · have hf : (BitVec.ofNat spec.mantissaBitsWithoutImplicit m).toNat = m :=
        Nat.mod_eq_of_lt hlt
      rw [pack_subnormal hm hlt hroom, unpack_subnormal (by rwa [hf]), finite.injEq]
      exact ⟨rfl, hf, rfl⟩
    · have hx : (BitVec.ofNat spec.exponentBits n).toNat = n := Nat.mod_eq_of_lt (by omega)
      rw [pack_normal hlow hhigh hn, unpack_normal (ne_neg_one_iff.mpr (by rwa [hx]))
        (ne_zero_iff.mpr (by rwa [hx])), finite.injEq, hx]
      exact ⟨rfl, implicit_add_ofNat hlow hhigh, rfl⟩

theorem two_lt_two_pow {n : Nat} (hn : 1 < n) : 2 < 2 ^ n :=
  calc 2 = 2 ^ 1 := rfl
    _ < 2 ^ n := Nat.pow_lt_pow_right one_lt_two hn

theorem full_lt (f : BitVec spec.mantissaBitsWithoutImplicit) :
    2 ^ spec.mantissaBitsWithoutImplicit + f.toNat < 2 ^ spec.mantissaBits := by
  have := f.isLt
  rw [two_pow_mantissaBits]
  omega

theorem ofNat_full {n : Nat} (f : BitVec n) : BitVec.ofNat n (2 ^ n + f.toNat) = f := by
  apply BitVec.eq_of_toNat_eq
  rw [BitVec.toNat_ofNat, Nat.add_mod_left, Nat.mod_eq_of_lt f.isLt]

/-- Unpacking loses nothing of a packed float whose NaN is the chosen one. -/
theorem pack_unpack (hk : 1 < spec.exponentBits) {b : BitVec spec.numBits} (h : spec.Valid b) :
    UnpackedFloat.pack spec (UnpackedFloat.unpack spec b) = b := by
  obtain ⟨s, x, f, rfl⟩ := exists_components b
  by_cases htop : x = -1#_
  · subst htop
    rw [unpack_special]
    split_ifs with hf
    · rw [hf]
      rfl
    · exact (h.eq_packedNaN unpackExponent_packComponents
        (by rwa [unpackMantissa_packComponents])).symm
  by_cases hx : x = 0#_
  · subst hx
    by_cases hf : f = 0#_
    · rw [hf, unpack_zero]
      rfl
    · rw [unpack_subnormal (ne_zero_iff.mp hf), pack_subnormal _ f.isLt (two_lt_two_pow hk),
        BitVec.ofNat_toNat, BitVec.setWidth_eq]
  · rw [unpack_normal htop hx, pack_normal (Nat.le_add_right _ _) (full_lt f)
      (ne_neg_one_iff.mp htop), BitVec.ofNat_toNat, BitVec.setWidth_eq, ofNat_full]

/-- What a packed float is unpacked to can be stored. -/
theorem isStorable_unpack (hk : 1 < spec.exponentBits) (b : BitVec spec.numBits) :
    IsStorable spec (UnpackedFloat.unpack spec b) := by
  obtain ⟨s, x, f, rfl⟩ := exists_components b
  have hbiased := minExponent_biased spec
  by_cases htop : x = -1#_
  · subst htop
    rw [unpack_special]
    split_ifs <;> trivial
  by_cases hx : x = 0#_
  · subst hx
    by_cases hf : f = 0#_
    · rw [hf, unpack_zero]
      trivial
    · rw [unpack_subnormal (ne_zero_iff.mp hf)]
      refine ⟨⟨?_, le_rfl, fun h => absurd h (lt_irrefl _)⟩, ?_⟩
      · exact (Nat.le_add_left _ _).trans_lt (full_lt f)
      · rw [hbiased]
        exact_mod_cast two_lt_two_pow hk
  · rw [unpack_normal htop hx]
    have hpos := ne_zero_iff.mp hx
    refine ⟨⟨full_lt f, by omega, fun _ => Nat.le_add_right _ _⟩, ?_⟩
    rw [sub_add_cancel]
    exact_mod_cast ne_neg_one_iff.mp htop

/-- A canonical float below the first power of two out of range can be stored. -/
theorem isStorable_of_lt (hk : 1 < spec.exponentBits) {u : UnpackedFloat} (h : IsCanonical spec u)
    (hlt : |valueOf u| < 2 ^ 2 ^ (spec.exponentBits - 1)) : IsStorable spec u := by
  match u with
  | .zero _ | .infinity _ | .notANumber => trivial
  | .finite s m e hm =>
    refine ⟨h, ?_⟩
    have hbiased := minExponent_biased spec
    obtain ⟨-, hmin, hfull⟩ := h
    rcases hmin.eq_or_lt with rfl | hmin
    · rw [hbiased]
      exact_mod_cast two_lt_two_pow hk
    · have hle : (2 : Rat) ^ ((spec.mantissaBitsWithoutImplicit : Int) + e) ≤ m * 2 ^ e := by
        rw [zpow_add₀ two_ne_zero, zpow_natCast]
        exact mul_le_mul_of_nonneg_right (by exact_mod_cast hfull hmin) (two_zpow_pos e).le
      rw [abs_valueOf_finite] at hlt
      have hexp : (spec.mantissaBitsWithoutImplicit : Int) + e <
          ((2 ^ (spec.exponentBits - 1) : Nat) : Int) := by
        rw [← zpow_lt_zpow_iff_right₀ (one_lt_two : (1 : Rat) < 2), zpow_natCast]
        exact hle.trans_lt hlt
      have hcapacity : (2 : Int) ^ spec.exponentBits = 2 * (spec.exponentBias + 1) := by
        exact_mod_cast two_pow_exponentBits spec
      have hbias := exponentBias_add_one spec
      omega

theorem IsStorable.abs_valueOf_lt {u : UnpackedFloat} (h : IsStorable spec u) :
    |valueOf u| < 2 ^ 2 ^ (spec.exponentBits - 1) := by
  match u with
  | .zero _ | .infinity _ | .notANumber =>
    show |(0 : Rat)| < _
    rw [abs_zero]
    positivity
  | .finite s m e hm =>
    obtain ⟨⟨hlt, -, -⟩, hroom⟩ := h
    have hcapacity : (2 : Int) ^ spec.exponentBits = 2 * (spec.exponentBias + 1) := by
      exact_mod_cast two_pow_exponentBits spec
    have hexp : (spec.mantissaBits : Int) + e ≤ (spec.exponentBias + 1 : Nat) := by
      unfold Format.mantissaBits
      push_cast
      omega
    rw [abs_valueOf_finite, ← exponentBias_add_one, ← zpow_natCast]
    calc (m : Rat) * 2 ^ e < 2 ^ spec.mantissaBits * 2 ^ e :=
          mul_lt_mul_of_pos_right (by exact_mod_cast hlt) (two_zpow_pos e)
      _ = 2 ^ ((spec.mantissaBits : Int) + e) := by rw [zpow_add₀ two_ne_zero, zpow_natCast]
      _ ≤ 2 ^ ((spec.exponentBias + 1 : Nat) : Int) := zpow_le_zpow_right₀ one_le_two hexp

end Mosaic.Binary
