import Maildancer.Text

namespace Maildancer.Text

-- url.PathEscape: a byte that is not safe is a percent sign and two digits.
def upperHex (d : Nat) : UInt8 := UInt8.ofNat (if d < 10 then 48 + d else 55 + d)

def escapeByte (safe : UInt8 → Bool) (b : UInt8) : Bytes :=
  if safe b then [b] else [37, upperHex (b.toNat / 16), upperHex (b.toNat % 16)]

def percentEscape (safe : UInt8 → Bool) (s : Bytes) : Bytes := s.flatMap (escapeByte safe)

lemma upperHex_toNat {d : Nat} (h : d < 16) : (upperHex d).toNat = if d < 10 then 48 + d else 55 + d := by
  rw [upperHex, UInt8.toNat_ofNat', Nat.mod_eq_of_lt]
  split <;> omega

lemma upperHex_injective {d e : Nat} (hd : d < 16) (he : e < 16) (h : upperHex d = upperHex e) : d = e := by
  have hn := congrArg UInt8.toNat h
  rw [upperHex_toNat hd, upperHex_toNat he] at hn
  split at hn <;> split at hn <;> omega

-- The percent sign itself is escaped, so it tells the two kinds apart.
lemma percentEscape_injective {safe : UInt8 → Bool} (hp : safe 37 = false) :
    Function.Injective (percentEscape safe) := by
  intro s t
  have hh : ∀ b rest, percentEscape safe (b :: rest) = escapeByte safe b ++ percentEscape safe rest := by
    intro b rest
    exact List.flatMap_cons
  have hne : ∀ b rest, percentEscape safe (b :: rest) ≠ [] := by
    intro b rest
    rw [hh, escapeByte]
    split <;> exact List.cons_ne_nil _ _
  induction s generalizing t with
  | nil =>
    intro h
    cases t with
    | nil => rfl
    | cons b rest => exact absurd h.symm (hne b rest)
  | cons a s ih =>
    intro h
    rcases t with _ | ⟨b, rest⟩
    · exact absurd h (hne a s)
    rw [hh, hh, escapeByte, escapeByte] at h
    by_cases ha : safe a = true
    · by_cases hb : safe b = true
      · rw [if_pos ha, if_pos hb] at h
        obtain ⟨hby, hr⟩ := List.cons.inj h
        rw [hby, ih hr]
      rw [if_pos ha, if_neg hb] at h
      obtain ⟨hby, -⟩ := List.cons.inj h
      rw [hby, hp] at ha
      cases ha
    · by_cases hb : safe b = true
      · rw [if_neg ha, if_pos hb] at h
        obtain ⟨hby, -⟩ := List.cons.inj h
        rw [← hby, hp] at hb
        cases hb
      · rw [if_neg ha, if_neg hb] at h
        obtain ⟨-, h⟩ := List.cons.inj h
        obtain ⟨hhi, h⟩ := List.cons.inj h
        obtain ⟨hl, hr⟩ := List.cons.inj h
        have halt := UInt8.toNat_lt a
        have hblt := UInt8.toNat_lt b
        have hhi := upperHex_injective (by omega) (by omega) hhi
        have hl := upperHex_injective (by omega) (by omega) hl
        have hby : a = b := UInt8.toNat_inj.mp (by omega)
        rw [hby, ih hr]

end Maildancer.Text
