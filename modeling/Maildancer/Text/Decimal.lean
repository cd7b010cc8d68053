import Maildancer.Text
import Mathlib.Data.Nat.Digits.Lemmas

namespace Maildancer.Text

open List

def digitByte (d : Nat) : UInt8 := UInt8.ofNat (48 + d)

-- The verb %d for an unsigned integer.
def decimal (n : Nat) : Bytes :=
  if n = 0 then [digitByte 0] else (Nat.digits 10 n).reverse.map digitByte

def decimalInt : Int → Bytes
  | .ofNat n => decimal n
  | .negSucc n => 45 :: decimal (n + 1)

def isDigit (b : UInt8) : Bool := 48 ≤ b ∧ b ≤ 57

def digitValue (b : UInt8) : Nat := b.toNat - 48

def digitsValue (s : Bytes) : Nat := Nat.ofDigits 10 (s.reverse.map digitValue)

def parseDigits (s : Bytes) : Option Nat :=
  if s ≠ [] ∧ s.all isDigit then some (digitsValue s) else none

-- strconv.ParseUint in base 10.
def parseUint (bits : Nat) (s : Bytes) : Option Nat :=
  (parseDigits s).filter (· < 2 ^ bits)

-- strconv.Atoi where an int has 64 bits.
def atoi : Bytes → Option Int
  | 45 :: digits => ((parseDigits digits).filter (· ≤ 2 ^ 63)).map fun n => -(n : Int)
  | 43 :: digits => ((parseDigits digits).filter (· < 2 ^ 63)).map Int.ofNat
  | digits => ((parseDigits digits).filter (· < 2 ^ 63)).map Int.ofNat

lemma digitByte_toNat (d : Nat) (h : d < 10) : (digitByte d).toNat = 48 + d := by
  simp only [digitByte, UInt8.toNat_ofNat']
  omega

lemma isDigit_digitByte (d : Nat) (h : d < 10) : isDigit (digitByte d) = true := by
  simp only [isDigit, decide_eq_true_eq, UInt8.le_iff_toNat_le, digitByte_toNat d h]
  change 48 ≤ 48 + d ∧ 48 + d ≤ 57
  omega

lemma digitValue_digitByte (d : Nat) (h : d < 10) : digitValue (digitByte d) = d := by
  simp [digitValue, digitByte_toNat d h]

lemma decimal_ne_nil (n : Nat) : decimal n ≠ [] := by
  unfold decimal
  split_ifs with hn
  · simp
  · simp [Nat.digits_eq_nil_iff_eq_zero, hn]

lemma decimal_isDigit (n : Nat) (b : UInt8) (hb : b ∈ decimal n) : isDigit b = true := by
  unfold decimal at hb
  split_ifs at hb
  · rw [mem_singleton.mp hb]
    exact isDigit_digitByte 0 (by omega)
  · obtain ⟨d, hd, rfl⟩ := mem_map.mp hb
    exact isDigit_digitByte d (Nat.digits_lt_base (by omega) (mem_reverse.mp hd))

lemma digitsValue_decimal (n : Nat) : digitsValue (decimal n) = n := by
  unfold decimal
  split_ifs with hn
  · subst hn; rfl
  have hm : (Nat.digits 10 n).map (digitValue ∘ digitByte) = Nat.digits 10 n := by
    conv_rhs => rw [← map_id (Nat.digits 10 n)]
    apply map_congr_left
    intro d hd
    exact digitValue_digitByte d (Nat.digits_lt_base (by omega) hd)
  simp only [digitsValue, map_reverse, reverse_reverse, map_map, hm, Nat.ofDigits_digits]

lemma parseDigits_decimal (n : Nat) : parseDigits (decimal n) = some n := by
  have hd := all_eq_true.mpr (decimal_isDigit n)
  simp [parseDigits, decimal_ne_nil, hd, digitsValue_decimal]

lemma parseUint_decimal (bits n : Nat) (h : n < 2 ^ bits) : parseUint bits (decimal n) = some n := by
  simp [parseUint, parseDigits_decimal, Option.filter, h]

lemma decimal_length_le (n width : Nat) (hw : 0 < width) (h : n < 10 ^ width) :
    (decimal n).length ≤ width := by
  unfold decimal
  split_ifs with hn
  · exact hw
  · simpa using (Nat.digits_length_le_iff (by omega) n).mpr h

lemma decimalInt_length_le (i : Int) (hlo : -2 ^ 63 ≤ i) (hhi : i < 2 ^ 63) : (decimalInt i).length ≤ 20 := by
  cases i with
  | ofNat n =>
    refine decimal_length_le n 20 (by omega) ?_
    simp only [Int.ofNat_eq_natCast] at hhi
    omega
  | negSucc n =>
    have hn : n + 1 < 10 ^ 19 := by omega
    exact Nat.succ_le_succ (decimal_length_le (n + 1) 19 (by omega) hn)

lemma atoi_of_head (b : UInt8) (rest : Bytes) (hb : isDigit b = true) :
    atoi (b :: rest) = ((parseDigits (b :: rest)).filter (· < 2 ^ 63)).map Int.ofNat := by
  unfold atoi
  split
  · rename_i heq; cases heq; cases hb
  · rename_i heq; cases heq; cases hb
  · rfl

lemma atoi_decimalInt (i : Int) (hlo : -2 ^ 63 ≤ i) (hhi : i < 2 ^ 63) : atoi (decimalInt i) = some i := by
  cases i with
  | ofNat n =>
    have hn : n < 2 ^ 63 := by
      simp only [Int.ofNat_eq_natCast] at hhi
      omega
    obtain ⟨b, rest, he⟩ := exists_cons_of_ne_nil (decimal_ne_nil n)
    have hb := decimal_isDigit n b (by simp [he])
    change atoi (decimal n) = _
    rw [he, atoi_of_head b rest hb, ← he, parseDigits_decimal]
    simp only [Option.filter, decide_eq_true_eq, hn, ite_true, Option.map_some]
  | negSucc n =>
    have hn : n + 1 ≤ 2 ^ 63 := by
      have : -((n : Int) + 1) ≥ -2 ^ 63 := by simpa [Int.negSucc_eq] using hlo
      omega
    simp only [decimalInt, atoi, parseDigits_decimal, Option.filter, decide_eq_true_eq, hn, ite_true]
    rfl

end Maildancer.Text
